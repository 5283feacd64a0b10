import AgentMesh.Wire.Schema

/-!
# The capacity of a cluster

Sums over the nodes of a cluster. Memory is summed node by node within 64 bits; counts are summed exactly and
fitted into 32 bits at the end. Only online nodes count as healthy. Nodes do not report how much memory they
use, so all of it counts as available.
-/

namespace AgentMesh.Service

/-- The sum of two amounts of memory, or the nearest amount that 64 bits hold. -/
def addMemory (a b : Int64) : Int64 :=
  clampInt64 (a.toInt + b.toInt)

def totalMemory (nodes : List Node) : Int64 :=
  nodes.foldl (fun sum n => addMemory sum n.resources.memoryMb) 0

def total (amount : Node → Int) (nodes : List Node) : Int :=
  nodes.foldl (fun sum n => sum + amount n) 0

def totalGpus : List Node → Int :=
  total fun n => n.resources.gpus.length

def totalLayers : List Node → Int :=
  total fun n => n.resources.maxLayers.toInt

def allocatedLayers : List Node → Int :=
  total fun n => n.resources.usedLayers.toInt

/-- A percentage in single precision, computed in double precision. -/
def percentage (part whole : Int) : Wire.Single :=
  let quotient := (Int64.ofInt part).toFloat / (Int64.ofInt whole).toFloat * 100.0
  ⟨quotient.toFloat32.toBits⟩

/-- The percentage of layers that are assigned; zero if there are none to assign. -/
def utilization (nodes : List Node) : Wire.Single :=
  if 0 < totalLayers nodes then percentage (allocatedLayers nodes) (totalLayers nodes) else {}

def clusterMetrics (nodes : List Node) : Wire.ClusterMetrics :=
  { totalNodes := clampInt32 nodes.length,
    healthyNodes := clampInt32 (nodes.countP fun n => n.status == .online),
    totalMemoryMb := totalMemory nodes,
    availableMemoryMb := totalMemory nodes,
    totalGpus := clampInt32 (totalGpus nodes),
    totalLayers := clampInt32 (totalLayers nodes),
    allocatedLayers := clampInt32 (allocatedLayers nodes),
    clusterUtilization := utilization nodes }

end AgentMesh.Service
