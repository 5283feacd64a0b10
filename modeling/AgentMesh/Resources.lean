import AgentMesh.Clamp
import AgentMesh.Validation

/-!
# Resources of a node

What a node offers: processors, memory, graphics cards, and the model layers it can hold and holds.
-/

namespace AgentMesh

structure Gpu where
  name : String := ""
  memoryMb : Int64 := 0
  uuid : String := ""
deriving Repr, DecidableEq, Inhabited

structure Resources where
  cpuCores : Int64 := 0
  memoryMb : Int64 := 0
  gpus : List Gpu := []
  maxLayers : Int32 := 0
  usedLayers : Int32 := 0
deriving Repr, DecidableEq, Inhabited

namespace Resources

/-- What a host offers while nothing is assigned to it. -/
def ofHost (cpuCores memoryMb : Int64) (maxLayers : Int32) (gpus : List Gpu) : Resources :=
  { cpuCores, memoryMb, gpus, maxLayers }

def totalMemoryMb (r : Resources) : Int64 :=
  r.memoryMb + r.gpus.foldl (fun sum g => sum + g.memoryMb) 0

def hasGpus (r : Resources) : Bool :=
  !r.gpus.isEmpty

/-- The layers that can still be assigned; none if more are used than fit. -/
def availableLayers (r : Resources) : Int32 :=
  clampInt32 (max 0 (r.maxLayers.toInt - r.usedLayers.toInt))

/-- Layer counts are not negative and the used layers fit. -/
def validate (r : Resources) : Except ValidationError Unit :=
  if r.maxLayers < 0 ∨ r.usedLayers < 0 then .error (.negativeLayers r.maxLayers r.usedLayers)
  else if r.maxLayers < r.usedLayers then .error (.overCapacity r.usedLayers r.maxLayers)
  else .ok ()

end Resources

end AgentMesh
