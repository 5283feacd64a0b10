import AgentMesh.CommandLine.Flags
import AgentMesh.Config
import AgentMesh.Seeds
import AgentMesh.Text.Numeral

/-!
# Settings from the command line

The flags of agents and consoles. A flag that is given takes precedence over the settings file.
-/

namespace AgentMesh

/-! ## Agents -/

structure AgentFlags where
  nodeId : Option String := none
  bindPort : Option UInt16 := none
  gossipPort : Option UInt16 := none
  metricsPort : Option UInt16 := none
  seedNodes : Option String := none
  maxLayers : Option Int32 := none
deriving Repr, DecidableEq, Inhabited

def readBounded? (low high : Int) (s : String) : Option Int :=
  (Text.readSigned? s.toList).filter fun i => low ≤ i && i ≤ high

namespace AgentFlags

open CommandLine

def readPort? (s : String) : Option UInt16 :=
  (readBounded? 0 65535 s).map fun i => UInt16.ofNat i.toNat

def readLayers? (s : String) : Option Int32 :=
  (readBounded? (-2147483648) 2147483647 s).map Int32.ofInt

def portFlag (name envName : String) : Flag :=
  { name, envName := some envName, accepts := fun s => (readPort? s).isSome }

def flags : List Flag := [
  { name := "node-id", envName := some "LLMESH_NODE_ID" },
  portFlag "bind-port" "LLMESH_BIND_PORT",
  portFlag "gossip-port" "LLMESH_GOSSIP_PORT",
  portFlag "metrics-port" "LLMESH_METRICS_PORT",
  { name := "seed-nodes", envName := some "LLMESH_SEED_NODES" },
  { name := "max-layers", accepts := fun s => (readLayers? s).isSome }]

def read (arguments : List String) (environment : Given) : Except FlagError AgentFlags := do
  let given ← readFlags flags arguments environment
  return { nodeId := given.value? "node-id",
           bindPort := (given.value? "bind-port").bind readPort?,
           gossipPort := (given.value? "gossip-port").bind readPort?,
           metricsPort := (given.value? "metrics-port").bind readPort?,
           seedNodes := given.value? "seed-nodes",
           maxLayers := (given.value? "max-layers").bind readLayers? }

def apply (f : AgentFlags) (c : AgentConfig) : AgentConfig :=
  { c with nodeId := f.nodeId.or c.nodeId,
           bindPort := f.bindPort.getD c.bindPort,
           gossipPort := f.gossipPort.getD c.gossipPort,
           metricsPort := f.metricsPort.getD c.metricsPort,
           seeds := (f.seedNodes.map Seeds.parse).getD c.seeds,
           maxLayers := f.maxLayers.getD c.maxLayers }

end AgentFlags

/-! ## Consoles -/

structure ConsoleFlags where
  seedNodes : Option String := none
  docker : Bool := false
  noPeerCrawl : Bool := false
  namespaceName : Option String := none
  updateBuffer : Option Nat := none
deriving Repr, DecidableEq, Inhabited

namespace ConsoleFlags

open CommandLine

def readCount? (s : String) : Option Nat :=
  (Text.readUnsigned? s.toList).filter fun n => n < 18446744073709551616

def flags : List Flag := [
  { name := "seed-nodes", envName := some "LLMESH_SEED_NODES" },
  { name := "docker", takesValue := false, conflicts := ["k8s-namespace", "no-peer-crawl"] },
  { name := "no-peer-crawl", takesValue := false, conflicts := ["k8s-namespace"] },
  { name := "k8s-namespace" },
  { name := "update-buffer", accepts := fun s => (readCount? s).isSome }]

def read (arguments : List String) (environment : Given) : Except FlagError ConsoleFlags := do
  let given ← readFlags flags arguments environment
  return { seedNodes := given.value? "seed-nodes",
           docker := given.contains "docker",
           noPeerCrawl := given.contains "no-peer-crawl",
           namespaceName := given.value? "k8s-namespace",
           updateBuffer := (given.value? "update-buffer").bind readCount? }

def mode? (f : ConsoleFlags) : Option ConsoleMode :=
  if f.docker then some .docker
  else if f.namespaceName.isSome then some .kubernetes
  else if f.noPeerCrawl then some .static
  else none

/-- At least one snapshot may wait. -/
def apply (f : ConsoleFlags) (c : ConsoleConfig) : ConsoleConfig :=
  { mode := f.mode?.getD c.mode,
    seeds := (f.seedNodes.map Seeds.parse).getD c.seeds,
    namespaceName := (if f.docker then none else f.namespaceName).getD c.namespaceName,
    updateBuffer := (f.updateBuffer.map (max 1)).getD c.updateBuffer }

end ConsoleFlags

end AgentMesh
