import AgentMesh.Node

/-!
# Models and the state of a cluster
-/

namespace AgentMesh

structure Model where
  id : String := ""
  name : String := ""
  version : String := ""
  layerCount : Int32 := 0
  filePath : String := ""
  /-- Bytes. -/
  size : Int64 := 0
deriving Repr, DecidableEq, Inhabited

/-- The size in units of 2^30 bytes. -/
def Model.sizeInGb (m : Model) : Float :=
  m.size.toFloat / (1024.0 * 1024.0 * 1024.0)

def Model.catalog : List Model := [
  { id := "llama-7b", name := "Llama 2 7B", version := "v1.0", layerCount := 32,
    filePath := "/models/llama-7b.bin", size := 13000000000 },
  { id := "mistral-7b", name := "Mistral 7B", version := "v0.1", layerCount := 32,
    filePath := "/models/mistral-7b.bin", size := 14000000000 }]

structure ClusterState where
  nodes : List Node := []
  models : List Model := []
deriving Repr, DecidableEq, Inhabited

def ClusterState.healthyNodes (c : ClusterState) (now : Nat) : List Node :=
  c.nodes.filter (·.isHealthyAt now)

end AgentMesh
