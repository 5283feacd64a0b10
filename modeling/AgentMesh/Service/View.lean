import AgentMesh.Broadcaster
import AgentMesh.Gossip.Record
import AgentMesh.Wire.Schema

/-!
# The cluster as one agent sees it

An agent knows the members that gossip tells it about and the nodes that were added to its broadcaster. Of two
nodes with one name, the gossiped one counts.
-/

namespace AgentMesh.Service

/-- The time of an event: seconds since the Unix epoch, and since the agent was started. -/
structure Clock where
  epochSecs : Nat := 0
  uptimeSecs : Nat := 0
deriving Repr, DecidableEq, Inhabited

structure View where
  localId : String
  members : List Gossip.Member := []
  broadcaster : Broadcaster := {}
deriving Repr, DecidableEq, Inhabited

namespace View

def gossiped (v : View) : List Node :=
  v.members.map Gossip.Member.toNode

/-- Every known node: the gossiped ones, then the added ones of other names. -/
def nodes (v : View) : List Node :=
  v.gossiped ++ v.broadcaster.nodes.filter fun n => !(v.gossiped.any fun g => g.id == n.id)

def peers (v : View) : List Node :=
  v.nodes.filter fun n => n.id != v.localId

/-- What this node says it is; online if gossip does not run. -/
def localStatus (v : View) : NodeStatus :=
  match v.members.find? fun m => m.name == v.localId with
  | some m => m.toNode.status
  | none => .online

def nodeMetrics (v : View) (clock : Clock) : Wire.NodeMetrics :=
  let r := v.broadcaster.resources
  { nodeId := v.localId, timestamp := Int64.ofNat clock.epochSecs, status := v.localStatus.name,
    cpuCores := r.cpuCores, memoryMb := r.memoryMb, totalMemoryMb := r.totalMemoryMb,
    gpuCount := Int32.ofNat r.gpus.length, maxLayers := r.maxLayers, usedLayers := r.usedLayers,
    availableLayers := r.availableLayers, peerCount := clampInt32 v.peers.length,
    uptimeSeconds := Int64.ofNat clock.uptimeSecs }

end View

end AgentMesh.Service
