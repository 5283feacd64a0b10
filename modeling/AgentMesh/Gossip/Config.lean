import AgentMesh.Net.Ip
import AgentMesh.Validation

/-!
# Settings of the gossip layer

Periods and timeouts are in milliseconds.
-/

namespace AgentMesh.Gossip

structure Config where
  nodeId : String
  /-- Where the node answers calls; peers learn it from the node's record. -/
  bindPort : UInt16
  gossipPort : UInt16
  bindAddr : Net.Ip := .v4 ⟨0, 0, 0, 0⟩
  gossipInterval : Nat := 1000
  fanout : Nat := 3
  suspectAfter : Nat := 5000
  deadAfter : Nat := 10000
  tombstoneTtl : Nat := 30000
  joinTimeout : Nat := 5000
deriving Repr, DecidableEq, Inhabited

namespace Config

def create (nodeId : String) (bindPort gossipPort : Nat) : Except ValidationError Config := do
  validateNodeId nodeId
  let (bind, gossip) ← validatePortPair bindPort gossipPort
  return { nodeId, bindPort := bind, gossipPort := gossip }

/-- At least one peer is told the news. -/
def withFanout (c : Config) (fanout : Nat) : Config :=
  { c with fanout := max fanout 1 }

def validate (c : Config) : Except ValidationError Unit := do
  validateNodeId c.nodeId
  discard <| validatePortPair c.bindPort.toNat c.gossipPort.toNat

end Config

end AgentMesh.Gossip
