import AgentMesh.Node

/-!
# What is measured

The parts of a node report events. Whoever listens decides what to keep of them.
-/

namespace AgentMesh.Metrics

/-- Durations are in nanoseconds. -/
inductive Event
  | message (direction kind : String)
  | latency (target operation : String) (nanos : Nat)
  | status (status : NodeStatus)
  | connections (count : Nat)
  | inference (model status : String) (nanos tokens : Nat)
  | resources (resources : Resources)
deriving Repr, DecidableEq, Inhabited

def incoming : String := "incoming"

def outgoing : String := "outgoing"

end AgentMesh.Metrics
