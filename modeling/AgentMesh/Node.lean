import AgentMesh.Resources

/-!
# Nodes

A node as the rest of the cluster sees it. It is healthy while it is online and was seen in the last five
minutes.
-/

namespace AgentMesh

inductive NodeStatus
  | online
  | offline
  | busy
deriving Repr, DecidableEq, Inhabited

namespace NodeStatus

def name : NodeStatus → String
  | online => "online"
  | offline => "offline"
  | busy => "busy"

def all : List NodeStatus := [online, offline, busy]

def ofName? (s : String) : Option NodeStatus :=
  all.find? (·.name == s)

/-- The status named by another node; an unknown name counts as offline. -/
def ofWire (s : String) : NodeStatus :=
  (ofName? s).getD offline

/-- The value of the status as a measured quantity. -/
def gauge : NodeStatus → Nat
  | offline => 0
  | online => 1
  | busy => 2

end NodeStatus

structure Node where
  id : String := ""
  address : String := ""
  port : UInt16 := 0
  resources : Resources := {}
  status : NodeStatus := .online
  /-- Seconds since the Unix epoch. -/
  lastSeen : Nat := 0
deriving Repr, DecidableEq, Inhabited

namespace Node

/-- A node not seen for this many seconds is not healthy. -/
def healthyWindow : Nat := 300

def isHealthyAt (n : Node) (now : Nat) : Bool :=
  n.status == .online && now - n.lastSeen < healthyWindow

def endpoint (n : Node) : String :=
  n.address ++ ":" ++ toString n.port.toNat

end Node

end AgentMesh
