import AgentMesh.Net.SocketAddr
import AgentMesh.Node

/-!
# Member records

What one node tells another about a member: its owner's data, an incarnation that only the owner raises, a
heartbeat that the owner advances, and whether the member is thought to be alive.
-/

namespace AgentMesh.Gossip

inductive MemberState
  | alive
  | suspect
  | dead
  | left
deriving Repr, DecidableEq, Inhabited

namespace MemberState

def name : MemberState → String
  | alive => "alive"
  | suspect => "suspect"
  | dead => "dead"
  | left => "left"

def all : List MemberState := [alive, suspect, dead, left]

def ofName? (s : String) : Option MemberState :=
  all.find? (·.name == s)

/-- Which of two states wins at the same incarnation: the more severe one. -/
def severity : MemberState → Nat
  | alive => 0
  | suspect => 1
  | dead => 2
  | left => 2

/-- Whether a member in this state is still listed. -/
def isLive : MemberState → Bool
  | alive => true
  | suspect => true
  | dead => false
  | left => false

end MemberState

structure Profile where
  resources : Resources := {}
  status : NodeStatus := .online
deriving Repr, DecidableEq, Inhabited

structure MemberRecord where
  name : String
  addr : Net.SocketAddr
  rpcPort : UInt16
  profile : Profile := {}
  incarnation : Nat := 0
  heartbeat : Nat := 0
  state : MemberState := .alive
deriving Repr, DecidableEq, Inhabited

namespace MemberRecord

/-- A later incarnation, or a more severe state at the same one. -/
def supersedes (r s : MemberRecord) : Bool :=
  s.incarnation < r.incarnation ||
    (r.incarnation == s.incarnation && s.state.severity < r.state.severity)

end MemberRecord

/-- A listed member as seen from outside the gossip layer. -/
structure Member where
  name : String
  addr : Net.SocketAddr
  rpcPort : UInt16
  profile : Profile
  state : MemberState
  incarnation : Nat
  /-- Seconds since the Unix epoch. -/
  lastSeen : Nat
deriving Repr, DecidableEq, Inhabited

namespace Member

def ofRecord (r : MemberRecord) (lastSeen : Nat) : Member :=
  { name := r.name, addr := r.addr, rpcPort := r.rpcPort, profile := r.profile, state := r.state,
    incarnation := r.incarnation, lastSeen }

/-- The member as a node of the cluster. Only a member that is alive has the status that it reports. -/
def toNode (m : Member) : Node :=
  { id := m.name, address := m.addr.ip.text, port := m.rpcPort, resources := m.profile.resources,
    status := if m.state = .alive then m.profile.status else .offline, lastSeen := m.lastSeen }

end Member

end AgentMesh.Gossip
