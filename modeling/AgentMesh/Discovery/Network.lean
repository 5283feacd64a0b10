import AgentMesh.Discovery.Registry

/-!
# A network that is written down

Agents whose behaviour is given in advance, and a count of what was asked of them. Discovery can be followed
on such a network without any socket.
-/

namespace AgentMesh.Discovery

structure ScriptedAgent where
  resources : Resources := {}
  peers : List String := []
  /-- No connection can be opened. -/
  isDown : Bool := false
  /-- Polls fail. -/
  isSick : Bool := false
  /-- The peers cannot be listed. -/
  hidesPeers : Bool := false
  /-- Milliseconds until a connection is open, or has failed. -/
  delay : Nat := 0
deriving Repr, DecidableEq, Inhabited

/-- What a name service answers. -/
inductive NameService
  | missing
  | failing
  | listing (targets : List String)
deriving Repr, DecidableEq, Inhabited

structure Network where
  agents : AddressMap ScriptedAgent := ∅
  nameService : NameService := .missing
  opened : Nat := 0
  closed : List Handle := []
  connects : AddressMap Nat := ∅
  polls : AddressMap Nat := ∅
  closes : AddressMap Nat := ∅
  lookups : List String := []
deriving Inhabited

namespace Network

def bump (counts : AddressMap Nat) (address : String) : AddressMap Nat :=
  counts.insert address (counts.getD address 0 + 1)

/-- Asks for a connection; tells when the answer comes and whether the connection will be opened. -/
def dial (n : Network) (address : String) : Network × Nat × Bool :=
  let n := { n with connects := bump n.connects address }
  match n.agents[address]? with
  | none => (n, 0, false)
  | some a => (n, a.delay, !a.isDown)

def connect (n : Network) (address : String) : Network × Handle :=
  ({ n with opened := n.opened + 1 }, { address, number := n.opened })

def poll (n : Network) (client : Handle) : Network × Option Resources :=
  let n := { n with polls := bump n.polls client.address }
  match n.agents[client.address]? with
  | none => (n, none)
  | some a => (n, if a.isSick || n.closed.contains client then none else some a.resources)

def peers (n : Network) (client : Handle) : Option (List String) :=
  match n.agents[client.address]? with
  | none => none
  | some a => if a.hidesPeers then none else some a.peers

/-- A connection is counted when it is closed for the first time. -/
def close (n : Network) (client : Handle) : Network :=
  if n.closed.contains client then n
  else { n with closed := client :: n.closed, closes := bump n.closes client.address }

/-- The targets of a service record; none without a name service or when it fails. -/
def lookup (n : Network) (name : String) : Network × List String :=
  match n.nameService with
  | .missing => (n, [])
  | .failing => ({ n with lookups := n.lookups ++ [name] }, [])
  | .listing targets => ({ n with lookups := n.lookups ++ [name] }, targets)

end Network

end AgentMesh.Discovery
