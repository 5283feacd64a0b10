import AgentMesh.Discovery.Address
import AgentMesh.Node
import Std.Data.ExtTreeMap

/-!
# Registered agents

The registry of a console, keyed by the address at which an agent was reached: the node that the agent is
shown as, the open connection to it, and the monitor that polls it.
-/

namespace AgentMesh.Discovery

/-- An open connection to an agent. Connections are numbered in the order in which they are opened. -/
structure Handle where
  address : String
  number : Nat
deriving Repr, DecidableEq, Inhabited

/-- A map from addresses, listed in their order. -/
abbrev AddressMap (α : Type) := Std.ExtTreeMap String α

/-- A monitor bears the number of the connection that it polls. -/
structure Registry where
  nodes : AddressMap Node := ∅
  clients : AddressMap Handle := ∅
  monitors : AddressMap Nat := ∅
deriving Inhabited

/-- The node of an agent that has just been reached. -/
def nodeAt (address : String) (resources : Resources) (now : Nat) : Node :=
  let (host, port) := splitHostPort address
  { id := "agent-" ++ address, address := host, port, resources, lastSeen := now }

namespace Registry

def contains (r : Registry) (address : String) : Bool :=
  r.clients.contains address

def register (r : Registry) (client : Handle) (node : Node) : Registry where
  nodes := r.nodes.insert client.address node
  clients := r.clients.insert client.address client
  monitors := r.monitors.insert client.address client.number

def observed (r : Registry) (address : String) (resources : Resources) (now : Nat) : Registry :=
  { r with nodes := r.nodes.modify address fun n =>
      { n with resources, lastSeen := now, status := .online } }

def missed (r : Registry) (address : String) : Registry :=
  { r with nodes := r.nodes.modify address fun n => { n with status := .offline } }

/-- Strikes off an agent; gives its connection, which is to be closed. -/
def strike (r : Registry) (address : String) : Registry × Option Handle :=
  ({ nodes := r.nodes.erase address, clients := r.clients.erase address,
     monitors := r.monitors.erase address }, r.clients[address]?)

/-- Strikes off all agents; gives their connections, which are to be closed. -/
def clear (r : Registry) : Registry × List Handle :=
  ({}, r.clients.values)

def snapshot (r : Registry) : List Node :=
  r.nodes.values.mergeSort fun a b => a.id ≤ b.id

end Registry

end AgentMesh.Discovery
