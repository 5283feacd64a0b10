import AgentMesh.Discovery.Registry
import AgentMesh.Mailbox

/-!
# The directory of agents

What a console knows while it looks for agents: whether the search runs, which agents are registered, and
the mailbox that gets a snapshot of the nodes after every change. Each function is one section that no other
task can interrupt. Once the search is stopping nothing is registered any more.
-/

namespace AgentMesh.Discovery

inductive Phase
  | created
  | running
  | stopped
deriving Repr, DecidableEq, Inhabited

/-- Why a search cannot be started. -/
inductive StartError
  | alreadyStarted
  | stopped
deriving Repr, DecidableEq, Inhabited

def StartError.message : StartError → String
  | alreadyStarted => "discovery already started"
  | stopped => "discovery has been stopped"

structure Directory where
  phase : Phase := .created
  isStopping : Bool := false
  registry : Registry := {}
  updates : Option (Mailbox (List Node)) := none
deriving Inhabited

/-- What became of a connection that was offered for registration. -/
inductive Entry
  | registered
  /-- The connection is not needed; it is said whether the agent is registered nevertheless. -/
  | refused (isKnown : Bool)
deriving Repr, DecidableEq, Inhabited

namespace Directory

/-- A search is started at most once. -/
def start (d : Directory) : Except StartError Directory :=
  match d.phase with
  | .created => .ok { d with phase := .running }
  | .running => .error .alreadyStarted
  | .stopped => .error .stopped

def isKnown (d : Directory) (address : String) : Bool :=
  d.registry.contains address

/-- Registers a connected agent, unless the search is stopping or the agent is known by now. -/
def enter (d : Directory) (client : Handle) (resources : Resources) (now : Nat) : Directory × Entry :=
  if d.isStopping || d.isKnown client.address then (d, .refused !d.isStopping)
  else
    let node := nodeAt client.address resources now
    ({ d with registry := d.registry.register client node }, .registered)

def observed (d : Directory) (address : String) (resources : Resources) (now : Nat) : Directory :=
  { d with registry := d.registry.observed address resources now }

def missed (d : Directory) (address : String) : Directory :=
  { d with registry := d.registry.missed address }

def strike (d : Directory) (address : String) : Directory × Option Handle :=
  let (registry, client) := d.registry.strike address
  ({ d with registry }, client)

/-- Sends a snapshot of the nodes. -/
def announce (d : Directory) : Directory :=
  { d with updates := d.updates.map (·.push d.registry.snapshot) }

/-- The first section of stopping; there is nothing to do if the search was stopped before. -/
def signalStop (d : Directory) : Option Directory :=
  if d.phase = .stopped then none else some { d with phase := .stopped, isStopping := true }

/-- The second section of stopping; gives the connections that are to be closed. -/
def clear (d : Directory) : Directory × List Handle :=
  let (registry, clients) := d.registry.clear
  ({ d with registry }, clients)

end Directory

end AgentMesh.Discovery
