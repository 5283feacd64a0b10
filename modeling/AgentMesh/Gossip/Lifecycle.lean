import AgentMesh.Gossip.Error
import AgentMesh.Net.SocketAddr

/-!
# Life cycle of a member

A member is created, started, and stopped once and for all. Starting has several sections that may interleave
with other calls: entering, reporting that no socket could be bound, installing the socket with
the tasks that serve it, and settling whether a cluster was joined. Each section is one step here.
-/

namespace AgentMesh.Gossip

inductive Phase
  | created
  | started
  | joined
  | standalone
  | stopped
deriving Repr, DecidableEq, Inhabited

namespace Phase

def name : Phase → String
  | created => "Created"
  | started => "Started"
  | joined => "Joined"
  | standalone => "Standalone"
  | stopped => "Stopped"

def all : List Phase := [created, started, joined, standalone, stopped]

def isRunning : Phase → Bool
  | created => false
  | started => true
  | joined => true
  | standalone => true
  | stopped => false

end Phase

/-- What a member holds while it runs: a bound socket, and tasks that can be told to shut down. -/
structure Lifecycle where
  phase : Phase := .created
  socket : Option Net.SocketAddr := none
  shutdown : Bool := false
  tasks : Nat := 0
deriving Repr, DecidableEq, Inhabited

namespace Lifecycle

/-- One task receives datagrams, another one runs the rounds. -/
def taskCount : Nat := 2

/-- Of several starts of a member that has just been created, one may go on. -/
def enter (l : Lifecycle) : Except Error Lifecycle :=
  match l.phase with
  | .created => .ok { l with phase := .started }
  | .stopped => .error .stopped
  | _ => .error .alreadyStarted

/-- After a failed bind the member may be started again, unless it was stopped meanwhile. -/
def bindFailed (l : Lifecycle) : Lifecycle :=
  if l.phase = .started then { l with phase := .created } else l

/-- Takes a bound socket into use, unless the member was stopped meanwhile. -/
def install (l : Lifecycle) (addr : Net.SocketAddr) : Except Error Lifecycle :=
  if l.phase = .stopped then .error .stopped
  else .ok { l with socket := some addr, shutdown := true, tasks := taskCount }

def settle (l : Lifecycle) (phase : Phase) : Lifecycle :=
  if l.phase.isRunning then { l with phase } else l

def openSocket (l : Lifecycle) : Except Error Net.SocketAddr :=
  match l.phase with
  | .created => .error .notStarted
  | .stopped => .error .stopped
  | _ =>
      match l.socket with
      | some addr => .ok addr
      | none => .error .notStarted

def stop (_ : Lifecycle) : Lifecycle :=
  { phase := .stopped, socket := none, shutdown := false, tasks := 0 }

end Lifecycle

end AgentMesh.Gossip
