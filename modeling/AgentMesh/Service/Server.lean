import AgentMesh.Inference
import AgentMesh.Service.View

/-!
# Calls to an agent

A server answers calls. Each call ends in a response or in a status that refuses it, and reports what it did;
the last report is always the time that the call took.
-/

namespace AgentMesh.Service

inductive Status
  | invalidArgument (reason : String)
deriving Repr, DecidableEq, Inhabited

namespace Status

def codeName : Status → String
  | invalidArgument _ => "InvalidArgument"

def message : Status → String
  | invalidArgument reason => reason

end Status

structure Server where
  view : View
  engine : Engine

structure Outcome (α : Type) where
  result : Except Status α
  events : List Metrics.Event

/-- The report that ends every call. -/
def callTime (method : String) : Metrics.Event :=
  .latency "grpc" method 0

def timed {α : Type} (method : String) (result : Except Status α) : Outcome α :=
  ⟨result, [callTime method]⟩

/-! ## Streams -/

/-- A stream sends messages in turns, at times in milliseconds after the call. -/
structure Stream (α : Type) where
  method : String
  first : Nat
  period : Nat
  turn : Clock → List α

namespace Stream

variable {α : Type}

/-- The times of the turns before the time is up. -/
def times (s : Stream α) (ms : Nat) : List Nat :=
  if s.period = 0 then []
  else
    (List.range ((ms - s.first + s.period - 1) / s.period)).map fun k => s.first + k * s.period

/-- What arrives before the caller drops the stream, which ends the call. -/
def receive (s : Stream α) (clock : Clock) (ms : Nat) : List (Nat × α) × List Metrics.Event :=
  ((s.times ms).flatMap fun t => (s.turn clock).map fun message => (t, message), [callTime s.method])

end Stream

end AgentMesh.Service
