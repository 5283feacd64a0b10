import AgentMesh.Metrics.Event
import Std.Data.ExtTreeMap

/-!
# Collecting metrics

A collector keeps the last value of each gauge, a counter for each kind of message, the last 1024
durations of each operation, and sums for each model and outcome. Each of the latter is kept under a pair
of labels and listed in their order.
-/

namespace AgentMesh.Metrics

/-! ## Pairs of labels -/

/-- What a counter, a window or a sum belongs to. -/
structure Series where
  subject : String
  detail : String
deriving Repr, DecidableEq, Inhabited

/-- Series are ordered by subject, then by detail. -/
instance : Ord Series :=
  ⟨compareLex (compareOn Series.subject) (compareOn Series.detail)⟩

instance : Std.TransOrd Series :=
  inferInstanceAs (Std.TransCmp (compareLex (compareOn Series.subject) (compareOn Series.detail)))

instance : Std.LawfulEqOrd Series where
  eq_of_compare := by
    intro a b h
    cases a with
    | mk s d =>
        cases b with
        | mk s' d' =>
            have h : (compare s s').then (compare d d') = .eq := h
            simp only [Ordering.then_eq_eq, Std.compare_eq_iff_eq] at h
            rw [h.1, h.2]

abbrev SeriesMap (α : Type) := Std.ExtTreeMap Series α

/-! ## Windows of durations -/

/-- How many durations are kept of one operation. -/
def windowSize : Nat := 1024

/-- Adds a duration at the end; the oldest one makes room. -/
def pushWindow (window : List Nat) (micros : Nat) : List Nat :=
  window.drop (window.length + 1 - windowSize) ++ [micros]

/-- Whole microseconds, as far as 64 bits hold them. -/
def microseconds (nanos : Nat) : Nat :=
  nanos / 1000 % 18446744073709551616

/-! ## Collectors -/

/-- What is summed up for one model and outcome. -/
structure Inferences where
  requests : Nat := 0
  tokens : Nat := 0
  totalMicros : Nat := 0
deriving Repr, DecidableEq, Inhabited

structure Collector where
  nodeId : String
  status : NodeStatus := .online
  connections : Nat := 0
  cpuCores : Int64 := 0
  memoryMb : Int64 := 0
  gpuCount : Nat := 0
  maxLayers : Int64 := 0
  usedLayers : Int64 := 0
  messages : SeriesMap Nat := ∅
  /-- The oldest duration of each window comes first. -/
  latencies : SeriesMap (List Nat) := ∅
  inferences : SeriesMap Inferences := ∅

namespace Collector

def recordMessage (c : Collector) (direction kind : String) : Collector :=
  let key : Series := ⟨direction, kind⟩
  { c with messages := c.messages.insert key (c.messages.getD key 0 + 1) }

def recordLatency (c : Collector) (target operation : String) (nanos : Nat) : Collector :=
  let key : Series := ⟨target, operation⟩
  let window := pushWindow (c.latencies.getD key []) (microseconds nanos)
  { c with latencies := c.latencies.insert key window }

def recordInference (c : Collector) (model status : String) (nanos tokens : Nat) : Collector :=
  let key : Series := ⟨model, status⟩
  let sum := c.inferences.getD key {}
  let sum := { requests := sum.requests + 1, tokens := sum.tokens + tokens,
               totalMicros := sum.totalMicros + microseconds nanos }
  { c with inferences := c.inferences.insert key sum }

def setResources (c : Collector) (r : Resources) : Collector :=
  { c with cpuCores := r.cpuCores, memoryMb := r.totalMemoryMb, gpuCount := r.gpus.length,
           maxLayers := r.maxLayers.toInt64, usedLayers := r.usedLayers.toInt64 }

def record (c : Collector) : Event → Collector
  | .message direction kind => c.recordMessage direction kind
  | .latency target operation nanos => c.recordLatency target operation nanos
  | .status status => { c with status }
  | .connections count => { c with connections := count }
  | .inference model status nanos tokens => c.recordInference model status nanos tokens
  | .resources resources => c.setResources resources

def recordAll (c : Collector) (events : List Event) : Collector :=
  events.foldl record c

/-- How many messages of a kind were recorded. -/
def messageCount (c : Collector) (direction kind : String) : Nat :=
  c.messages.getD ⟨direction, kind⟩ 0

end Collector

/-! ## Where events go -/

/-- Nobody listens, a collector does, or a journal that keeps every event but resources. -/
inductive Sink
  | none
  | collector (c : Collector)
  | journal (events : List Event)

namespace Sink

def isEnabled : Sink → Bool
  | none => false
  | _ => true

def record : Sink → Event → Sink
  | none, _ => none
  | collector c, e => collector (c.record e)
  | journal events, .resources _ => journal events
  | journal events, e => journal (events ++ [e])

end Sink

end AgentMesh.Metrics
