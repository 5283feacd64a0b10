import AgentMesh.Proofs.Metrics.Windows
import AgentMesh.Service.ConsoleCalls
import AgentMesh.Service.DiscoveryCalls
import AgentMesh.Service.NodeCalls
import Mathlib.Data.List.Perm.Basic

/-!
# The time of every call

A call that has ended was timed once, under its method: a unary call when it was answered or refused, a stream when its
caller dropped it. Only a stream of updates that is refused is not timed at all.
-/

namespace AgentMesh.Service

open Metrics Wire

/-! ## Calls -/

/-- A request to one of the three services. -/
inductive Call
  | registerNode (req : RegisterNodeRequest)
  | getResources (req : GetResourcesRequest)
  | processInference (req : InferenceRequest)
  | healthCheck (req : HealthCheckRequest)
  | getPeers (req : GetPeersRequest)
  | getMetrics (req : GetMetricsRequest)
  | streamMetrics (req : StreamMetricsRequest)
  | discoverNodes (req : DiscoveryRequest)
  | registerWithCluster (req : ClusterJoinRequest)
  | leaveCluster (req : ClusterLeaveRequest)
  | getClusterInfo (req : ClusterInfoRequest)
  | getNodeList (req : NodeListRequest)
  | getModelList (req : ModelListRequest)
  | streamUpdates (req : UpdateStreamRequest)
  | executeCommand (req : CommandRequest)

namespace Call

def method : Call → String
  | registerNode _ => "RegisterNode"
  | getResources _ => "GetResources"
  | processInference _ => "ProcessInference"
  | healthCheck _ => "HealthCheck"
  | getPeers _ => "GetPeers"
  | getMetrics _ => "GetMetrics"
  | streamMetrics _ => "StreamMetrics"
  | discoverNodes _ => "DiscoverNodes"
  | registerWithCluster _ => "RegisterWithCluster"
  | leaveCluster _ => "LeaveCluster"
  | getClusterInfo _ => "GetClusterInfo"
  | getNodeList _ => "GetNodeList"
  | getModelList _ => "GetModelList"
  | streamUpdates _ => "StreamUpdates"
  | executeCommand _ => "ExecuteCommand"

/-- What a call is timed under. -/
def series (c : Call) : Series :=
  ⟨"grpc", c.method⟩

/-- Asks for updates of a kind that does not exist. -/
def isRefusedStream : Call → Bool
  | streamUpdates req => !(UpdateKind.parseList req.updateTypes).isOk
  | _ => false

end Call

/-- A call ends with some reports, or opens a stream that ends with some when the caller drops it after a while. -/
inductive Reply
  | ended (events : List Event)
  | opened (drop : Clock → Nat → List Event)

def Server.answer (s : Server) (clock : Clock) : Call → Reply
  | .registerNode req => .ended (s.registerNode req).events
  | .getResources req => .ended (s.getResources req).events
  | .processInference req => .ended (s.processInference req).events
  | .healthCheck req => .ended (s.healthCheck clock req).events
  | .getPeers req => .ended (s.getPeers req).events
  | .getMetrics req => .ended (s.getMetrics clock req).events
  | .streamMetrics req => .opened fun clock ms => ((s.streamMetrics req).receive clock ms).2
  | .discoverNodes req => .ended (s.discoverNodes req).events
  | .registerWithCluster req => .ended (s.registerWithCluster req).events
  | .leaveCluster req => .ended (s.leaveCluster req).events
  | .getClusterInfo req => .ended (s.getClusterInfo req).events
  | .getNodeList req => .ended (s.getNodeList req).events
  | .getModelList req => .ended (s.getModelList req).events
  | .streamUpdates req =>
      match s.streamUpdates req with
      | .error _ => .ended []
      | .ok stream => .opened fun clock ms => (stream.receive clock ms).2
  | .executeCommand req => .ended (s.executeCommand req).events

/-! ## What one call reports -/

/-- Some reports have the time of one call of this series, and no other time. -/
def TimedOnce (key : Series) (events : List Event) : Prop :=
  ∀ key', (durations key' events).length = if key = key' then 1 else 0

theorem timedOnce_callTime (method : String) : TimedOnce ⟨"grpc", method⟩ [callTime method] := by
  intro key
  simp only [durations, callTime, List.filterMap_cons, List.filterMap_nil]
  split <;> simp_all

/-- How a call may be answered: it is refused without its time being taken, it has ended with its time, or it is open
until its time is taken. -/
inductive Timed (c : Call) : Reply → Prop
  | refused : c.isRefusedStream = true → Timed c (.ended [])
  | ended {events} : c.isRefusedStream = false → TimedOnce c.series events → Timed c (.ended events)
  | opened {drop} : c.isRefusedStream = false → (∀ clock ms, TimedOnce c.series (drop clock ms)) →
      Timed c (.opened drop)

theorem Call.isRefusedStream_streamUpdates (req : UpdateStreamRequest) :
    (streamUpdates req).isRefusedStream = !(UpdateKind.parseList req.updateTypes).isOk :=
  rfl

theorem Server.timed_answer (s : Server) (clock : Clock) (c : Call) : Timed c (s.answer clock c) := by
  cases c with
  | processInference req =>
      -- The inference is reported as well, but not as a time.
      exact .ended rfl fun key => timedOnce_callTime "ProcessInference" key
  | streamMetrics req => exact .opened rfl fun clock ms => timedOnce_callTime _
  | streamUpdates req =>
      cases hkinds : UpdateKind.parseList req.updateTypes with
      | error reason =>
          simp only [answer, streamUpdates, hkinds]
          exact .refused (by rw [Call.isRefusedStream_streamUpdates, hkinds]; rfl)
      | ok kinds =>
          simp only [answer, streamUpdates, hkinds]
          refine .opened ?_ fun clock ms => timedOnce_callTime _
          rw [Call.isRefusedStream_streamUpdates, hkinds]
          rfl
  | _ => exact .ended rfl (timedOnce_callTime _)

/-! ## Calls in turns -/

/-- An agent that was called: what was reported, the streams that are open, and the calls that have ended. -/
structure Called where
  events : List Event := []
  streams : List (Call × (Clock → Nat → List Event)) := []
  ended : List Call := []

/-- A call to a server in some state, or the end of an open stream after a while. -/
inductive Turn
  | call (s : Server) (clock : Clock) (c : Call)
  | hangUp (i : Nat) (clock : Clock) (ms : Nat)

def Turn.call? : Turn → Option Call
  | call _ _ c => some c
  | hangUp _ _ _ => none

namespace Called

def step (x : Called) : Turn → Called
  | .call s clock c =>
      match s.answer clock c with
      | .ended events => { x with events := x.events ++ events, ended := x.ended ++ [c] }
      | .opened drop => { x with streams := x.streams ++ [(c, drop)] }
  | .hangUp i clock ms =>
      match x.streams[i]? with
      | none => x
      | some (c, drop) =>
          { events := x.events ++ drop clock ms, streams := x.streams.eraseIdx i, ended := x.ended ++ [c] }

def run (turns : List Turn) : Called :=
  turns.foldl step {}

/-- What every turn keeps: of each series there are as many times as calls that have ended and were not refused a
stream, and every open stream is going to be timed once. -/
structure Tallied (x : Called) : Prop where
  times : ∀ key, (durations key x.events).length = x.ended.countP fun c => c.series = key ∧ !c.isRefusedStream
  streams : ∀ e ∈ x.streams, e.1.isRefusedStream = false ∧ ∀ clock ms, TimedOnce e.1.series (e.2 clock ms)

variable {x : Called}

/-- A call ends, and its time is reported once. -/
theorem Tallied.times_append (h : x.Tallied) {c : Call} (haccepted : c.isRefusedStream = false) {events : List Event}
    (honce : TimedOnce c.series events) (key : Series) :
    (durations key (x.events ++ events)).length =
      (x.ended ++ [c]).countP fun c => c.series = key ∧ !c.isRefusedStream := by
  rw [durations_append, List.length_append, h.times, honce, List.countP_append]
  by_cases hkey : c.series = key <;> simp [hkey, haccepted]

theorem Tallied.step (h : x.Tallied) (t : Turn) : (x.step t).Tallied := by
  cases t with
  | call s clock c =>
      have htimed := s.timed_answer clock c
      simp only [Called.step]
      generalize s.answer clock c = reply at htimed ⊢
      cases htimed with
      | refused hrefused =>
          refine ⟨fun key => ?_, h.streams⟩
          simp only [List.append_nil, h.times, List.countP_append]
          simp [hrefused]
      | ended haccepted honce => exact ⟨h.times_append haccepted honce, h.streams⟩
      | opened haccepted honce =>
          refine ⟨h.times, fun e he => ?_⟩
          rcases List.mem_append.1 he with he | he
          · exact h.streams e he
          · obtain rfl := List.mem_singleton.1 he
            exact ⟨haccepted, honce⟩
  | hangUp i clock ms =>
      simp only [Called.step]
      cases hstream : x.streams[i]? with
      | none => exact h
      | some e =>
          obtain ⟨haccepted, honce⟩ := h.streams e (List.mem_of_getElem? hstream)
          exact ⟨h.times_append haccepted (honce clock ms), fun e' he' => h.streams e' (List.mem_of_mem_eraseIdx he')⟩

theorem tallied_run (turns : List Turn) : (run turns).Tallied := by
  induction turns using List.reverseRecOn with
  | nil => exact ⟨fun _ => rfl, nofun⟩
  | append_singleton turns t ih =>
      rw [run, List.foldl_append]
      exact ih.step t

/-- Every call has either ended or opened a stream that is still open. -/
theorem perm_step (x : Called) (t : Turn) :
    ((x.step t).ended ++ (x.step t).streams.map Prod.fst).Perm
      (x.ended ++ x.streams.map Prod.fst ++ t.call?.toList) := by
  cases t with
  | call s clock c =>
      simp only [step, Turn.call?, Option.toList_some]
      split
      · rw [List.append_assoc, List.append_assoc]
        exact List.perm_append_comm.append_left x.ended
      · simp
  | hangUp i clock ms =>
      simp only [step, Turn.call?, Option.toList_none, List.append_nil]
      split
      · exact .refl _
      · rename_i c drop hstream
        obtain ⟨hi, hstream⟩ := List.getElem?_eq_some_iff.1 hstream
        have htaken := (List.getElem_cons_eraseIdx_perm hi).map Prod.fst
        rw [hstream, List.map_cons] at htaken
        rw [List.append_assoc, List.singleton_append]
        exact htaken.append_left x.ended

theorem perm_run (turns : List Turn) :
    ((run turns).ended ++ (run turns).streams.map Prod.fst).Perm (turns.filterMap Turn.call?) := by
  induction turns using List.reverseRecOn with
  | nil => exact .refl _
  | append_singleton turns t ih =>
      have hrun : run (turns ++ [t]) = (run turns).step t := List.foldl_append
      rw [hrun, List.filterMap_append]
      have hlast : [t].filterMap Turn.call? = t.call?.toList := by cases t <;> rfl
      rw [hlast]
      exact (perm_step _ t).trans (ih.append_right _)

end Called

/--
Whatever is called in whichever state of the agent, and whenever a caller drops a stream: every call has either ended
or opened a stream that is still open. Of each series there are as many times as calls of it that have ended, not
counting the streams of updates that were refused; nothing else is timed. So of every other method there are as many
times as calls that have ended.
-/
theorem ended_calls_are_timed_once (turns : List Turn) :
    ((Called.run turns).ended ++ (Called.run turns).streams.map Prod.fst).Perm (turns.filterMap Turn.call?) ∧
    (∀ key, (durations key (Called.run turns).events).length =
      (Called.run turns).ended.countP fun c => c.series = key ∧ !c.isRefusedStream) ∧
    ∀ method, method ≠ "StreamUpdates" →
      (durations ⟨"grpc", method⟩ (Called.run turns).events).length =
        (Called.run turns).ended.countP fun c => c.method = method := by
  have htallied := Called.tallied_run turns
  refine ⟨Called.perm_run turns, htallied.times, fun method hmethod => ?_⟩
  rw [htallied.times]
  refine List.countP_congr fun c _ => ?_
  have haccepted (h : c.method = method) : c.isRefusedStream = false := by
    cases c with
    | streamUpdates req => exact absurd h.symm hmethod
    | _ => rfl
  simpa [Call.series] using haccepted

/-- A call for updates of a kind that does not exist ends without its time being taken. -/
theorem refused_stream_is_not_timed :
    let turns := [Turn.call ⟨{ localId := "a" }, .greeting "a"⟩ {} (.streamUpdates { updateTypes := ["gpus"] })]
    (Called.run turns).ended.countP (fun c => c.series = ⟨"grpc", "StreamUpdates"⟩) = 1 ∧
    durations ⟨"grpc", "StreamUpdates"⟩ (Called.run turns).events = [] := by
  decide +kernel

end AgentMesh.Service
