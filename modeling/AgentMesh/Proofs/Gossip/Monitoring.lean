import AgentMesh.Proofs.Gossip.ChangeLog
import AgentMesh.Proofs.Gossip.Session
import AgentMesh.Proofs.Metrics.Counting
import Mathlib.Algebra.Order.Ring.Int

/-!
# A node under observation

A collector takes down what a node reports. The reports of a whole message or round come after its changes, and only
some of them move the gauge; even so the gauge shows how many members are live, and the joins outnumber the departures
by the number of peers.
-/

namespace AgentMesh.Gossip

open Metrics

/-! ## What a log counts -/

section Counting

variable {s : Finset String} {log : List (String × Outcome)}

def joins (log : List (String × Outcome)) : Nat :=
  log.countP fun e => e.2 = .joined

def departures (log : List (String × Outcome)) : Nat :=
  log.countP fun e => e.2 = .left

/-- In a consistent log every join brings one member more and every departure one less. -/
theorem Consistent.card (h : Consistent s log) :
    (log.foldl follow s).card + departures log = s.card + joins log := by
  induction log generalizing s with
  | nil => rfl
  | cons e log ih =>
      obtain ⟨n, o⟩ := e
      obtain ⟨hturns, hlog⟩ := h
      have ih := ih hlog
      simp only [joins, departures, List.foldl_cons, List.countP_cons] at ih ⊢
      cases o with
      | joined =>
          have hcard : (follow s (n, .joined)).card = s.card + 1 := Finset.card_insert_of_notMem hturns.1
          simp only [reduceCtorEq, decide_true, decide_false, Bool.false_eq_true, ↓reduceIte]
          omega
      | left =>
          have hcard : (follow s (n, .left)).card + 1 = s.card := Finset.card_erase_add_one hturns.1
          simp only [reduceCtorEq, decide_true, decide_false, Bool.false_eq_true, ↓reduceIte]
          omega
      | _ =>
          simp only [reduceCtorEq, decide_false, Bool.false_eq_true, ↓reduceIte]
          exact ih

theorem foldl_follow_of_quiet (h : ∀ e ∈ log, e.2 ≠ .joined ∧ e.2 ≠ .left) : log.foldl follow s = s := by
  induction log with
  | nil => rfl
  | cons e log ih =>
      obtain ⟨n, o⟩ := e
      have hquiet := h (n, o) List.mem_cons_self
      rw [List.foldl_cons, show follow s (n, o) = s by cases o <;> simp_all [follow]]
      exact ih fun e he => h e (List.mem_cons_of_mem _ he)

end Counting

namespace Membership

/-! ## What is reported of a log -/

variable {live : Nat} {log : List (String × Outcome)}

theorem report_cons (e : String × Outcome) : report live (e :: log) = outcomeEvents live e.2 ++ report live log := rfl

theorem count_join_report : (report live log).count (.message incoming "join") = joins log := by
  induction log with
  | nil => rfl
  | cons e log ih =>
      rw [report_cons, List.count_append, ih, joins, joins, List.countP_cons]
      cases e.2 <;> simp [outcomeEvents, incoming, Nat.add_comm]

theorem count_leave_report : (report live log).count (.message incoming "leave") = departures log := by
  induction log with
  | nil => rfl
  | cons e log ih =>
      rw [report_cons, List.count_append, ih, departures, departures, List.countP_cons]
      cases e.2 <;> simp [outcomeEvents, incoming, Nat.add_comm]

theorem connections_mem_report {count : Nat} :
    .connections count ∈ report live log ↔ count = live ∧ ∃ e ∈ log, e.2 = .joined ∨ e.2 = .left := by
  have hevents (o : Outcome) :
      .connections count ∈ outcomeEvents live o ↔ count = live ∧ (o = .joined ∨ o = .left) := by
    cases o <;> simp [outcomeEvents]
  simp only [report, List.mem_flatMap, hevents]
  constructor
  · rintro ⟨e, he, rfl, ho⟩
    exact ⟨rfl, e, he, ho⟩
  · rintro ⟨rfl, e, he, ho⟩
    exact ⟨e, he, rfl, ho⟩

/-- After a report the gauge is right, if it was, or if some member joined or left. -/
theorem connections_report {c : Collector} {s s' : Finset String} (hlog : log.foldl follow s = s')
    (hc : c.connections = s.card + 1) (hlive : live = s'.card + 1) :
    (c.recordAll (report live log)).connections = live := by
  rw [Collector.connections_recordAll fun count hcount => (connections_mem_report.mp hcount).1]
  split
  · rfl
  · rename_i hquiet
    have hsame : log.foldl follow s = s := foldl_follow_of_quiet fun e he => by
      constructor <;> intro ho <;> exact hquiet (connections_mem_report.mpr ⟨rfl, e, he, by simp [ho]⟩)
    rw [hc, hlive, ← hlog, hsame]

end Membership

namespace Table

variable {t : Table}

theorem mergeAll_logs (t : Table) (rs : List MemberRecord) (now : Nat) :
    t.Logs (rs.map (.merge · now)) (t.mergeAll rs now).2 := by
  induction rs generalizing t with
  | nil => exact .nil t
  | cons r rs ih => exact .cons [(r.name, (t.merge r now).2)] (.refl _) (ih (t.merge r now).1)

theorem absorb_logs (t : Table) (m : Message) (now : Nat) : t.Logs (m.ops now) (Membership.absorb t m now).2 := by
  cases m with
  | join s => exact .cons [] (.refl _) (mergeAll_logs (t.forget s.name) [s] now)
  | _ => exact mergeAll_logs t _ now

theorem tick_logs (t : Table) (now suspectAfter deadAfter ttl : Nat) :
    t.Logs [.act .beat, .act (.tick now suspectAfter deadAfter), .act (.purge now ttl)]
      (t.beat.tick now suspectAfter deadAfter).2 := by
  have hpurge (t : Table) : t.Logs [.act (.purge now ttl)] [] := .cons [] (.refl _) (.nil _)
  have htick (t : Table) : t.Logs [.act (.tick now suspectAfter deadAfter), .act (.purge now ttl)]
      (t.tick now suspectAfter deadAfter).2 := by
    have h := Logs.cons _ (.refl (t.reports (.act (.tick now suspectAfter deadAfter)))) (hpurge _)
    rwa [List.append_nil] at h
  exact .cons [] (.refl _) (htick t.beat)

theorem listed_run_acts (hw : t.WellFormed) {acts : List Act}
    (h : ∀ now suspectAfter deadAfter, .tick now suspectAfter deadAfter ∉ acts) :
    (t.run (acts.map .act)).listed = t.listed := by
  induction acts generalizing t with
  | nil => rfl
  | cons a acts ih =>
      have hrest := ih (hw.act a) fun now suspectAfter deadAfter hmem =>
        h now suspectAfter deadAfter (List.mem_cons_of_mem _ hmem)
      refine hrest.trans (listed_act hw fun now suspectAfter deadAfter ha => ?_)
      exact h now suspectAfter deadAfter (ha ▸ List.mem_cons_self)

theorem liveCount_of_live (h : t.self.state.isLive = true) : t.liveCount = t.listed.card + 1 := by
  rw [liveCount, if_pos h, card_listed]

end Table

theorem Membership.receive_of_decode {m : Membership} {net : Network} {source : Net.SocketAddr} {payload : ByteArray}
    {msg : Message} {now : Nat} (htasks : m.life.tasks ≠ 0) (h : Message.decode? payload = some msg) :
    m.receive net ⟨source, payload⟩ now = m.handle net msg source now := by
  rw [receive, if_neg htasks, h]

/-! ## A node and its collector -/

/-- A start of the node has been completed, and the node was not stopped. -/
def Membership.Settled (m : Membership) : Prop :=
  m.life.phase = .joined ∨ m.life.phase = .standalone

/-- Entering a start does not complete one. -/
theorem Membership.settled_of_beginStart {m : Membership} {bound : Option Net.SocketAddr}
    (h : (m.beginStart bound).1.Settled) : m.Settled := by
  cases he : m.life.enter with
  | error e => simpa only [beginStart, he] using h
  | ok life =>
      exfalso
      obtain ⟨hcreated, rfl⟩ := Lifecycle.enter_eq_ok_iff.mp he
      cases bound with
      | none => simp [beginStart, he, Settled, Lifecycle.bindFailed] at h
      | some addr => simp [beginStart, he, Settled, Lifecycle.install] at h

structure Monitored where
  node : Membership
  collector : Collector

/-- What may happen to a node: a deed, a datagram, or a call that takes in what arrives until it ends. -/
inductive Occasion
  | deed (d : Deed)
  | arrival (a : Arrival) (now : Nat)
  | start (pick : Sampler) (seeds : List String) (bound : Option Net.SocketAddr) (arrivals : List Arrival) (now : Nat)
  | join (seeds : List String) (arrivals : List Arrival) (now : Nat)

namespace Monitored

def take (s : Monitored) (r : Membership × Output) : Monitored :=
  ⟨r.1, s.collector.recordAll r.2.events⟩

def step (net : Network) (s : Monitored) : Occasion → Monitored
  | .deed d => s.take (s.node.perform net d)
  | .arrival a now => s.take (s.node.receive net a now)
  | .start pick seeds bound arrivals now =>
      s.take ((s.node.start net pick seeds bound arrivals now).1,
        (s.node.start net pick seeds bound arrivals now).2.2)
  | .join seeds arrivals now =>
      s.take ((s.node.join net seeds arrivals now).1, (s.node.join net seeds arrivals now).2.2)

def run (net : Network) (s : Monitored) (os : List Occasion) : Monitored :=
  os.foldl (step net) s

@[simp] theorem run_cons (net : Network) (s : Monitored) (o : Occasion) (os : List Occasion) :
    run net s (o :: os) = run net (step net s o) os := rfl

theorem step_arrival_of_decode {net : Network} {s : Monitored} {a : Arrival} {msg : Message} {now : Nat}
    (htasks : s.node.life.tasks ≠ 0) (h : Message.decode? a.payload = some msg) :
    step net s (.arrival a now) = s.take (s.node.handle net msg a.source now) :=
  congrArg s.take (Membership.receive_of_decode htasks h)

/-- The collector shows how many members are live, and counts one join more than departures for each peer. -/
structure Mirrored (s : Monitored) : Prop where
  gauge : s.collector.connections = s.node.table.liveCount
  counts : (s.collector.messageCount incoming "join" : Int) - s.collector.messageCount incoming "leave" =
    s.node.table.liveCount - 1

/-! ## What every occasion keeps -/

structure Tracks (s : Monitored) : Prop where
  wellFormed : s.node.table.WellFormed
  live : s.node.table.self.state.isLive = true
  counts : s.collector.messageCount incoming "join" =
    s.collector.messageCount incoming "leave" + s.node.table.listed.card
  gauge : s.node.Settled → s.collector.connections = s.node.table.listed.card + 1

variable {s : Monitored} {net : Network}

theorem Tracks.mirrored (h : s.Tracks) (hsettled : s.node.Settled) : s.Mirrored where
  gauge := by rw [h.gauge hsettled, Table.liveCount_of_live h.live]
  counts := by
    rw [h.counts, Table.liveCount_of_live h.live]
    push_cast
    omega

theorem take_append (s : Monitored) (m m' : Membership) (out rest : Output) :
    s.take (m', out ++ rest) = (s.take (m, out)).take (m', rest) := by
  simp only [take]
  rw [← Collector.recordAll_append]
  rfl

theorem take_sent (s : Monitored) (m : Membership) (out : Output) (sent : List Datagram) :
    s.take (m, out ++ { datagrams := sent }) = s.take (m, out) :=
  take_append s m m out { datagrams := sent }

theorem sent_take (s : Monitored) (m : Membership) (out : Output) (sent : List Datagram) :
    s.take (m, { datagrams := sent } ++ out) = s.take (m, out) := rfl

/-- A node takes in news and reports them. -/
theorem Tracks.news (h : s.Tracks) {ops : List Op} {log : List (String × Outcome)}
    (hlog : s.node.table.Logs ops log) (hstay : .act .leave ∉ ops) {r : Membership × Output}
    (htable : r.1.table = s.node.table.run ops) (hlife : r.1.life = s.node.life)
    (hevents : r.2.events = Membership.report r.1.table.liveCount log) : (s.take r).Tracks := by
  obtain ⟨hconsistent, hlisted⟩ := hlog.consistent h.wellFormed
  have hcard := hconsistent.card
  rw [hlisted, ← htable] at hcard
  have hlive : r.1.table.self.state.isLive = true := by rw [htable, Table.state_run hstay, h.live]
  refine ⟨htable ▸ h.wellFormed.run ops, hlive, ?_, fun hsettled => ?_⟩
  · have hcounts := h.counts
    simp only [take, Collector.messageCount_recordAll, hevents, Membership.count_join_report,
      Membership.count_leave_report]
    omega
  · have hold : s.node.Settled := by rwa [Membership.Settled, ← hlife]
    simp only [take, hevents, Table.liveCount_of_live hlive]
    exact Membership.connections_report hlisted (h.gauge hold) (by rw [htable])

/-- Events that say nothing of members. -/
def Silent (events : List Metrics.Event) : Prop :=
  ∀ e ∈ events, (∀ kind, e ≠ .message incoming kind) ∧ ∀ count, e ≠ .connections count

theorem Silent.append {events events' : List Metrics.Event} (h : Silent events) (h' : Silent events') :
    Silent (events ++ events') := fun e he => (List.mem_append.mp he).elim (h e) (h' e)

theorem messageCount_of_silent {events : List Metrics.Event} (h : Silent events) (c : Collector) (kind : String) :
    (c.recordAll events).messageCount incoming kind = c.messageCount incoming kind := by
  rw [Collector.messageCount_recordAll, List.count_eq_zero.mpr fun hmem => (h _ hmem).1 kind rfl, Nat.add_zero]

theorem connections_of_silent {events : List Metrics.Event} (h : Silent events) (c : Collector) :
    (c.recordAll events).connections = c.connections := by
  have hnone (count : Nat) : .connections count ∉ events := fun hmem => (h _ hmem).2 count rfl
  rw [Collector.connections_recordAll fun count hmem => absurd hmem (hnone count)]
  exact if_neg (hnone 0)

/-- A node does something that concerns its life or its own record alone. -/
theorem Tracks.quiet (h : s.Tracks) (acts : List Act) (hstay : .leave ∉ acts)
    (hquiet : ∀ now suspectAfter deadAfter, .tick now suspectAfter deadAfter ∉ acts) {r : Membership × Output}
    (htable : r.1.table = s.node.table.run (acts.map .act)) (hsettled : r.1.Settled → s.node.Settled)
    (hsilent : Silent r.2.events) : (s.take r).Tracks := by
  have hlisted := Table.listed_run_acts h.wellFormed hquiet
  refine ⟨htable ▸ h.wellFormed.run _, ?_, ?_, fun hnow => ?_⟩
  · simp only [take, htable]
    rw [Table.state_run (by simpa using hstay), h.live]
  · simp only [take, htable, hlisted, messageCount_of_silent hsilent, h.counts]
  · simp only [take, htable, hlisted, connections_of_silent hsilent, h.gauge (hsettled hnow)]

theorem Tracks.start (h : s.Tracks) (net : Network) (bound : Option Net.SocketAddr) :
    (s.take (s.node.perform net (.start bound))).Tracks := by
  refine h.quiet (Deed.acts s.node (.start bound)) ?_ ?_ (Membership.table_perform _ _ _) ?_ ?_
  · simp only [Deed.acts]
    split <;> simp
  · simp only [Deed.acts]
    split <;> simp
  · exact Membership.settled_of_beginStart
  · simp only [Membership.perform, Membership.beginStart]
    split
    · simp [Silent]
    · split
      · simp [Silent, incoming, outgoing]
      · split <;> simp [Silent]

theorem Tracks.settle (h : s.Tracks) (net : Network) (joined : Option Bool) (nanos : Nat) :
    (s.take (s.node.perform net (.settle joined nanos))).Tracks := by
  obtain ⟨words, hwords, hevents⟩ : ∃ words, Silent words ∧
      (s.node.finishStart joined nanos).2.events = words ++ [.connections s.node.table.liveCount] := by
    have hlast : Silent [.message outgoing "start_success", .latency "local" "network_start" nanos] := by
      simp [Silent, incoming, outgoing]
    have hword (kind : String) : Silent [.message outgoing kind] := by simp [Silent, incoming, outgoing]
    cases joined with
    | none => exact ⟨_, hlast, rfl⟩
    | some b =>
        cases b with
        | false => exact ⟨_, (hword "join_cluster_failed").append hlast, rfl⟩
        | true => exact ⟨_, (hword "join_cluster_success").append hlast, rfl⟩
  refine ⟨h.wellFormed, h.live, ?_, fun _ => ?_⟩
  · have hkept (kind : String) :
        (s.take (s.node.perform net (.settle joined nanos))).collector.messageCount incoming kind =
          s.collector.messageCount incoming kind := by
      simp only [take, Membership.perform, hevents, Collector.recordAll_append]
      exact messageCount_of_silent hwords s.collector kind
    rw [hkept, hkept, h.counts]
    rfl
  · simp only [take, Membership.perform, hevents, Collector.recordAll_append]
    exact Table.liveCount_of_live h.live

theorem Tracks.deed (h : s.Tracks) (net : Network) (d : Deed) (hleave : d ≠ .leave) (hstop : d ≠ .stop) :
    (s.take (s.node.perform net d)).Tracks := by
  cases d with
  | start bound => exact h.start net bound
  | settle joined nanos => exact h.settle net joined nanos
  | join seeds now =>
      have hnode : (s.node.join net seeds [] now).1 = s.node := by
        simp only [Membership.join]
        split <;> rfl
      have hevents : (s.node.join net seeds [] now).2.2.events = [] := by
        simp only [Membership.join]
        split <;> rfl
      exact h.quiet [] (by simp) (by simp) (congrArg _ hnode) (fun hs => hnode ▸ hs)
        (by simp [Membership.perform, hevents, Silent])
  | round pick now =>
      refine h.news (Table.tick_logs _ _ _ _ _) (by simp) rfl rfl rfl
  | leave => exact absurd rfl hleave
  | setProfile pick profile =>
      exact h.quiet [.setProfile profile] (by simp) (by simp) rfl id
        (by simp [Membership.perform, Membership.updateProfile, Silent])
  | stop => exact absurd rfl hstop

theorem Tracks.handle (h : s.Tracks) (net : Network) (msg : Message) (source : Net.SocketAddr) (now : Nat) :
    (s.take (s.node.handle net msg source now)).Tracks := by
  by_cases hown : msg.sender.name = s.node.config.nodeId
  · rw [Membership.handle, if_pos hown]
    exact h
  · refine h.news (Table.absorb_logs s.node.table (msg.withSenderAddr source) now) (Message.leave_not_mem_ops _ _)
      ?_ ?_ ?_
    · rw [Membership.table_handle_eq_run, if_neg hown]
    · simp only [Membership.handle, if_neg hown]
    · simp only [Membership.handle, if_neg hown]

theorem Tracks.receive (h : s.Tracks) (net : Network) (a : Arrival) (now : Nat) :
    (s.take (s.node.receive net a now)).Tracks := by
  simp only [Membership.receive]
  split
  · exact h
  · split
    · exact h
    · exact h.handle net _ _ _

theorem Tracks.receiveAll (h : s.Tracks) (net : Network) (arrivals : List Arrival) (now : Nat) :
    (s.take (s.node.receiveAll net arrivals now)).Tracks := by
  induction arrivals generalizing s with
  | nil => exact h
  | cons a as ih =>
      have hrest := ih (h.receive net a now)
      have hstep : s.node.receiveAll net (a :: as) now =
          (((s.node.receive net a now).1.receiveAll net as now).1,
            (s.node.receive net a now).2 ++ ((s.node.receive net a now).1.receiveAll net as now).2) := rfl
      rw [hstep, take_append s (s.node.receive net a now).1]
      exact hrest

/-- A whole start is its sections with a round and the arrivals between them. -/
theorem Tracks.wholeStart (h : s.Tracks) (net : Network) (pick : Sampler) (seeds : List String)
    (bound : Option Net.SocketAddr) (arrivals : List Arrival) (now : Nat) :
    (s.step net (.start pick seeds bound arrivals now)).Tracks := by
  have hbegun := h.start net bound
  rcases hb : s.node.beginStart bound with ⟨m, ⟨e⟩ | ⟨⟩, out⟩
  · simpa only [step, Membership.start, Membership.perform, hb] using hbegun
  · have hbegun : (s.take (m, out)).Tracks := by simpa only [Membership.perform, hb] using hbegun
    have hround := hbegun.deed net (.round pick now) (by simp) (by simp)
    have hheard := hround.receiveAll net arrivals now
    have hsettled := hheard.settle net
    simp only [step, Membership.start, hb]
    rw [take_append s ((m.round net pick now).1.receiveAll net arrivals now).1, take_append s (m.round net pick now).1,
      take_append s m, take_sent]
    exact hsettled _ 0

theorem Tracks.step (h : s.Tracks) (net : Network) (o : Occasion) (hleave : o ≠ .deed .leave)
    (hstop : o ≠ .deed .stop) : (s.step net o).Tracks := by
  cases o with
  | deed d => exact h.deed net d (fun hd => hleave (hd ▸ rfl)) fun hd => hstop (hd ▸ rfl)
  | arrival a now => exact h.receive net a now
  | start pick seeds bound arrivals now => exact h.wholeStart net pick seeds bound arrivals now
  | join seeds arrivals now =>
      have hheard := h.receiveAll net arrivals now
      simp only [Monitored.step, Membership.join]
      split
      · exact h
      · rw [sent_take]
        exact hheard

theorem Tracks.run (h : s.Tracks) (net : Network) {os : List Occasion} (hleave : .deed .leave ∉ os)
    (hstop : .deed .stop ∉ os) : (s.run net os).Tracks := by
  induction os generalizing s with
  | nil => exact h
  | cons o os ih =>
      rw [List.mem_cons, not_or] at hleave hstop
      exact ih (h.step net o (Ne.symm hleave.1) (Ne.symm hstop.1)) hleave.2 hstop.2

theorem tracks_create {c : Config} {m : Membership} (hcreate : Membership.create c = .ok m) (id : String) :
    (⟨m, { nodeId := id }⟩ : Monitored).Tracks := by
  simp only [Membership.create] at hcreate
  split at hcreate
  · cases hcreate
  · cases hcreate
    refine ⟨Table.new_wellFormed _, rfl, ?_, fun hsettled => ?_⟩
    · rw [Table.card_listed]
      rfl
    · simp [Membership.Settled] at hsettled

/--
Before a node leaves or stops, once its start has been completed, its collector shows how many members are live, and has
counted as many joins more than departures as there are other members.
-/
theorem collector_mirrors {c : Config} {m : Membership} (hcreate : Membership.create c = .ok m) (id : String)
    (net : Network) {os : List Occasion} (hleave : .deed .leave ∉ os) (hstop : .deed .stop ∉ os)
    (hsettled : ((⟨m, { nodeId := id }⟩ : Monitored).run net os).node.Settled) :
    ((⟨m, { nodeId := id }⟩ : Monitored).run net os).Mirrored :=
  ((tracks_create hcreate id).run net hleave hstop).mirrored hsettled

/-- A join request, with every record as the list of its fields. -/
def samplePayload : ByteArray :=
  "[\"join\",[\"n\",\"0.0.0.0:7946\",8080,[[0,0,[],0,0],\"online\"],0,0,\"alive\"]]".toUTF8

theorem decode_samplePayload : Message.decode? samplePayload = some Mesh.sampleJoin := by
  decide +kernel

def sampleOccasions : List Occasion :=
  [.start .first [] (some Mesh.sampleBound) [] 0,
    .arrival ⟨Mesh.sampleHome true, samplePayload⟩ 10,
    .deed (.round .first 5010), .deed (.round .first 15010)]

def sampleOpened : Monitored :=
  step .literal ⟨Mesh.sampleNodes false, { nodeId := "a" }⟩
    (.start .first [] (some Mesh.sampleBound) [] 0)

theorem step_samplePayload : step .literal sampleOpened (.arrival ⟨Mesh.sampleHome true, samplePayload⟩ 10) =
    sampleOpened.take (sampleOpened.node.handle .literal Mesh.sampleJoin (Mesh.sampleHome true) 10) :=
  have htasks : sampleOpened.node.life.tasks ≠ 0 := by decide
  step_arrival_of_decode htasks decode_samplePayload

/-- Another node joins; by the second round after that it is dead. -/
def sampleWatched : Monitored :=
  run .literal ⟨Mesh.sampleNodes false, { nodeId := "a" }⟩ sampleOccasions

theorem sampleWatched_eq : sampleWatched =
    run .literal (sampleOpened.take (sampleOpened.node.handle .literal Mesh.sampleJoin (Mesh.sampleHome true) 10))
      [.deed (.round .first 5010), .deed (.round .first 15010)] := by
  rw [sampleWatched, sampleOccasions, run_cons, run_cons, ← sampleOpened, step_samplePayload]

theorem collector_mirrors_sample :
    Membership.create (Mesh.sampleConfig false) = .ok (Mesh.sampleNodes false) ∧
    .deed .leave ∉ sampleOccasions ∧ .deed .stop ∉ sampleOccasions ∧ sampleWatched.node.Settled ∧
    sampleWatched.collector.messageCount incoming "leave" = 1 ∧ sampleWatched.collector.connections = 1 := by
  have hleave : .deed .leave ∉ sampleOccasions := by simp [sampleOccasions]
  have hstop : .deed .stop ∉ sampleOccasions := by simp [sampleOccasions]
  have hsettled : sampleWatched.node.Settled := by
    rw [sampleWatched_eq]
    exact Or.inr rfl
  have hcounts : sampleWatched.collector.messageCount incoming "leave" = 1 ∧
      sampleWatched.node.table.liveCount = 1 := by
    rw [sampleWatched_eq]
    decide +kernel
  have hcreate := Mesh.create_sampleNodes false
  have hmirrored : sampleWatched.Mirrored := by
    rw [sampleWatched] at hsettled ⊢
    exact collector_mirrors hcreate "a" .literal hleave hstop hsettled
  exact ⟨hcreate, hleave, hstop, hsettled, hcounts.1, hmirrored.gauge.trans hcounts.2⟩

end Monitored

end AgentMesh.Gossip
