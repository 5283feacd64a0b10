import AgentMesh.Metrics.Collector

/-!
# What a collector keeps of some events

A counter grows by the number of its messages among the events, and a gauge shows the last value that it was given.
-/

namespace AgentMesh.Metrics.Collector

theorem messageCount_recordMessage (c : Collector) (direction kind direction' kind' : String) :
    (c.recordMessage direction kind).messageCount direction' kind' =
      c.messageCount direction' kind' + if direction = direction' ∧ kind = kind' then 1 else 0 := by
  simp only [recordMessage, messageCount, Std.ExtTreeMap.getD_insert, Std.compare_eq_iff_eq, Series.mk.injEq]
  split
  · rename_i h
    obtain ⟨rfl, rfl⟩ := h
    rfl
  · rfl

theorem messageCount_record (c : Collector) (e : Event) (direction kind : String) :
    (c.record e).messageCount direction kind =
      c.messageCount direction kind + if e = .message direction kind then 1 else 0 := by
  cases e with
  | message direction' kind' => simp only [record, messageCount_recordMessage, Event.message.injEq]
  | _ => rfl

theorem messageCount_recordAll (c : Collector) (events : List Event) (direction kind : String) :
    (c.recordAll events).messageCount direction kind =
      c.messageCount direction kind + events.count (.message direction kind) := by
  induction events generalizing c with
  | nil => rfl
  | cons e events ih =>
      have hstep : c.recordAll (e :: events) = (c.record e).recordAll events := rfl
      rw [hstep, ih, messageCount_record, List.count_cons]
      simp only [beq_iff_eq]
      omega

theorem connections_record_of_ne {c : Collector} {e : Event} (h : ∀ count, e ≠ .connections count) :
    (c.record e).connections = c.connections := by
  cases e with
  | connections count => exact absurd rfl (h count)
  | _ => rfl

/-- Events that give the gauge no other value than this one leave it at this one, if they give it any. -/
theorem connections_recordAll {c : Collector} {events : List Event} {live : Nat}
    (h : ∀ count, .connections count ∈ events → count = live) :
    (c.recordAll events).connections = if .connections live ∈ events then live else c.connections := by
  induction events generalizing c with
  | nil => rfl
  | cons e events ih =>
      have hstep : c.recordAll (e :: events) = (c.record e).recordAll events := rfl
      rw [hstep, ih fun count hcount => h count (List.mem_cons_of_mem _ hcount)]
      by_cases he : ∃ count, e = .connections count
      · obtain ⟨count, rfl⟩ := he
        obtain rfl := h count List.mem_cons_self
        simp [record]
      · have hne (count : Nat) : e ≠ .connections count := fun hcount => he ⟨count, hcount⟩
        rw [connections_record_of_ne hne]
        simp [Ne.symm (hne live)]

theorem recordAll_append (c : Collector) (events events' : List Event) :
    c.recordAll (events ++ events') = (c.recordAll events).recordAll events' :=
  List.foldl_append

end AgentMesh.Metrics.Collector
