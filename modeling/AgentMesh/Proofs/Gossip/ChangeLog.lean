import AgentMesh.Proofs.Gossip.Detection
import Mathlib.Data.Finset.Card
import Mathlib.Data.Finset.Dedup
import Mathlib.Data.List.Perm.Basic

/-!
# The log of changes

Whoever only reads what a table reports, and counts a member in when it joined and out when it left, knows at any time
which members are listed. Nobody joins who is listed, and nobody leaves, falls suspect or is updated who is not.
-/

namespace AgentMesh.Gossip

/-- Whether a member is listed after a change, given whether it was. -/
def Outcome.Turns (was is : Prop) : Outcome → Prop
  | joined => ¬ was ∧ is
  | updated => was ∧ is
  | suspected => was ∧ is
  | left => was ∧ ¬ is
  | refuted => is ↔ was
  | unchanged => is ↔ was

/-- Joins and departures that take turns, given whether the member is listed before them. -/
def TakesTurns (listed : Prop) : List Outcome → Prop
  | [] => True
  | .joined :: os => ¬ listed ∧ TakesTurns True os
  | .left :: os => listed ∧ TakesTurns False os
  | _ :: _ => False

/-- The joins and departures of a member. -/
def movesOf (n : String) (log : List (String × Outcome)) : List Outcome :=
  (log.filter fun e => e.1 = n ∧ (e.2 = .joined ∨ e.2 = .left)).map Prod.snd

/-- The members that are listed after a change, to one who only reads the log. -/
def follow (listed : Finset String) : String × Outcome → Finset String
  | (n, .joined) => insert n listed
  | (n, .left) => listed.erase n
  | _ => listed

/-- Every change in the log is one that a member who is listed, or who is not, can make. -/
def Consistent : Finset String → List (String × Outcome) → Prop
  | _, [] => True
  | s, e :: log => e.2.Turns (e.1 ∈ s) (e.1 ∈ follow s e) ∧ Consistent (follow s e) log

/-! ## Reading a log -/

section Reading

variable {s : Finset String} {n m : String} {o : Outcome} {log log' : List (String × Outcome)}

theorem mem_follow_of_ne (h : m ≠ n) : n ∈ follow s (m, o) ↔ n ∈ s := by
  cases o <;> simp [follow, Ne.symm h]

theorem mem_follow_self {is : Prop} (h : o.Turns (n ∈ s) is) : n ∈ follow s (n, o) ↔ is := by
  cases o with
  | joined => simpa [follow] using h.2
  | left => simpa [follow] using h.2
  | updated => exact iff_of_true h.1 h.2
  | suspected => exact iff_of_true h.1 h.2
  | refuted => exact h.symm
  | unchanged => exact h.symm

theorem Consistent.append :
    Consistent s (log ++ log') ↔ Consistent s log ∧ Consistent (log.foldl follow s) log' := by
  induction log generalizing s with
  | nil => simp [Consistent]
  | cons e log ih => simp only [List.cons_append, Consistent, ih, List.foldl_cons, and_assoc]

theorem movesOf_cons_of_ne (h : m ≠ n) : movesOf n ((m, o) :: log) = movesOf n log := by
  simp [movesOf, h]

/-- In a consistent log the joins and departures of each member take turns. -/
theorem Consistent.takesTurns (h : Consistent s log) : TakesTurns (n ∈ s) (movesOf n log) := by
  induction log generalizing s with
  | nil => trivial
  | cons e log ih =>
      obtain ⟨m, o⟩ := e
      obtain ⟨hturns, hlog⟩ := h
      have ih := ih hlog
      by_cases hm : m = n
      · subst hm
        cases o with
        | joined =>
            rw [show movesOf m ((m, .joined) :: log) = .joined :: movesOf m log by simp [movesOf]]
            exact ⟨hturns.1, by simpa [follow] using ih⟩
        | left =>
            rw [show movesOf m ((m, .left) :: log) = .left :: movesOf m log by simp [movesOf]]
            exact ⟨hturns.1, by simpa [follow] using ih⟩
        | _ => simpa [movesOf, follow] using ih
      · rw [movesOf_cons_of_ne hm]
        simpa only [mem_follow_of_ne hm] using ih

/-- If no member is named twice, the order of the changes does not matter. -/
theorem consistent_of_nodup {s' : Finset String} (hnodup : (log.map Prod.fst).Nodup)
    (hnamed : ∀ e ∈ log, e.2.Turns (e.1 ∈ s) (e.1 ∈ s'))
    (hother : ∀ n, n ∉ log.map Prod.fst → (n ∈ s' ↔ n ∈ s)) : Consistent s log ∧ log.foldl follow s = s' := by
  induction log generalizing s with
  | nil => exact ⟨trivial, Finset.ext fun n => (hother n (by simp)).symm⟩
  | cons e log ih =>
      obtain ⟨m, o⟩ := e
      rw [List.map_cons, List.nodup_cons] at hnodup
      have hturns : o.Turns (m ∈ s) (m ∈ s') := hnamed (m, o) List.mem_cons_self
      have hm : m ∈ follow s (m, o) ↔ m ∈ s' := mem_follow_self hturns
      have hrest : Consistent (follow s (m, o)) log ∧ log.foldl follow (follow s (m, o)) = s' := by
        refine ih hnodup.2 (fun e he => ?_) (fun n hn => ?_)
        · have hne : m ≠ e.1 := by
            rintro rfl
            exact hnodup.1 (List.mem_map.mpr ⟨e, he, rfl⟩)
          rw [mem_follow_of_ne hne]
          exact hnamed e (List.mem_cons_of_mem _ he)
        · by_cases hne : m = n
          · subst hne
            exact hm.symm
          · rw [mem_follow_of_ne hne]
            exact hother n (by simpa [Ne.symm hne] using hn)
      refine ⟨⟨?_, hrest.1⟩, hrest.2⟩
      rwa [propext hm]

end Reading

/-! ## What a step reports -/

namespace Standing

/-- What news do to a member is what their outcome says. -/
theorem turns_hear (k : Standing) (r : MemberRecord) (now : Nat) :
    (k.hear r now).2.Turns (∃ p, k = listed p) (∃ p, (k.hear r now).1 = listed p) := by
  cases k with
  | unknown => by_cases hl : r.state.isLive <;> simp [hear, first, hl, Outcome.Turns]
  | listed p =>
      by_cases hs : r.supersedes p.record
      · by_cases hl : r.state.isLive
        · simp only [hear, hs, hl, Bool.not_true, Bool.false_eq_true, ↓reduceIte]
          split <;> exact ⟨⟨_, rfl⟩, _, rfl⟩
        · simp [hear, hs, hl, Outcome.Turns]
      · simp [hear, hs, Outcome.Turns]
  | buried s =>
      by_cases hi : r.incarnation ≤ s.record.incarnation
      · simp [hear, hi, Outcome.Turns]
      · by_cases hl : r.state.isLive <;> simp [hear, hi, first, hl, Outcome.Turns]

theorem hear_ne_refuted (k : Standing) (r : MemberRecord) (now : Nat) : (k.hear r now).2 ≠ .refuted := by
  have hfirst : (first r now).2 ≠ .refuted := by
    simp only [first]
    split <;> simp
  cases k with
  | unknown => exact hfirst
  | listed p =>
      simp only [hear]
      split
      · simp
      · split
        · simp
        · split <;> simp
  | buried s =>
      simp only [hear]
      split
      · simp
      · exact hfirst

end Standing

namespace Table

variable {t : Table} {n : String} {o : Outcome}

/-- The names of the live peers. -/
def listed (t : Table) : Finset String :=
  t.peers.keys.toFinset

theorem mem_listed : n ∈ t.listed ↔ n ∈ t.peers := by
  rw [listed, List.mem_toFinset, Std.ExtTreeMap.mem_keys]

theorem card_listed (t : Table) : t.listed.card = t.peers.size := by
  rw [listed, List.toFinset_card_of_nodup (keys_nodup _), Std.ExtTreeMap.length_keys]

theorem WellFormed.mem_listed (hw : t.WellFormed) : n ∈ t.listed ↔ ∃ p, t.standing n = .listed p := by
  rw [Table.mem_listed, hw.mem_peers]

/-- What a step reports. -/
def reports (t : Table) : Op → List (String × Outcome)
  | .merge r now => [(r.name, (t.merge r now).2)]
  | .act (.tick now suspectAfter deadAfter) => (t.tick now suspectAfter deadAfter).2
  | .act _ => []

theorem names_tick (t : Table) (now suspectAfter deadAfter : Nat) :
    (t.tick now suspectAfter deadAfter).2.map Prod.fst =
      (t.peers.filter fun _ p => p.fallsSuspect now suspectAfter).keys ++
        (t.peers.filter fun _ p => p.dies now suspectAfter deadAfter).keys := by
  simp [tick, Function.comp_def]

/-- A tick takes nobody further than one state. -/
theorem nodup_names_tick (t : Table) (now suspectAfter deadAfter : Nat) :
    ((t.tick now suspectAfter deadAfter).2.map Prod.fst).Nodup := by
  rw [names_tick, List.nodup_append]
  refine ⟨keys_nodup _, keys_nodup _, ?_⟩
  rintro n hfallen _ hdead rfl
  obtain ⟨p, hp, hfalls⟩ := mem_keys_filter.mp hfallen
  obtain ⟨q, hq, hdies⟩ := mem_keys_filter.mp hdead
  rw [hp, Option.some.injEq] at hq
  subst hq
  simp only [Peer.fallsSuspect, Peer.dies, Bool.and_eq_true, beq_iff_eq] at hfalls hdies
  rw [hfalls.1] at hdies
  cases hdies.1.1

theorem nodup_names_reports (t : Table) (op : Op) : ((t.reports op).map Prod.fst).Nodup := by
  cases op with
  | act a =>
      cases a with
      | tick now suspectAfter deadAfter => exact nodup_names_tick t now suspectAfter deadAfter
      | _ => exact List.nodup_nil
  | merge r now => exact List.nodup_singleton _

theorem turns_tick (hw : t.WellFormed) {now suspectAfter deadAfter : Nat}
    (h : (n, o) ∈ (t.tick now suspectAfter deadAfter).2) :
    o.Turns (n ∈ t.listed) (n ∈ (t.act (.tick now suspectAfter deadAfter)).listed) := by
  have hcases : o = .suspected ∨ o = .left := by
    simp only [tick, List.mem_append, List.mem_map, Prod.mk.injEq] at h
    rcases h with ⟨_, _, _, rfl⟩ | ⟨_, _, _, rfl⟩
    · exact Or.inl rfl
    · exact Or.inr rfl
  rw [hw.mem_listed, (hw.act _).mem_listed, standing_act hw]
  rcases hcases with rfl | rfl
  · obtain ⟨p, hp, hfalls⟩ := suspected_mem_tick.mp h
    have halive : p.record.state = .alive := by
      simp only [Peer.fallsSuspect, Bool.and_eq_true, beq_iff_eq] at hfalls
      exact hfalls.1
    have hdies : p.dies now suspectAfter deadAfter = false := by simp [Peer.dies, halive]
    simp [hw.peer_iff.mp hp, Act.onStanding, Standing.ripen, hdies, Outcome.Turns]
  · obtain ⟨p, hp, hdies⟩ := left_mem_tick.mp h
    simp [hw.peer_iff.mp hp, Act.onStanding, Standing.ripen, hdies, Outcome.Turns]

/-- Whether a member is listed before and after a step is as the step reports. -/
theorem turns_reports (hw : t.WellFormed) {op : Op} (h : (n, o) ∈ t.reports op) :
    o.Turns (n ∈ t.listed) (n ∈ (t.apply op).listed) := by
  cases op with
  | act a =>
      cases a with
      | tick now suspectAfter deadAfter => exact turns_tick hw h
      | _ => cases h
  | merge r now =>
      obtain ⟨rfl, rfl⟩ := Prod.mk.inj (List.mem_singleton.mp h)
      rw [hw.mem_listed, (hw.apply _).mem_listed]
      by_cases hself : r.name = t.self.name
      · rw [show (t.apply (.merge r now)).standing = t.standing from standing_merge_self hself now,
          merge_self_eq hself]
        split <;> exact Iff.rfl
      · rw [outcome_merge hw hself, apply, standing_merge hw, if_pos ⟨rfl, hself⟩]
        exact Standing.turns_hear _ r now

/-- Only the node itself refutes. -/
theorem name_of_refuted (hw : t.WellFormed) {op : Op} (h : (n, .refuted) ∈ t.reports op) : n = t.self.name := by
  cases op with
  | act a =>
      cases a with
      | tick now suspectAfter deadAfter =>
          simp [reports, tick] at h
      | _ => cases h
  | merge r now =>
      obtain ⟨rfl, hout⟩ := Prod.mk.inj (List.mem_singleton.mp h)
      by_contra hself
      rw [outcome_merge hw hself] at hout
      exact Standing.hear_ne_refuted _ r now hout.symm

theorem listed_onStanding_of_not_tick {a : Act} (h : ∀ now suspectAfter deadAfter, a ≠ .tick now suspectAfter deadAfter)
    (k : Standing) : (∃ p, a.onStanding n k = .listed p) ↔ ∃ p, k = .listed p := by
  cases a with
  | tick now suspectAfter deadAfter => exact absurd rfl (h now suspectAfter deadAfter)
  | purge now ttl =>
      cases k with
      | buried s => simp only [Act.onStanding, Standing.expire]; split <;> simp
      | _ => exact Iff.rfl
  | forget m =>
      cases k with
      | buried s => simp only [Act.onStanding, Standing.pardon]; split <;> simp
      | _ => simp [Act.onStanding, Standing.pardon]
  | _ => exact Iff.rfl

theorem listed_act (hw : t.WellFormed) {a : Act}
    (h : ∀ now suspectAfter deadAfter, a ≠ .tick now suspectAfter deadAfter) : (t.act a).listed = t.listed := by
  ext n
  rw [(hw.act a).mem_listed, hw.mem_listed, standing_act hw]
  exact listed_onStanding_of_not_tick h _

/-- Who is listed does not change unless a step reports it. -/
theorem mem_listed_apply (hw : t.WellFormed) {op : Op} (h : n ∉ (t.reports op).map Prod.fst) :
    n ∈ (t.apply op).listed ↔ n ∈ t.listed := by
  rw [(hw.apply op).mem_listed, hw.mem_listed]
  cases op with
  | act a =>
      rw [apply, standing_act hw]
      cases a with
      | tick now suspectAfter deadAfter =>
          cases hk : t.standing n with
          | listed p =>
              have hdies : p.dies now suspectAfter deadAfter = false := by
                by_contra hdies
                refine h (List.mem_map.mpr ⟨(n, .left), left_mem_tick.mpr ⟨p, hw.peer_iff.mpr hk, ?_⟩, rfl⟩)
                simpa using hdies
              simp [Act.onStanding, Standing.ripen, hdies]
          | _ => exact Iff.rfl
      | _ => exact listed_onStanding_of_not_tick (by simp) _
  | merge r now =>
      have hne : ¬ (r.name = n ∧ n ≠ t.self.name) := fun hn => h (by simp [reports, hn.1])
      rw [apply, standing_merge hw, if_neg hne]

theorem consistent_step (hw : t.WellFormed) {op : Op} {news : List (String × Outcome)}
    (h : news.Perm (t.reports op)) : Consistent t.listed news ∧ news.foldl follow t.listed = (t.apply op).listed := by
  have hnames : (news.map Prod.fst).Perm ((t.reports op).map Prod.fst) := h.map _
  refine consistent_of_nodup (hnames.nodup_iff.mpr (nodup_names_reports t op)) (fun e he => ?_) fun n hn => ?_
  · exact turns_reports hw (h.mem_iff.mp he)
  · exact mem_listed_apply hw fun hmem => hn (hnames.mem_iff.mpr hmem)

/-! ## The log of a run -/

/-- A log of a run holds what its steps report, and what one step reports in any order. -/
inductive Logs : Table → List Op → List (String × Outcome) → Prop
  | nil (t : Table) : Logs t [] []
  | cons {t : Table} {op : Op} {ops : List Op} {log : List (String × Outcome)} (news : List (String × Outcome))
      (hnews : news.Perm (t.reports op)) (hlog : Logs (t.apply op) ops log) : Logs t (op :: ops) (news ++ log)

theorem Logs.consistent {ops : List Op} {log : List (String × Outcome)} (h : t.Logs ops log) (hw : t.WellFormed) :
    Consistent t.listed log ∧ log.foldl follow t.listed = (t.run ops).listed := by
  induction h with
  | nil t => exact ⟨trivial, rfl⟩
  | cons news hnews hlog ih =>
      obtain ⟨hnow, hlisted⟩ := consistent_step hw hnews
      have ih := ih (hw.apply _)
      rw [Consistent.append, List.foldl_append, hlisted]
      exact ⟨⟨hnow, ih.1⟩, ih.2⟩

/--
To one who reads the log of a run from the start, the members that joined and did not leave are the listed ones. Every
member joins and leaves in turns; only listed members are suspected or updated, and only the node itself refutes. No
step but a merge or a tick changes who is listed.
-/
theorem log_tells_listed {self : MemberRecord} {ops : List Op} {log : List (String × Outcome)}
    (h : (new self).Logs ops log) :
    log.foldl follow ∅ = ((new self).run ops).listed ∧
    (∀ n, TakesTurns False (movesOf n log)) ∧
    (∀ op n o, (n, o) ∈ ((new self).run ops).reports op →
      (o = .suspected ∨ o = .updated → n ∈ ((new self).run ops).listed ∧ n ∈ (((new self).run ops).apply op).listed) ∧
        (o = .refuted → n = self.name)) ∧
    ∀ a, (∀ now suspectAfter deadAfter, a ≠ .tick now suspectAfter deadAfter) →
      (((new self).run ops).act a).listed = ((new self).run ops).listed := by
  have hw := (new_wellFormed self).run ops
  have hstart : (new self).listed = ∅ := by simp [listed, new]
  obtain ⟨hconsistent, hlisted⟩ := h.consistent (new_wellFormed self)
  rw [hstart] at hconsistent hlisted
  refine ⟨hlisted, fun n => ?_, fun op n o ho => ⟨?_, ?_⟩, fun a ha => ?_⟩
  · simpa using hconsistent.takesTurns (n := n)
  · rintro (rfl | rfl) <;> exact turns_reports hw ho
  · rintro rfl
    rw [name_of_refuted hw ho, name_run]
    rfl
  · exact listed_act hw ha

/-- Two members join, fall suspect and die together, one of them comes back and leaves, and the node refutes. -/
def sampleLogged : List Op :=
  [.merge (.brief "b" 0 .alive) 10, .merge (.brief "c" 0 .alive) 10, .act (.tick 5010 5000 100),
    .act (.tick 5110 5000 100), .merge (.brief "b" 1 .suspect) 6000, .merge (.brief "b" 2 .alive) 6010,
    .merge (.brief "a" 0 .dead) 6020, .act (.purge 6030 1000), .merge (.brief "b" 3 .left) 6040]

/-- Here the two members of a tick are reported in the other order. -/
def sampleLog : List (String × Outcome) :=
  [("b", .joined), ("c", .joined), ("c", .suspected), ("b", .suspected), ("c", .left), ("b", .left), ("b", .joined),
    ("b", .updated), ("a", .refuted), ("b", .left)]

theorem log_tells_listed_sample : (new (.brief "a" 0 .alive)).Logs sampleLogged sampleLog ∧
    movesOf "b" sampleLog = [.joined, .left, .joined, .left] ∧ TakesTurns False (movesOf "b" sampleLog) ∧
    ((new (.brief "a" 0 .alive)).run sampleLogged).listed = ∅ := by
  have hlog : (new (.brief "a" 0 .alive)).Logs sampleLogged sampleLog :=
    .cons [("b", .joined)] (by decide +kernel) <|
    .cons [("c", .joined)] (by decide +kernel) <|
    .cons [("c", .suspected), ("b", .suspected)] (by decide +kernel) <|
    .cons [("c", .left), ("b", .left)] (by decide +kernel) <|
    .cons [("b", .joined)] (by decide +kernel) <|
    .cons [("b", .updated)] (by decide +kernel) <|
    .cons [("a", .refuted)] (by decide +kernel) <|
    .cons [] (by decide +kernel) <|
    .cons [("b", .left)] (by decide +kernel) (.nil _)
  obtain ⟨hlisted, hturns, -⟩ := log_tells_listed hlog
  exact ⟨hlog, by decide, hturns "b", hlisted ▸ by decide⟩

end Table

end AgentMesh.Gossip
