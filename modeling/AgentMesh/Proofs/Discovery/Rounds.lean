import AgentMesh.Proofs.Discovery.Session
import Mathlib.Data.List.Induction
import Mathlib.Data.List.Infix

/-!
# Rounds of a monitor

Each poll begins a round: the answer is heeded in the registry, the connection is closed after one failure too many,
and a snapshot is sent. A monitor goes through whole rounds, whatever the answers are, and its count is that of the
failures in a row.
-/

namespace AgentMesh.Discovery

/-! ## Failures in a row -/

/-- The last answers were failures, and so many that the agent is given up. -/
def Lost (threshold : Nat) (answers : List (Option Resources)) : Prop :=
  List.replicate (max threshold 1) none <:+ answers

instance (threshold : Nat) (answers : List (Option Resources)) : Decidable (Lost threshold answers) :=
  inferInstanceAs (Decidable (_ <:+ _))

/-- How many answers, back from the last one, were failures. -/
def misses (answers : List (Option Resources)) : Nat :=
  answers.foldl (fun n answer => if answer.isNone then n + 1 else 0) 0

@[simp]
theorem misses_concat_none (answers : List (Option Resources)) : misses (answers ++ [none]) = misses answers + 1 := by
  simp [misses]

@[simp]
theorem misses_concat_some (answers : List (Option Resources)) (r : Resources) : misses (answers ++ [some r]) = 0 := by
  simp [misses]

theorem replicate_suffix_iff (k : Nat) (answers : List (Option Resources)) :
    List.replicate k none <:+ answers ↔ k ≤ misses answers := by
  induction answers using List.reverseRecOn generalizing k with
  | nil => simp [misses]
  | append_singleton answers answer ih =>
      cases k with
      | zero => simp
      | succ k =>
          rw [List.replicate_succ']
          cases answer <;> simp [List.suffix_concat_iff, ih]

theorem lost_iff (threshold : Nat) (answers : List (Option Resources)) :
    Lost threshold answers ↔ max threshold 1 ≤ misses answers :=
  replicate_suffix_iff _ _

theorem not_lost_nil (threshold : Nat) : ¬Lost threshold [] := by
  simp [lost_iff, misses]

theorem not_lost_concat_some (threshold : Nat) (answers : List (Option Resources)) (r : Resources) :
    ¬Lost threshold (answers ++ [some r]) := by
  simp [lost_iff]

theorem lost_concat_none (threshold : Nat) (answers : List (Option Resources)) :
    Lost threshold (answers ++ [none]) ↔ max threshold 1 ≤ misses answers + 1 := by
  rw [lost_iff, misses_concat_none]

/-- The agent was not given up at any of the answers. -/
def Kept (threshold : Nat) (answers : List (Option Resources)) : Prop :=
  ∀ earlier, earlier <+: answers → ¬Lost threshold earlier

theorem kept_nil (threshold : Nat) : Kept threshold [] := by
  intro earlier h
  rw [List.prefix_nil.1 h]
  exact not_lost_nil threshold

theorem Kept.concat {threshold : Nat} {answers : List (Option Resources)} (h : Kept threshold answers)
    {answer : Option Resources} (hlast : ¬Lost threshold (answers ++ [answer])) :
    Kept threshold (answers ++ [answer]) := by
  intro earlier hearlier
  rcases List.prefix_concat_iff.1 hearlier with rfl | hbefore
  · exact hlast
  · exact h earlier hbefore

theorem Kept.not_lost {threshold : Nat} {answers : List (Option Resources)} (h : Kept threshold answers) :
    ¬Lost threshold answers :=
  h answers (List.prefix_refl _)

/-- The agent is given up at the last answer, if at all. -/
theorem Kept.eq_of_lost {threshold : Nat} {answers earlier : List (Option Resources)} (h : Kept threshold answers)
    {answer : Option Resources} (hearlier : earlier <+: answers ++ [answer]) (hlost : Lost threshold earlier) :
    earlier = answers ++ [answer] :=
  (List.prefix_concat_iff.1 hearlier).resolve_right fun hbefore => h earlier hbefore hlost

/-! ## Rounds -/

/-- What a monitor does. -/
inductive Deed
  | polled (answer : Option Resources)
  /-- The registry is changed as the answer demands. -/
  | heeded (answer : Option Resources)
  | closed (client : Option Handle)
  /-- A snapshot is sent. -/
  | announced
deriving DecidableEq

def Deed.polled? : Deed → Option (Option Resources)
  | polled answer => some answer
  | _ => none

def Deed.heeded? : Deed → Option (Option Resources)
  | heeded answer => some answer
  | _ => none

/-- The answers to the polls. -/
def pollsOf (deeds : List Deed) : List (Option Resources) :=
  deeds.filterMap Deed.polled?

/-- The answers that were heeded. -/
def heededOf (deeds : List Deed) : List (Option Resources) :=
  deeds.filterMap Deed.heeded?

@[simp]
theorem pollsOf_append (deeds deeds' : List Deed) : pollsOf (deeds ++ deeds') = pollsOf deeds ++ pollsOf deeds' :=
  List.filterMap_append

@[simp]
theorem heededOf_append (deeds deeds' : List Deed) : heededOf (deeds ++ deeds') = heededOf deeds ++ heededOf deeds' :=
  List.filterMap_append

variable (threshold : Nat) (c : Handle)

/-- What is due after a poll, given the answers before. -/
def round (earlier : List (Option Resources)) (answer : Option Resources) : List Deed :=
  [.polled answer, .heeded answer] ++ (if Lost threshold (earlier ++ [answer]) then [.closed (some c)] else []) ++
    [.announced]

/-- The rounds of all polls, given the answers before. -/
def rounds (earlier : List (Option Resources)) : List (Option Resources) → List Deed
  | [] => []
  | answer :: answers => round threshold c earlier answer ++ rounds (earlier ++ [answer]) answers

variable {threshold c}

theorem round_of_lost {earlier : List (Option Resources)} {answer : Option Resources}
    (h : Lost threshold (earlier ++ [answer])) :
    round threshold c earlier answer = [.polled answer, .heeded answer, .closed (some c), .announced] := by
  rw [round, if_pos h]
  rfl

theorem round_of_not_lost {earlier : List (Option Resources)} {answer : Option Resources}
    (h : ¬Lost threshold (earlier ++ [answer])) :
    round threshold c earlier answer = [.polled answer, .heeded answer, .announced] := by
  rw [round, if_neg h]
  rfl

theorem rounds_concat_from (earlier answers : List (Option Resources)) (answer : Option Resources) :
    rounds threshold c earlier (answers ++ [answer]) =
      rounds threshold c earlier answers ++ round threshold c (earlier ++ answers) answer := by
  induction answers generalizing earlier with
  | nil => simp [rounds]
  | cons a answers ih => simp [rounds, ih]

theorem rounds_concat (polls : List (Option Resources)) (answer : Option Resources) :
    rounds threshold c [] (polls ++ [answer]) = rounds threshold c [] polls ++ round threshold c polls answer :=
  rounds_concat_from [] polls answer

@[simp]
theorem pollsOf_rounds (earlier answers : List (Option Resources)) :
    pollsOf (rounds threshold c earlier answers) = answers := by
  induction answers generalizing earlier with
  | nil => rfl
  | cons a answers ih =>
      rw [rounds, pollsOf_append, ih, round]
      split <;> rfl

@[simp]
theorem heededOf_rounds (earlier answers : List (Option Resources)) :
    heededOf (rounds threshold c earlier answers) = answers := by
  induction answers generalizing earlier with
  | nil => rfl
  | cons a answers ih =>
      rw [rounds, heededOf_append, ih, round]
      split <;> rfl

theorem count_closed_rounds {answers : List (Option Resources)} (h : Kept threshold answers) (client : Option Handle) :
    (rounds threshold c [] answers).count (.closed client) = 0 := by
  induction answers using List.reverseRecOn with
  | nil => rfl
  | append_singleton answers answer ih =>
      have hearlier : Kept threshold answers := fun earlier hbefore => h earlier (hbefore.trans (List.prefix_append ..))
      rw [rounds_concat, round_of_not_lost h.not_lost, List.count_append, ih hearlier]
      rfl

/-! ## The course of a monitor -/

/-- Where a monitor is after what it did. -/
inductive Course (threshold : Nat) (c : Handle) : Monitor → List Deed → Prop
  | waiting {polls : List (Option Resources)} (h : Kept threshold polls) :
      Course threshold c (.waiting (misses polls)) (rounds threshold c [] polls)
  | noting {polls : List (Option Resources)} (h : Kept threshold polls) (answer : Option Resources) :
      Course threshold c (.noting (misses polls) answer) (rounds threshold c [] polls ++ [.polled answer])
  | telling {polls : List (Option Resources)} (h : Kept threshold polls) {answer : Option Resources}
      (hlast : ¬Lost threshold (polls ++ [answer])) :
      Course threshold c (.announcing (some (misses (polls ++ [answer]))))
        (rounds threshold c [] polls ++ [.polled answer, .heeded answer])
  | closing {polls : List (Option Resources)} (h : Kept threshold polls) (hlast : Lost threshold (polls ++ [none])) :
      Course threshold c (.closing (some c)) (rounds threshold c [] polls ++ [.polled none, .heeded none])
  | parting {polls : List (Option Resources)} (h : Kept threshold polls) (hlast : Lost threshold (polls ++ [none])) :
      Course threshold c (.announcing none)
        (rounds threshold c [] polls ++ [.polled none, .heeded none, .closed (some c)])
  | ended {polls : List (Option Resources)} (h : Kept threshold polls) (hlast : Lost threshold (polls ++ [none])) :
      Course threshold c .ended (rounds threshold c [] (polls ++ [none]))

namespace Course

variable {failures : Nat} {deeds : List Deed}

theorem begin : Course threshold c (.waiting 0) [] :=
  .waiting (kept_nil threshold)

theorem polled (h : Course threshold c (.waiting failures) deeds) (answer : Option Resources) :
    Course threshold c (.noting failures answer) (deeds ++ [.polled answer]) := by
  cases h with
  | waiting hkept => exact .noting hkept answer

theorem observed {r : Resources} (h : Course threshold c (.noting failures (some r)) deeds) :
    Course threshold c (.announcing (some 0)) (deeds ++ [.heeded (some r)]) := by
  cases h with
  | @noting polls hkept =>
      rw [List.append_assoc, ← misses_concat_some polls r]
      exact .telling hkept (not_lost_concat_some threshold polls r)

theorem missed (h : Course threshold c (.noting failures none) deeds) (hfew : ¬max threshold 1 ≤ failures + 1) :
    Course threshold c (.announcing (some (failures + 1))) (deeds ++ [.heeded none]) := by
  cases h with
  | @noting polls hkept =>
      rw [List.append_assoc, ← misses_concat_none polls]
      exact .telling hkept (mt (lost_concat_none ..).1 hfew)

theorem struck (h : Course threshold c (.noting failures none) deeds) (hmany : max threshold 1 ≤ failures + 1) :
    Course threshold c (.closing (some c)) (deeds ++ [.heeded none]) := by
  cases h with
  | noting hkept =>
      rw [List.append_assoc]
      exact .closing hkept ((lost_concat_none ..).2 hmany)

theorem closed {client : Option Handle} (h : Course threshold c (.closing client) deeds) :
    Course threshold c (.announcing none) (deeds ++ [.closed client]) := by
  cases h with
  | closing hkept hlast =>
      rw [List.append_assoc]
      exact .parting hkept hlast

theorem announced (h : Course threshold c (.announcing (some failures)) deeds) :
    Course threshold c (.waiting failures) (deeds ++ [.announced]) := by
  cases h with
  | telling hkept hlast =>
      have hround := Course.waiting (c := c) (hkept.concat hlast)
      rw [rounds_concat, round_of_not_lost hlast] at hround
      rw [List.append_assoc]
      exact hround

theorem ends (h : Course threshold c (.announcing none) deeds) : Course threshold c .ended (deeds ++ [.announced]) := by
  cases h with
  | parting hkept hlast =>
      have hround := Course.ended (c := c) hkept hlast
      rw [rounds_concat, round_of_lost hlast] at hround
      rw [List.append_assoc]
      exact hround

/-! ## What the course tells -/

variable {m : Monitor}

theorem pollsOf_begun (polls : List (Option Resources)) (begun : List Deed) :
    pollsOf (rounds threshold c [] polls ++ begun) = polls ++ pollsOf begun := by
  rw [pollsOf_append, pollsOf_rounds]

theorem heededOf_begun (polls : List (Option Resources)) (begun : List Deed) :
    heededOf (rounds threshold c [] polls ++ begun) = polls ++ heededOf begun := by
  rw [heededOf_append, heededOf_rounds]

theorem begun_prefix {polls : List (Option Resources)} {answer : Option Resources} {begun : List Deed}
    (h : begun <+: round threshold c polls answer) :
    rounds threshold c [] polls ++ begun <+: rounds threshold c [] (polls ++ [answer]) := by
  rw [rounds_concat]
  exact (List.prefix_append_right_inj _).2 h

theorem begun_eq_iff {polls : List (Option Resources)} {answer : Option Resources} {begun : List Deed} :
    rounds threshold c [] polls ++ begun = rounds threshold c [] (polls ++ [answer]) ↔
      begun = round threshold c polls answer := by
  rw [rounds_concat, List.append_cancel_left_eq]

theorem deeds_prefix (h : Course threshold c m deeds) : deeds <+: rounds threshold c [] (pollsOf deeds) := by
  cases h with
  | waiting | ended => rw [pollsOf_rounds]
  | noting | telling | closing =>
      rw [pollsOf_begun]
      exact begun_prefix ⟨_, rfl⟩
  | parting hkept hlast =>
      rw [pollsOf_begun]
      refine begun_prefix ?_
      rw [round_of_lost hlast]
      exact ⟨_, rfl⟩

theorem eq_of_lost (h : Course threshold c m deeds) {earlier : List (Option Resources)}
    (hearlier : earlier <+: pollsOf deeds) (hlost : Lost threshold earlier) : earlier = pollsOf deeds := by
  cases h with
  | waiting hkept =>
      rw [pollsOf_rounds] at hearlier
      exact absurd hlost (hkept earlier hearlier)
  | ended hkept =>
      rw [pollsOf_rounds] at hearlier ⊢
      exact hkept.eq_of_lost hearlier hlost
  | noting hkept | telling hkept | closing hkept | parting hkept =>
      rw [pollsOf_begun] at hearlier ⊢
      exact hkept.eq_of_lost hearlier hlost

theorem isActive_iff (h : Course threshold c m deeds) : m.IsActive ↔ ¬Lost threshold (heededOf deeds) := by
  cases h with
  | waiting hkept =>
      rw [heededOf_rounds]
      exact iff_of_true trivial hkept.not_lost
  | @noting polls hkept answer =>
      have hnone : polls ++ heededOf [.polled answer] = polls := List.append_nil polls
      rw [heededOf_begun, hnone]
      exact iff_of_true trivial hkept.not_lost
  | telling hkept hlast =>
      rw [heededOf_begun]
      exact iff_of_true trivial hlast
  | closing hkept hlast | parting hkept hlast =>
      rw [heededOf_begun]
      exact iff_of_false id (not_not_intro hlast)
  | ended hkept hlast =>
      rw [heededOf_rounds]
      exact iff_of_false id (not_not_intro hlast)

/-- The rounds are complete just where a monitor rests. -/
theorem complete_iff (h : Course threshold c m deeds) :
    deeds = rounds threshold c [] (pollsOf deeds) ↔ m = .ended ∨ ∃ failures, m = .waiting failures := by
  cases h with
  | waiting hkept => exact iff_of_true (by rw [pollsOf_rounds]) (.inr ⟨_, rfl⟩)
  | ended hkept hlast => exact iff_of_true (by rw [pollsOf_rounds]) (.inl rfl)
  | noting hkept answer =>
      refine iff_of_false (fun h => ?_) (by simp)
      rw [pollsOf_begun] at h
      cases begun_eq_iff.1 h
  | telling hkept hlast =>
      refine iff_of_false (fun h => ?_) (by simp)
      rw [pollsOf_begun] at h
      cases (begun_eq_iff.1 h).trans (round_of_not_lost hlast)
  | closing hkept hlast | parting hkept hlast =>
      refine iff_of_false (fun h => ?_) (by simp)
      rw [pollsOf_begun] at h
      cases (begun_eq_iff.1 h).trans (round_of_lost hlast)

theorem not_lost_of_waiting (h : Course threshold c (.waiting failures) deeds) : ¬Lost threshold (pollsOf deeds) := by
  cases h with
  | waiting hkept =>
      rw [pollsOf_rounds]
      exact hkept.not_lost

theorem lost_of_ended (h : Course threshold c .ended deeds) : Lost threshold (pollsOf deeds) := by
  cases h with
  | ended hkept hlast => rwa [pollsOf_rounds]

/-- The monitor has ended if it did all that is due, and the last answer was one failure too many. -/
theorem eq_ended_iff (h : Course threshold c m deeds) :
    m = .ended ↔ Lost threshold (pollsOf deeds) ∧ deeds = rounds threshold c [] (pollsOf deeds) := by
  constructor
  · rintro rfl
    exact ⟨h.lost_of_ended, h.complete_iff.2 (.inl rfl)⟩
  · rintro ⟨hlost, hcomplete⟩
    rcases h.complete_iff.1 hcomplete with hended | ⟨failures, rfl⟩
    · exact hended
    · exact absurd hlost h.not_lost_of_waiting

/-- The connection is closed once, at the end. -/
theorem count_closed (h : Course threshold c m deeds) :
    deeds.count (.closed (some c)) = if m = .announcing none ∨ m = .ended then 1 else 0 := by
  cases h with
  | waiting hkept => rw [count_closed_rounds hkept, if_neg (by simp)]
  | ended hkept hlast =>
      rw [rounds_concat, round_of_lost hlast, List.count_append, count_closed_rounds hkept, if_pos (.inr rfl)]
      simp
  | parting hkept hlast =>
      rw [List.count_append, count_closed_rounds hkept, if_pos (.inl rfl)]
      simp
  | noting hkept | telling hkept | closing hkept =>
      rw [List.count_append, count_closed_rounds hkept, if_neg (by simp)]
      simp

end Course

end AgentMesh.Discovery
