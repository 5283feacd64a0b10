import AgentMesh.Proofs.Metrics.Counting
import Mathlib.Algebra.Order.Ring.Int
import Mathlib.Data.List.Nodup
import Mathlib.Data.List.Perm.Basic

/-!
# Sums for each model and outcome

Whatever else is recorded, and however long an inference took, a collector has as many requests and tokens of a model
and an outcome as it was told, and the requests of a model, summed over all outcomes, are the inferences with that
model.
-/

namespace AgentMesh.Metrics

/-! ## Entries of a map -/

theorem SeriesMap.nodup_toList {α : Type} (m : SeriesMap α) : m.toList.Nodup := by
  refine List.Nodup.of_map Prod.fst ?_
  rw [Std.ExtTreeMap.map_fst_toList_eq_keys]
  exact Std.ExtTreeMap.nodup_keys

theorem SeriesMap.toList_insert_perm {α : Type} (m : SeriesMap α) (key : Series) (v : α) :
    (m.insert key v).toList.Perm ((key, v) :: m.toList.filter (·.1 ≠ key)) := by
  have hnew : (key, v) ∉ m.toList.filter (·.1 ≠ key) := fun hmem => by
    simpa using (List.mem_filter.1 hmem).2
  rw [List.perm_ext_iff_of_nodup (nodup_toList _) (List.nodup_cons.2 ⟨hnew, (nodup_toList m).filter _⟩)]
  rintro ⟨k, w⟩
  simp only [Std.ExtTreeMap.mem_toList_iff_getElem?_eq_some, Std.ExtTreeMap.getElem?_insert, Std.compare_eq_iff_eq,
    List.mem_cons, Prod.mk.injEq, List.mem_filter, decide_eq_true_eq]
  by_cases hk : key = k
  · simp [hk, eq_comm]
  · simp [hk, Ne.symm hk]

/-- All entries but the one of a key, which stay when that one is changed. -/
theorem SeriesMap.exists_others {α : Type} (m : SeriesMap α) (key : Series) :
    ∃ others, m.toList.Perm (m[key]?.toList.map (key, ·) ++ others) ∧
      ∀ v, (m.insert key v).toList.Perm ((key, v) :: others) := by
  refine ⟨_, ?_, m.toList_insert_perm key⟩
  cases hkey : m[key]? with
  | none =>
      have hall : m.toList.filter (·.1 ≠ key) = m.toList := by
        refine List.filter_eq_self.2 ?_
        rintro ⟨k, w⟩ hmem
        rw [decide_eq_true_eq]
        rintro rfl
        rw [Std.ExtTreeMap.mem_toList_iff_getElem?_eq_some, hkey] at hmem
        cases hmem
      rw [hall]
      exact .refl _
  | some v =>
      have hsame : m.insert key v = m := by
        refine Std.ExtTreeMap.ext_getElem? fun k => ?_
        simp only [Std.ExtTreeMap.getElem?_insert, Std.compare_eq_iff_eq]
        split
        · rename_i hk
          rw [← hk, hkey]
        · rfl
      have hperm := m.toList_insert_perm key v
      rwa [hsame] at hperm

/-! ## Inferences among events -/

/-- An inference with its model and outcome, and its tokens. -/
def Event.inference? : Event → Option (Series × Nat)
  | .inference model outcome _ tokens => some (⟨model, outcome⟩, tokens)
  | _ => none

def inferencesOf (events : List Event) : List (Series × Nat) :=
  events.filterMap Event.inference?

namespace Collector

def requests (c : Collector) (key : Series) : Nat :=
  (c.inferences.getD key {}).requests

def tokens (c : Collector) (key : Series) : Nat :=
  (c.inferences.getD key {}).tokens

/-- The requests of a model, summed over all outcomes. -/
def requestsOf (c : Collector) (model : String) : Nat :=
  ((c.inferences.toList.filter (·.1.subject = model)).map (·.2.requests)).sum

/-- One inference more. -/
structure Counts (c c' : Collector) (key : Series) (tokens : Nat) : Prop where
  requests (key' : Series) : c'.requests key' = c.requests key' + if key = key' then 1 else 0
  tokens (key' : Series) : c'.tokens key' = c.tokens key' + if key = key' then tokens else 0
  requestsOf (model : String) : c'.requestsOf model = c.requestsOf model + if key.subject = model then 1 else 0

theorem counts_recordInference (c : Collector) (model status : String) (nanos tokens : Nat) :
    Counts c (c.recordInference model status nanos tokens) ⟨model, status⟩ tokens where
  requests key' := by
    simp only [requests, recordInference, Std.ExtTreeMap.getD_insert, Std.compare_eq_iff_eq]
    split
    · rename_i h
      rw [h]
    · rfl
  tokens key' := by
    simp only [Collector.tokens, recordInference, Std.ExtTreeMap.getD_insert, Std.compare_eq_iff_eq]
    split
    · rename_i h
      rw [h]
    · rfl
  requestsOf model' := by
    obtain ⟨others, hbefore, hafter⟩ := c.inferences.exists_others ⟨model, status⟩
    have hsum {entries entries' : List (Series × Inferences)} (h : entries.Perm entries') :
        ((entries.filter (·.1.subject = model')).map (·.2.requests)).sum =
          ((entries'.filter (·.1.subject = model')).map (·.2.requests)).sum :=
      ((h.filter _).map _).sum_nat
    have hold : c.inferences.getD ⟨model, status⟩ {} = c.inferences[(⟨model, status⟩ : Series)]?.getD {} :=
      Std.ExtTreeMap.getD_eq_getD_getElem?
    rw [requestsOf, requestsOf, hsum hbefore, recordInference, hsum (hafter _), hold]
    cases c.inferences[(⟨model, status⟩ : Series)]? with
    | none => by_cases hmodel : model = model' <;> simp [hmodel, Nat.add_comm]
    | some sums => by_cases hmodel : model = model' <;> simp [hmodel]; omega

theorem inferences_record_of_none {c : Collector} {e : Event} (h : e.inference? = none) :
    (c.record e).inferences = c.inferences := by
  cases e with
  | inference model status nanos tokens => cases h
  | _ => rfl

theorem counts_record {c : Collector} {e : Event} {key : Series} {tokens : Nat}
    (h : e.inference? = some (key, tokens)) : Counts c (c.record e) key tokens := by
  cases e with
  | inference model status nanos tokens' =>
      cases h
      exact c.counts_recordInference model status nanos tokens
  | _ => cases h

/-- What was recorded is told. -/
structure Recorded (c c' : Collector) (inferences : List (Series × Nat)) : Prop where
  requests (key : Series) : c'.requests key = c.requests key + inferences.countP (·.1 = key)
  tokens (key : Series) : c'.tokens key = c.tokens key + ((inferences.filter (·.1 = key)).map Prod.snd).sum
  requestsOf (model : String) : c'.requestsOf model = c.requestsOf model + inferences.countP (·.1.subject = model)

theorem Recorded.refl (c : Collector) : Recorded c c [] :=
  ⟨fun _ => rfl, fun _ => rfl, fun _ => rfl⟩

theorem Recorded.skip {c c₁ c' : Collector} {inferences : List (Series × Nat)} (hfirst : c₁.inferences = c.inferences)
    (hrest : Recorded c₁ c' inferences) : Recorded c c' inferences where
  requests key := by rw [hrest.requests, Collector.requests, hfirst, Collector.requests]
  tokens key := by rw [hrest.tokens, Collector.tokens, hfirst, Collector.tokens]
  requestsOf model := by rw [hrest.requestsOf, Collector.requestsOf, hfirst, Collector.requestsOf]

theorem Recorded.cons {c c₁ c' : Collector} {key : Series} {tokens : Nat} {inferences : List (Series × Nat)}
    (hfirst : Counts c c₁ key tokens) (hrest : Recorded c₁ c' inferences) :
    Recorded c c' ((key, tokens) :: inferences) where
  requests key' := by
    rw [hrest.requests, hfirst.requests, List.countP_cons]
    simp only [decide_eq_true_eq]
    omega
  tokens key' := by
    rw [hrest.tokens, hfirst.tokens, List.filter_cons]
    by_cases h : key = key' <;> simp [h]; omega
  requestsOf model := by
    rw [hrest.requestsOf, hfirst.requestsOf, List.countP_cons]
    simp only [decide_eq_true_eq]
    omega

theorem recorded_recordAll (c : Collector) (events : List Event) :
    Recorded c (c.recordAll events) (inferencesOf events) := by
  induction events generalizing c with
  | nil => exact .refl c
  | cons e events ih =>
      cases he : e.inference? with
      | none =>
          rw [inferencesOf, List.filterMap_cons_none he]
          exact (ih (c.record e)).skip (inferences_record_of_none he)
      | some inference =>
          rw [inferencesOf, List.filterMap_cons_some he]
          exact (ih (c.record e)).cons (counts_record he)

end Collector

end AgentMesh.Metrics
