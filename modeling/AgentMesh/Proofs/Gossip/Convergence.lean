import AgentMesh.Proofs.Gossip.Version

/-!
# Convergence

What a table knows does not depend on the order in which it learned it, and two nodes that tell each other
everything agree on every third.
-/

namespace AgentMesh.Gossip.Table

variable {t u : Table}

/-! ## Order and repetition -/

theorem mergeEach_agrees (hw : t.WellFormed) {news news' : List (MemberRecord × Nat)}
    (h : ∀ r, r ∈ news.map Prod.fst ↔ r ∈ news'.map Prod.fst) (n : String) :
    (t.mergeEach news).AgreesOn (t.mergeEach news') n := by
  have hv := hw.mergeEach news
  have hv' := hw.mergeEach news'
  refine .of_version hv hv' ?_
  by_cases hn : n = t.self.name
  · have hs := version_self hv
    have hs' := version_self hv'
    rw [name_mergeEach] at hs hs'
    rw [hn, hs, hs']
  · rw [version_mergeEach hw news hn, version_mergeEach hw news' hn, latest_congr h]

/-- News about one name do not change what news about another do. -/
theorem outcome_merge_merge (hw : t.WellFormed) {r s : MemberRecord} (hrs : r.name ≠ s.name) (now now' : Nat) :
    ((t.merge r now).1.merge s now').2 = (t.merge s now').2 := by
  by_cases hs : s.name = t.self.name
  · have hself : (t.merge r now).1.self = t.self := self_merge_of_ne (fun hr => hrs (hr.trans hs.symm)) now
    rw [merge_self_eq (by rw [hself, hs]), merge_self_eq hs, hself]
    split <;> rfl
  · rw [outcome_merge (hw.merge r now) (by rwa [name_merge]), outcome_merge hw hs, standing_merge hw]
    simp [hrs]

theorem merge_merge_comm (hw : t.WellFormed) {r s : MemberRecord} (hrs : r.name ≠ s.name) (now now' : Nat) :
    ((t.merge r now).1.merge s now').1 = ((t.merge s now').1.merge r now).1 := by
  refine ((hw.merge r now).merge s now').ext ((hw.merge s now').merge r now) ?_ fun n => ?_
  · by_cases hr : r.name = t.self.name
    · have hs : s.name ≠ t.self.name := fun hs => hrs (hr.trans hs.symm)
      rw [self_merge_of_ne (by rwa [name_merge]), self_merge _ r, self_merge _ r, self_merge_of_ne hs]
    · rw [self_merge_of_ne (t := (t.merge s now').1) (by rwa [name_merge]), self_merge _ s, self_merge _ s,
        self_merge_of_ne hr]
  · rw [standing_merge (hw.merge r now), standing_merge hw, standing_merge (hw.merge s now'), standing_merge hw,
      name_merge, name_merge]
    by_cases hr : r.name = n
    · have hs : s.name ≠ n := fun hs => hrs (hr.trans hs.symm)
      simp [hs]
    · simp [hr]

/--
Merging is a join: what is known of a name ends at the latest of the versions that were known or told, whatever
the order and the times of the news and however often they are repeated, and news about different names commute.
-/
theorem merge_is_join (ht : t.Reachable) :
    (∀ news : List (MemberRecord × Nat), (∀ e ∈ news, e.1.name ≠ t.self.name) → ∀ n,
      (t.mergeEach news).version n = max (t.version n) (latest n (news.map Prod.fst))) ∧
    (∀ news news' : List (MemberRecord × Nat), (∀ r, r ∈ news.map Prod.fst ↔ r ∈ news'.map Prod.fst) → ∀ n,
      (t.mergeEach news).AgreesOn (t.mergeEach news') n) ∧
    (∀ r s now now', r.name ≠ s.name →
      ((t.merge r now).1.merge s now').1 = ((t.merge s now').1.merge r now).1 ∧
        ((t.merge r now).1.merge s now').2 = (t.merge s now').2 ∧
        ((t.merge s now').1.merge r now).2 = (t.merge r now).2) := by
  have hw := ht.wellFormed
  refine ⟨fun news hnews n => ?_, fun _ _ => mergeEach_agrees hw, fun r s now now' hrs => ?_⟩
  · by_cases hn : n = t.self.name
    · have hs := version_self (hw.mergeEach news)
      rw [name_mergeEach] at hs
      have hl : latest n (news.map Prod.fst) ≤ ⊥ := latest_le fun r hr hrn => by
        obtain ⟨e, he, rfl⟩ := List.mem_map.mp hr
        exact absurd (hrn.trans hn) (hnews e he)
      rw [hn, hs, version_self hw, ← hn, le_bot_iff.mp hl, max_self]
    · exact version_mergeEach hw news hn
  · exact ⟨merge_merge_comm hw hrs now now', outcome_merge_merge hw hrs now now',
      outcome_merge_merge hw hrs.symm now' now⟩

/-- Stale news, news of a return that come twice, and a suspicion. -/
def sampleNews : List (MemberRecord × Nat) :=
  [(.brief "b" 2 .suspect, 30), (.brief "b" 3 .alive, 40), (.brief "c" 1 .suspect, 50), (.brief "b" 3 .alive, 5)]

theorem merge_is_join_sample : sample.Reachable ∧ (∀ e ∈ sampleNews, e.1.name ≠ sample.self.name) ∧
    (sample.mergeEach sampleNews).version "b" = (toLex (3, 0) : Version) ∧
    (sample.mergeEach sampleNews).AgreesOn (sample.mergeEach sampleNews.reverse) "c" ∧
    ((sample.merge (.brief "b" 3 .alive) 40).1.merge (.brief "c" 1 .dead) 50).2 = .left := by
  have hnews : ∀ e ∈ sampleNews, e.1.name ≠ sample.self.name := by decide +kernel
  obtain ⟨hjoin, hcongr, hcomm⟩ := merge_is_join sample_reachable
  refine ⟨sample_reachable, hnews, (hjoin sampleNews hnews "b").trans (by decide +kernel), ?_, ?_⟩
  · exact hcongr sampleNews sampleNews.reverse (fun r => by simp) "c"
  · exact (hcomm (.brief "b" 3 .alive) (.brief "c" 1 .dead) 40 50 (by decide)).2.1.trans (by decide +kernel)

/-! ## Exchange -/

/-- A payload tells of every other name exactly what the table knows. -/
theorem latest_payload (hw : t.WellFormed) {n : String} (hn : n ≠ t.self.name) :
    latest n t.payload = t.version n := by
  apply le_antisymm
  · apply latest_le
    intro r hr hrn
    rcases hw.mem_payload.mp hr with rfl | ⟨m, hm⟩
    · exact absurd hrn.symm hn
    · have hmn : m = n := ((hw.fits m).name_eq hm).symm.trans hrn
      subst hmn
      exact (Standing.version_of_record? hm).ge
  · rw [version]
    cases hr : (t.standing n).record? with
    | none => rw [Standing.version_of_record?_none hr]; exact bot_le
    | some r =>
        rw [Standing.version_of_record? hr]
        exact le_latest (hw.mem_payload.mpr (Or.inr ⟨n, hr⟩)) ((hw.fits n).name_eq hr)

/-- After one node took in all that another tells, it knows the later of the two versions of every third. -/
theorem version_mergeEach_payload (ht : t.WellFormed) (hu : u.WellFormed) {news : List (MemberRecord × Nat)}
    (h : (news.map Prod.fst).Perm u.payload) {n : String} (hn : n ≠ t.self.name) (hn' : n ≠ u.self.name) :
    (t.mergeEach news).version n = max (t.version n) (u.version n) := by
  rw [version_mergeEach ht news hn, latest_congr fun _ => h.mem_iff, latest_payload hu hn']

/--
Two nodes that told each other everything, one after the other, agree on every third name, in whatever order
and at whatever times the records arrived.
-/
theorem exchange_agrees (ht : t.Reachable) (hu : u.Reachable) {news news' : List (MemberRecord × Nat)}
    (h : (news.map Prod.fst).Perm t.payload) (h' : (news'.map Prod.fst).Perm (u.mergeEach news).payload)
    {n : String} (hn : n ≠ t.self.name) (hn' : n ≠ u.self.name) :
    (t.mergeEach news').AgreesOn (u.mergeEach news) n := by
  have ht := ht.wellFormed
  have hu := hu.wellFormed
  have hu' := hu.mergeEach news
  refine .of_version (ht.mergeEach news') hu' ?_
  have hv := version_mergeEach_payload hu ht h hn' hn
  have hv' := version_mergeEach_payload ht hu' h' hn (by rwa [name_mergeEach])
  -- What comes back includes what was sent, so that the second merge leaves both at the later version.
  rw [hv', hv, max_comm (u.version n), ← max_assoc, max_self]

/-- A table in which a member is back that `sample` has buried. -/
def otherSample : Table :=
  (new (.brief "d" 0 .alive)).run [.merge (.brief "b" 3 .alive) 10, .merge (.brief "e" 0 .left) 20]

theorem exchange_agrees_sample : sample.Reachable ∧ otherSample.Reachable ∧
    ((sample.payload.reverse.map (·, 50)).map Prod.fst).Perm sample.payload ∧
    (((otherSample.mergeEach (sample.payload.reverse.map (·, 50))).payload.map (·, 60)).map Prod.fst).Perm
      (otherSample.mergeEach (sample.payload.reverse.map (·, 50))).payload ∧
    (sample.mergeEach ((otherSample.mergeEach (sample.payload.reverse.map (·, 50))).payload.map (·, 60))).AgreesOn
      (otherSample.mergeEach (sample.payload.reverse.map (·, 50))) "b" := by
  have hother : otherSample.Reachable := ⟨_, _, rfl⟩
  have h : ((sample.payload.reverse.map (·, 50)).map Prod.fst).Perm sample.payload := by
    simp [Function.comp_def]
  have h' : (((otherSample.mergeEach (sample.payload.reverse.map (·, 50))).payload.map (·, 60)).map Prod.fst).Perm
      (otherSample.mergeEach (sample.payload.reverse.map (·, 50))).payload := by
    simp [Function.comp_def]
  exact ⟨sample_reachable, hother, h, h',
    exchange_agrees sample_reachable hother h h' (by decide +kernel) (by decide +kernel)⟩

end AgentMesh.Gossip.Table
