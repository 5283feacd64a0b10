import AgentMesh.Proofs.Gossip.Version

/-!
# How long two tables keep tombstones

Two tables that tell each other what they know purge their tombstones on their own. A record does not say how old the
death is that it tells of. So a table that has dropped a tombstone takes the death for news when the other one still
tells of it, and keeps it for a full period again. A tombstone outlives two periods in no other way.
-/

namespace AgentMesh.Gossip

theorem Standing.buried_of_hear {n : String} {k : Standing} (hf : k.Fits n) {r : MemberRecord} {now : Nat}
    {s : Tombstone} (h : (k.hear r now).1 = buried s) :
    k = buried s ∨ (r.state.isLive = false ∧ k.version < r.version ∧ s = ⟨r, now⟩) := by
  have hfirst (hk : k.version < r.version) (h : (first r now).1 = buried s) :
      r.state.isLive = false ∧ k.version < r.version ∧ s = ⟨r, now⟩ := by
    simp only [first] at h
    split at h
    · cases h
    · rename_i hdead
      exact ⟨by simpa using hdead, hk, (buried.inj h).symm⟩
  cases k with
  | unknown => exact Or.inr (hfirst (WithBot.bot_lt_coe _) h)
  | listed p =>
      simp only [hear] at h
      split at h
      · cases h
      · rename_i hs
        split at h
        · rename_i hdead
          have hlater : p.record.version < r.version := MemberRecord.supersedes_iff.mp (by simpa using hs)
          exact Or.inr ⟨by simpa using hdead, WithBot.coe_lt_coe.mpr hlater, (buried.inj h).symm⟩
        · cases h
  | buried s' =>
      simp only [hear] at h
      split at h
      · exact Or.inl h
      · rename_i hi
        have hlater : s'.record.version < r.version := not_le.mp fun hle => hi ((version_le_of_buried hf).mp hle)
        exact Or.inr (hfirst (WithBot.coe_lt_coe.mpr hlater) h)

namespace Table

variable {t : Table} {n : String} {s : Tombstone}

/-- The record tells of a death that is news to the table: it knows nothing of the member, or something older. -/
def TakesUp (t : Table) (n : String) (r : MemberRecord) : Prop :=
  r.name = n ∧ r.state.isLive = false ∧ t.version n < r.version

theorem tombstone_of_merge (hw : t.WellFormed) {r : MemberRecord} {now : Nat}
    (h : (t.merge r now).1.tombstones[n]? = some s) :
    t.tombstones[n]? = some s ∨ (t.TakesUp n r ∧ s = ⟨r, now⟩) := by
  rw [(hw.merge r now).tombstone_iff, standing_merge hw] at h
  rw [hw.tombstone_iff]
  split at h
  · rename_i hn
    rcases Standing.buried_of_hear (hw.fits n) h with hold | ⟨hdead, hlater, hs⟩
    · exact Or.inl hold
    · exact Or.inr ⟨⟨hn.1, hdead, hlater⟩, hs⟩
  · exact Or.inl h

theorem tombstone_of_purge (hw : t.WellFormed) {now ttl : Nat} (h : (t.purge now ttl).1.tombstones[n]? = some s) :
    t.tombstones[n]? = some s ∧ now - s.since < ttl := by
  have hstanding : (t.act (.purge now ttl)).standing n = .buried s := (hw.act (.purge now ttl)).tombstone_iff.mp h
  rw [standing_act hw, Act.onStanding] at hstanding
  rw [hw.tombstone_iff]
  cases hk : t.standing n with
  | buried s' =>
      simp only [hk, Standing.expire] at hstanding
      split at hstanding
      · rename_i hage
        cases hstanding
        exact ⟨rfl, hage⟩
      · cases hstanding
  | _ =>
      rw [hk] at hstanding
      cases hstanding

end Table

/-! ## Two tables -/

/-- What happens to one of two tables. It hears what the other one tells at that time, one record of it at a time. -/
inductive Turn
  | purge (i : Bool) (now : Nat)
  | hear (i : Bool) (k now : Nat)
deriving Repr, DecidableEq

def Turn.time : Turn → Nat
  | purge _ now => now
  | hear _ _ now => now

abbrev Pair := Bool → Table

namespace Pair

def opsAt (w : Pair) (ttl : Nat) (i : Bool) : Turn → List Op
  | .purge j now => if i = j then [.act (.purge now ttl)] else []
  | .hear j k now => if i = j then ((w !j).payload[k]?.toList).map (.merge · now) else []

def step (w : Pair) (ttl : Nat) (turn : Turn) : Pair :=
  fun i => (w i).run (w.opsAt ttl i turn)

def run (w : Pair) (ttl : Nat) (turns : List Turn) : Pair :=
  turns.foldl (step · ttl) w

variable {w : Pair} {ttl : Nat} {i : Bool} {n : String} {s : Tombstone}

theorem run_append (w : Pair) (ttl : Nat) (turns turns' : List Turn) :
    w.run ttl (turns ++ turns') = (w.run ttl turns).run ttl turns' :=
  List.foldl_append

theorem wellFormed_step (hw : ∀ i, (w i).WellFormed) (turn : Turn) (i : Bool) : (w.step ttl turn i).WellFormed :=
  (hw i).run _

theorem wellFormed_run (hw : ∀ i, (w i).WellFormed) (turns : List Turn) (i : Bool) :
    (w.run ttl turns i).WellFormed := by
  induction turns generalizing w with
  | nil => exact hw i
  | cons turn turns ih => exact ih (wellFormed_step hw turn)

theorem tombstone_of_step (hw : ∀ i, (w i).WellFormed) {turn : Turn}
    (h : (w.step ttl turn i).tombstones[n]? = some s) :
    (w i).tombstones[n]? = some s ∨
      ∃ k r now, turn = .hear i k now ∧ (w !i).payload[k]? = some r ∧ (w i).TakesUp n r ∧ s = ⟨r, now⟩ := by
  cases turn with
  | purge j now =>
      simp only [step, opsAt] at h
      split at h
      · exact Or.inl (Table.tombstone_of_purge (hw i) h).1
      · exact Or.inl h
  | hear j k now =>
      simp only [step, opsAt] at h
      split at h
      · rename_i hij
        subst hij
        cases hr : (w !i).payload[k]? with
        | none =>
            rw [hr] at h
            exact Or.inl h
        | some r =>
            rw [hr] at h
            rcases Table.tombstone_of_merge (hw i) h with hold | ⟨htakes, hs⟩
            · exact Or.inl hold
            · exact Or.inr ⟨k, r, now, rfl, hr, htakes, hs⟩
      · exact Or.inl h

theorem tombstone_of_run (hw : ∀ i, (w i).WellFormed) {turns : List Turn}
    (h : (w.run ttl turns i).tombstones[n]? = some s) :
    (w i).tombstones[n]? = some s ∨
      ∃ before k r now after, turns = before ++ .hear i k now :: after ∧
        (w.run ttl before !i).payload[k]? = some r ∧ (w.run ttl before i).TakesUp n r ∧ s = ⟨r, now⟩ := by
  induction turns using List.reverseRecOn with
  | nil => exact Or.inl h
  | append_singleton turns turn ih =>
      rw [run_append] at h
      rcases tombstone_of_step (wellFormed_run hw turns) h with hold | ⟨k, r, now, rfl, hr, htakes, hs⟩
      · rcases ih hold with hstart | ⟨before, k, r, now, after, rfl, hr, htakes, hs⟩
        · exact Or.inl hstart
        · exact Or.inr ⟨before, k, r, now, after ++ [turn], by simp, hr, htakes, hs⟩
      · exact Or.inr ⟨turns, k, r, now, [], rfl, hr, htakes, hs⟩

theorem step_purge_self (w : Pair) (ttl : Nat) (i : Bool) (now : Nat) :
    w.step ttl (.purge i now) i = ((w i).purge now ttl).1 := by
  simp only [step, opsAt, ↓reduceIte]
  rfl

theorem step_purge_of_ne {i j : Bool} (hij : j ≠ i) (w : Pair) (ttl now : Nat) :
    w.step ttl (.purge i now) j = w j := by
  simp only [step, opsAt, if_neg hij]
  rfl

theorem tombstone_of_purges (hw : ∀ i, (w i).WellFormed) (i : Bool) {times : Bool → Nat} {j : Bool}
    (h : (w.run ttl [.purge i (times i), .purge (!i) (times !i)] j).tombstones[n]? = some s) :
    (w j).tombstones[n]? = some s ∧ times j - s.since < ttl := by
  have hrun : w.run ttl [.purge i (times i), .purge (!i) (times !i)] =
      (w.step ttl (.purge i (times i))).step ttl (.purge (!i) (times !i)) := rfl
  rw [hrun] at h
  by_cases hij : j = i
  · subst hij
    rw [step_purge_of_ne (by simp), step_purge_self] at h
    exact Table.tombstone_of_purge (hw j) h
  · obtain rfl : j = !i := Bool.eq_not.mpr hij
    rw [step_purge_self, step_purge_of_ne hij] at h
    exact Table.tombstone_of_purge (hw _) h

/--
Two tables keep no tombstone of a member from a time `t` or before it, and tell each other what they know. Then they
both purge, two periods after `t` or later. A table that has a tombstone of the member after that took up the death
from the other one in the meantime, as news, less than a period before its purge.
-/
theorem expires_unless_taken_up (hw : ∀ i, (w i).Reachable) {t : Nat}
    (hstart : ∀ i s, (w i).tombstones[n]? = some s → s.since ≤ t) (turns : List Turn) (i : Bool) {times : Bool → Nat}
    (htimes : ∀ j, t + 2 * ttl ≤ times j) {j : Bool}
    (hkept : n ∈ (w.run ttl (turns ++ [.purge i (times i), .purge (!i) (times !i)]) j).tombstones) :
    ∃ before k r now after, turns = before ++ .hear j k now :: after ∧ (w.run ttl before !j).payload[k]? = some r ∧
      (w.run ttl before j).TakesUp n r ∧ t + ttl < now ∧ times j < now + ttl := by
  have hw' (i : Bool) : (w i).WellFormed := (hw i).wellFormed
  have hlate := htimes j
  obtain ⟨s, hs⟩ := Option.isSome_iff_exists.mp (Std.ExtTreeMap.mem_iff_isSome_getElem?.mp hkept)
  rw [run_append] at hs
  obtain ⟨hs, hage⟩ := tombstone_of_purges (wellFormed_run hw' turns) i hs
  rcases tombstone_of_run hw' hs with hold | ⟨before, k, r, now, after, hturns, hr, htakes, rfl⟩
  · have hsince := hstart j s hold
    omega
  · have hage' : times j - now < ttl := hage
    exact ⟨before, k, r, now, after, hturns, hr, htakes, by omega, by omega⟩

/-- The first table buried a member, and the second one knows nothing of it. -/
def sampleStart : Pair
  | false => (Table.new (.brief "a" 0 .alive)).run [.merge (.brief "x" 1 .dead) 0]
  | true => .new (.brief "b" 0 .alive)

/-- Each table tells the other one of the death when that one does not know of it, or does not any more. -/
def sampleTurns : List Turn :=
  [.hear true 1 5, .purge false 10, .hear false 1 12, .purge true 15]

theorem reachable_sampleStart (i : Bool) : (sampleStart i).Reachable := by
  cases i with
  | false => exact ⟨.brief "a" 0 .alive, [.merge (.brief "x" 1 .dead) 0], rfl⟩
  | true => exact ⟨.brief "b" 0 .alive, [], rfl⟩

/-- Both tables purge two periods after the death, and the first one still has the tombstone. -/
theorem echo_renews_tombstone :
    let turns := sampleTurns ++ [.purge false 20, .purge true 20]
    (∀ i, (sampleStart i).Reachable) ∧ (sampleStart false).tombstones["x"]? = some ⟨.brief "x" 1 .dead, 0⟩ ∧
    (sampleStart true).tombstones["x"]? = none ∧ (turns.map Turn.time).Pairwise (· ≤ ·) ∧ 0 + 2 * 10 ≤ 20 ∧
    (sampleStart.run 10 turns false).tombstones["x"]? = some ⟨.brief "x" 1 .dead, 12⟩ :=
  ⟨reachable_sampleStart, by decide +kernel, by decide +kernel, by decide, by decide, by decide +kernel⟩

theorem expires_unless_taken_up_sample :
    let kept := (sampleStart.run 10 (sampleTurns ++ [.purge false 20, .purge true 20]) false).tombstones
    (∀ i, (sampleStart i).Reachable) ∧ (∀ i s, (sampleStart i).tombstones["x"]? = some s → s.since ≤ 0) ∧
    0 + 2 * 10 ≤ 20 ∧ "x" ∈ kept ∧
    ∃ before k r now after, sampleTurns = before ++ .hear false k now :: after ∧
      (sampleStart.run 10 before true).payload[k]? = some r ∧ (sampleStart.run 10 before false).TakesUp "x" r ∧
      10 < now ∧ 20 < now + 10 := by
  intro kept
  have hstart : ∀ i s, (sampleStart i).tombstones["x"]? = some s → s.since ≤ 0 := by
    intro i s hs
    cases i with
    | false =>
        have hdead : (sampleStart false).tombstones["x"]? = some ⟨.brief "x" 1 .dead, 0⟩ := by decide +kernel
        rw [hdead] at hs
        cases hs
        exact Nat.le_refl 0
    | true =>
        have hnone : (sampleStart true).tombstones["x"]? = none := by decide +kernel
        rw [hnone] at hs
        cases hs
  have hkept : "x" ∈ kept := by decide +kernel
  obtain ⟨before, k, r, now, after, hturns, hr, htakes, hnow, htimes⟩ :=
    expires_unless_taken_up reachable_sampleStart hstart sampleTurns false (fun _ => Nat.le_refl (0 + 2 * 10)) hkept
  exact ⟨reachable_sampleStart, hstart, by decide, hkept, before, k, r, now, after, hturns, hr, htakes, by omega,
    by omega⟩

end Pair

end AgentMesh.Gossip
