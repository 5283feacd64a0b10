import AgentMesh.Proofs.Gossip.Run
import Mathlib.Data.List.MinMax
import Mathlib.Data.Prod.Lex

/-!
# Versions

A record's version is its incarnation and, at the same incarnation, the severity of its state. What a table
knows about a name has the version of the record that it keeps. Merging a record raises that version to the
record's, and merging many raises it to the latest of them.
-/

namespace AgentMesh.Gossip

/-- An incarnation and a severity. The incarnation counts first. -/
abbrev Version := Nat ×ₗ Nat

namespace MemberState

theorem severity_lt_two {s : MemberState} : s.severity < 2 ↔ s.isLive = true := by
  cases s <;> simp [severity, isLive]

theorem severity_eq_two {s : MemberState} : s.severity = 2 ↔ s.isLive = false := by
  cases s <;> simp [severity, isLive]

theorem severity_le_two (s : MemberState) : s.severity ≤ 2 := by
  cases s <;> simp [severity]

end MemberState

namespace MemberRecord

def version (r : MemberRecord) : Version :=
  toLex (r.incarnation, r.state.severity)

/-- A record that says little more than a version. -/
def brief (name : String) (incarnation : Nat) (state : MemberState) : MemberRecord :=
  { name, addr := default, rpcPort := 8080, incarnation, state }

theorem version_le_iff {r s : MemberRecord} : r.version ≤ s.version ↔
    r.incarnation < s.incarnation ∨ (r.incarnation = s.incarnation ∧ r.state.severity ≤ s.state.severity) :=
  Prod.Lex.toLex_le_toLex

theorem supersedes_iff {r s : MemberRecord} : r.supersedes s = true ↔ s.version < r.version := by
  rw [version, version, Prod.Lex.toLex_lt_toLex]
  simp only [supersedes, Bool.or_eq_true, Bool.and_eq_true, decide_eq_true_eq, beq_iff_eq]
  constructor
  · rintro (h | ⟨h, h'⟩)
    · exact Or.inl h
    · exact Or.inr ⟨h.symm, h'⟩
  · rintro (h | ⟨h, h'⟩)
    · exact Or.inl h
    · exact Or.inr ⟨h.symm, h'⟩

theorem incarnation_le_of_version_le {r s : MemberRecord} (h : r.version ≤ s.version) :
    r.incarnation ≤ s.incarnation := by
  rcases version_le_iff.mp h with h | ⟨h, _⟩ <;> omega

end MemberRecord

namespace Standing

def version : Standing → WithBot Version
  | unknown => ⊥
  | listed p => p.record.version
  | buried s => s.record.version

@[simp] theorem version_unknown : unknown.version = ⊥ := rfl

@[simp] theorem version_listed (p : Peer) : (listed p).version = p.record.version := rfl

@[simp] theorem version_buried (s : Tombstone) : (buried s).version = s.record.version := rfl

theorem version_of_record? {k : Standing} {r : MemberRecord} (hr : k.record? = some r) : k.version = r.version := by
  cases k <;> cases hr <;> rfl

theorem version_of_record?_none {k : Standing} (hr : k.record? = none) : k.version = ⊥ := by
  cases k <;> first | rfl | cases hr

@[simp] theorem version_first (r : MemberRecord) (now : Nat) : (first r now).1.version = r.version := by
  simp only [first]
  split <;> rfl

@[simp] theorem version_refresh (p : Peer) (r : MemberRecord) (now : Nat) :
    (p.refresh r now).record.version = p.record.version := by
  simp only [Peer.refresh]
  split <;> rfl

/-- A tombstone has the most severe state, so that only a later incarnation gets past it. -/
theorem version_le_of_buried {n : String} {s : Tombstone} (h : (buried s).Fits n) {r : MemberRecord} :
    r.version ≤ s.record.version ↔ r.incarnation ≤ s.record.incarnation := by
  have hs := MemberState.severity_eq_two.mpr h.2
  have hr := r.state.severity_le_two
  rw [MemberRecord.version_le_iff, hs]
  omega

/-- A live record is never in the version of one that is not. -/
theorem version_ne_of_fits {n : String} {p : Peer} {s : Tombstone} (hp : (listed p).Fits n)
    (hs : (buried s).Fits n) : p.record.version ≠ s.record.version := by
  intro h
  have hseverity : p.record.state.severity = s.record.state.severity := congrArg (fun v => (ofLex v).2) h
  have hlt := MemberState.severity_lt_two.mpr hp.2
  have heq := MemberState.severity_eq_two.mpr hs.2
  omega

/-- A version tells whether it is that of a peer or of a tombstone. -/
theorem same_kind_of_version_eq {n : String} {k k' : Standing} (h : k.Fits n) (h' : k'.Fits n)
    (hv : k.version = k'.version) :
    ((∃ p, k = listed p) ↔ ∃ p, k' = listed p) ∧ ((∃ s, k = buried s) ↔ ∃ s, k' = buried s) := by
  cases k with
  | unknown => cases k' <;> simp at hv ⊢
  | listed p =>
      cases k' with
      | unknown => simp at hv
      | listed p' => simp
      | buried s' => exact absurd (WithBot.coe_inj.mp hv) (version_ne_of_fits h h')
  | buried s =>
      cases k' with
      | unknown => simp at hv
      | listed p' => exact absurd (WithBot.coe_inj.mp hv).symm (version_ne_of_fits h' h)
      | buried s' => simp

/-- Merging takes the later of the two versions. -/
theorem version_hear {n : String} {k : Standing} (h : k.Fits n) (r : MemberRecord) (now : Nat) :
    (k.hear r now).1.version = max k.version r.version := by
  cases k with
  | unknown => exact (version_first r now).trans (max_eq_right bot_le).symm
  | listed p =>
      rw [version_listed]
      by_cases hs : r.supersedes p.record
      · have hlt : (p.record.version : WithBot Version) < r.version :=
          WithBot.coe_lt_coe.mpr (MemberRecord.supersedes_iff.mp hs)
        rw [max_eq_right hlt.le]
        by_cases hl : r.state.isLive <;> simp [Standing.hear, hs, hl, Peer.replace]
      · have hle : (r.version : WithBot Version) ≤ p.record.version :=
          WithBot.coe_le_coe.mpr (not_lt.mp fun hlt => hs (MemberRecord.supersedes_iff.mpr hlt))
        rw [max_eq_left hle]
        simp [Standing.hear, hs]
  | buried s =>
      rw [version_buried]
      by_cases hi : r.incarnation ≤ s.record.incarnation
      · rw [max_eq_left (WithBot.coe_le_coe.mpr ((version_le_of_buried h).mpr hi))]
        simp [Standing.hear, hi]
      · have hlt := not_le.mp (mt (version_le_of_buried h).mp hi)
        rw [max_eq_right (WithBot.coe_le_coe.mpr hlt.le)]
        simp [Standing.hear, hi]

end Standing

/-! ## Versions in a list of records -/

/-- The latest version in which some records speak of `n`. -/
def latest (n : String) (rs : List MemberRecord) : WithBot Version :=
  ((rs.filter (·.name = n)).map MemberRecord.version).maximum

theorem latest_cons (n : String) (r : MemberRecord) (rs : List MemberRecord) :
    latest n (r :: rs) = max (if r.name = n then (r.version : WithBot Version) else ⊥) (latest n rs) := by
  by_cases hr : r.name = n
  · simp [latest, hr, List.maximum_cons]
  · simp [latest, hr]

theorem le_latest {n : String} {r : MemberRecord} {rs : List MemberRecord} (hr : r ∈ rs) (hn : r.name = n) :
    (r.version : WithBot Version) ≤ latest n rs :=
  List.le_maximum_of_mem' (List.mem_map_of_mem (List.mem_filter.mpr ⟨hr, by simpa using hn⟩))

theorem latest_le {n : String} {rs : List MemberRecord} {v : WithBot Version}
    (h : ∀ r ∈ rs, r.name = n → (r.version : WithBot Version) ≤ v) : latest n rs ≤ v := by
  apply List.maximum_le_of_forall_le
  intro w hw
  obtain ⟨r, hr, rfl⟩ := List.mem_map.mp hw
  have hr := List.mem_filter.mp hr
  exact h r hr.1 (by simpa using hr.2)

/-- Neither the order of the records nor their number matters. -/
theorem latest_congr {n : String} {rs rs' : List MemberRecord} (h : ∀ r, r ∈ rs ↔ r ∈ rs') :
    latest n rs = latest n rs' :=
  le_antisymm (latest_le fun r hr hn => le_latest ((h r).mp hr) hn)
    (latest_le fun r hr hn => le_latest ((h r).mpr hr) hn)

namespace Table

def version (t : Table) (n : String) : WithBot Version :=
  (t.standing n).version

/-- Merges news, each at its own time. -/
def mergeEach (t : Table) (news : List (MemberRecord × Nat)) : Table :=
  t.run (news.map fun e => .merge e.1 e.2)

variable {t u : Table}

theorem mergeEach_cons (t : Table) (r : MemberRecord) (now : Nat) (news : List (MemberRecord × Nat)) :
    t.mergeEach ((r, now) :: news) = (t.merge r now).1.mergeEach news := rfl

@[simp] theorem name_mergeEach (t : Table) (news : List (MemberRecord × Nat)) :
    (t.mergeEach news).self.name = t.self.name := name_run t _

theorem WellFormed.mergeEach (hw : t.WellFormed) (news : List (MemberRecord × Nat)) :
    (t.mergeEach news).WellFormed := hw.run _

theorem version_self (hw : t.WellFormed) : t.version t.self.name = ⊥ := by
  rw [version, hw.self_unknown]
  rfl

theorem version_merge (hw : t.WellFormed) (r : MemberRecord) (now : Nat) {n : String} (hn : n ≠ t.self.name) :
    (t.merge r now).1.version n =
      max (t.version n) (if r.name = n then (r.version : WithBot Version) else ⊥) := by
  rw [version, standing_merge hw]
  by_cases hr : r.name = n
  · simp only [hr, hn, ne_eq, not_false_eq_true, and_self, ↓reduceIte]
    exact Standing.version_hear (hw.fits n) r now
  · simp only [hr, false_and, ↓reduceIte]
    exact (max_eq_left bot_le).symm

theorem le_version_merge (hw : t.WellFormed) {r : MemberRecord} (now : Nat) {n : String} (hname : r.name = n)
    (hn : n ≠ t.self.name) : (r.version : WithBot Version) ≤ (t.merge r now).1.version n := by
  rw [version_merge hw r now hn, if_pos hname]
  exact le_max_right _ _

theorem version_mergeEach (hw : t.WellFormed) (news : List (MemberRecord × Nat)) {n : String}
    (hn : n ≠ t.self.name) :
    (t.mergeEach news).version n = max (t.version n) (latest n (news.map Prod.fst)) := by
  induction news generalizing t with
  | nil => exact (max_eq_left bot_le).symm
  | cons e news ih =>
      obtain ⟨r, now⟩ := e
      have ih := ih (hw.merge r now) (by rwa [name_merge])
      rw [mergeEach_cons, ih, version_merge hw r now hn, List.map_cons, latest_cons, max_assoc]

/-! ## Agreement -/

/-- Two tables agree on a name: it is a peer of both, a tombstone of both, or unknown to both, in the same version. -/
structure AgreesOn (t u : Table) (n : String) : Prop where
  peers : n ∈ t.peers ↔ n ∈ u.peers
  tombstones : n ∈ t.tombstones ↔ n ∈ u.tombstones
  version : t.version n = u.version n

theorem AgreesOn.of_version (ht : t.WellFormed) (hu : u.WellFormed) {n : String}
    (h : t.version n = u.version n) : t.AgreesOn u n := by
  obtain ⟨hlisted, hburied⟩ := Standing.same_kind_of_version_eq (ht.fits n) (hu.fits n) h
  refine ⟨?_, ?_, h⟩
  · rw [ht.mem_peers, hu.mem_peers, hlisted]
  · rw [ht.mem_tombstones, hu.mem_tombstones, hburied]

/-- A table that has buried one member and lists another. -/
def sample : Table :=
  (new (.brief "a" 0 .alive)).run [.merge (.brief "b" 2 .dead) 10, .merge (.brief "c" 1 .alive) 20]

theorem sample_reachable : sample.Reachable := ⟨_, _, rfl⟩

end Table

end AgentMesh.Gossip
