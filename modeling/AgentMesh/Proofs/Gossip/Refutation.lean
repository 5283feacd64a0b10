import AgentMesh.Proofs.Gossip.Knowledge
import AgentMesh.Proofs.Gossip.Views

/-!
# Refutation

A node that is alive outbids whatever disputes it. So as long as it does not leave, nothing that it has heard about
itself is in a later version than its own record, and its record wins wherever such news are kept.
-/

namespace AgentMesh.Gossip

namespace MemberRecord

/-- What does not dispute a node that has not left is not in a later version than the node's own record. -/
theorem version_le_of_not_disputes {r s : MemberRecord} (hname : r.name = s.name) (hs : s.state ≠ .left)
    (hd : ¬ Table.Disputes r s) : r.version ≤ s.version := by
  rw [version_le_iff]
  by_cases hlt : r.incarnation < s.incarnation
  · exact Or.inl hlt
  · have hle : r.incarnation ≤ s.incarnation := by
      by_contra hgt
      exact hd ⟨hname, hs, Or.inl (by omega)⟩
    have heq : r.incarnation = s.incarnation := by omega
    have hstate : r.state = .alive := by
      by_contra hr
      exact hd ⟨hname, hs, Or.inr ⟨heq, hr⟩⟩
    refine Or.inr ⟨heq, ?_⟩
    rw [hstate]
    exact Nat.zero_le _

theorem Precedes.version_le {s s' : MemberRecord} (h : s.Precedes s') (hstate : s'.state = s.state) :
    s.version ≤ s'.version := by
  rw [version_le_iff, hstate]
  have hle := h.incarnation
  omega

end MemberRecord

namespace Table

variable {t n : Table}

/-! ## What a node has heard about itself -/

theorem version_self_le_run {ops : List Op} (h : .act .leave ∉ ops) : t.self.version ≤ (t.run ops).self.version :=
  (precedes_run t ops).version_le (state_run h)

theorem version_le_self_run {ops : List Op} {r : MemberRecord} {now : Nat} (h : .merge r now ∈ ops)
    (hname : r.name = t.self.name) (hstate : (t.run ops).self.state ≠ .left) :
    r.version ≤ (t.run ops).self.version :=
  MemberRecord.version_le_of_not_disputes (hname.trans (name_run t ops).symm) hstate (not_disputes_run h)

/-! ## A member that is listed as alive -/

/-- The member is a peer, alive, at the given incarnation, and has no tombstone. -/
structure ListsAlive (t : Table) (name : String) (incarnation : Nat) : Prop where
  peer : ∃ p, t.peers[name]? = some p ∧ p.record.state = .alive ∧ p.record.incarnation = incarnation
  not_buried : name ∉ t.tombstones

/-- The version of a record of life tells the whole of `ListsAlive`. -/
theorem listsAlive_of_version (hw : t.WellFormed) {r : MemberRecord} (hr : r.state = .alive) {name : String}
    (hv : t.version name = r.version) : t.ListsAlive name r.incarnation := by
  have hfits := hw.fits name
  rw [version] at hv
  cases hk : t.standing name with
  | unknown =>
      rw [hk] at hv
      exact absurd hv WithBot.bot_ne_coe
  | listed p =>
      rw [hk] at hv
      have hv : (p.record.incarnation, p.record.state.severity) = (r.incarnation, r.state.severity) :=
        congrArg ofLex (WithBot.coe_inj.mp hv)
      obtain ⟨hinc, hseverity⟩ := Prod.mk.inj hv
      refine ⟨⟨p, hw.peer_iff.mpr hk, ?_, hinc⟩, ?_⟩
      · rw [hr] at hseverity
        cases hstate : p.record.state <;> simp_all [MemberState.severity]
      · rw [hw.mem_tombstones, hk]
        simp
  | buried s =>
      rw [hk] at hv hfits
      have hv : (s.record.incarnation, s.record.state.severity) = (r.incarnation, r.state.severity) :=
        congrArg ofLex (WithBot.coe_inj.mp hv)
      have hseverity := (Prod.mk.inj hv).2
      rw [MemberState.severity_eq_two.mpr hfits.2, hr] at hseverity
      cases hseverity

/-! ## Refutation -/

theorem version_of_mem_records (hw : t.WellFormed) {r : MemberRecord}
    (hr : r ∈ t.peerRecords ∨ r ∈ t.tombstoneRecords) : t.version r.name = r.version := by
  rcases hr with hr | hr
  · obtain ⟨m, p, hp, rfl⟩ := mem_peerRecords.mp hr
    rw [(hw.coherent.peer m p hp).1, version, hw.peer_iff.mp hp, Standing.version_listed]
  · obtain ⟨m, s, hs, rfl⟩ := mem_tombstoneRecords.mp hr
    rw [(hw.coherent.tombstone m s hs).1, version, hw.tombstone_iff.mp hs, Standing.version_buried]

/--
Refutation always wins. Whatever another node keeps about a node that is alive, once the node has heard of it and as
long as it does not leave, its own record makes the other node list it as alive, at its current incarnation.
-/
theorem refutation_wins (ht : t.Reachable) (halive : n.self.state = .alive) (hne : n.self.name ≠ t.self.name)
    {r : MemberRecord} (hr : r ∈ t.peerRecords ∨ r ∈ t.tombstoneRecords) (hname : r.name = n.self.name)
    {ops : List Op} (hstay : .act .leave ∉ ops) (now now' : Nat) :
    let n' := (n.merge r now).1.run ops
    (t.merge n'.self now').1.ListsAlive n.self.name n'.self.incarnation := by
  intro n'
  have hw := ht.wellFormed
  have hrun : n' = n.run (.merge r now :: ops) := rfl
  have hname' : n'.self.name = n.self.name := by rw [hrun, name_run]
  have hstate : n'.self.state = .alive := by
    rw [hrun, state_run (by simpa using hstay), halive]
  have hheard : .merge r now ∈ Op.merge r now :: ops := List.mem_cons_self
  have hle : r.version ≤ n'.self.version :=
    version_le_self_run (t := n) hheard hname (by rw [← hrun, hstate]; decide)
  refine listsAlive_of_version (hw.merge n'.self now') hstate ?_
  rw [version_merge hw n'.self now' hne, if_pos hname', ← hname, version_of_mem_records hw hr]
  exact max_eq_right (WithBot.coe_le_coe.mpr hle)

/-- A node starts again that `sample` has buried at a later incarnation. -/
def sampleBuried : Table :=
  new (.brief "b" 0 .alive)

/-- What it does once it has heard that it was buried. -/
def sampleStay : List Op :=
  [.act .beat, .act (.setProfile { status := .busy }), .merge (.brief "b" 4 .suspect) 20]

theorem refutation_wins_sample : sample.Reachable ∧ sampleBuried.self.state = .alive ∧
    sampleBuried.self.name ≠ sample.self.name ∧ .brief "b" 2 .dead ∈ sample.tombstoneRecords ∧
    .act .leave ∉ sampleStay ∧
    (sample.merge ((sampleBuried.merge (.brief "b" 2 .dead) 15).1.run sampleStay).self 30).1.ListsAlive "b" 5 := by
  have hne : sampleBuried.self.name ≠ sample.self.name := by decide +kernel
  have hr : .brief "b" 2 .dead ∈ sample.tombstoneRecords := by decide +kernel
  have hstay : .act .leave ∉ sampleStay := by decide
  exact ⟨sample_reachable, rfl, hne, hr, hstay,
    refutation_wins sample_reachable rfl hne (Or.inr hr) rfl hstay 15 30⟩

end Table

end AgentMesh.Gossip
