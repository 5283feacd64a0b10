import AgentMesh.Proofs.Gossip.Cluster
import AgentMesh.Proofs.Gossip.Knowledge

/-!
# Names that stay buried

News of a death bury a name, if they are later than what is known of its life. From then on old news of life do not
bring it back: neither single records, nor whole messages, unless the member itself asks to be let in with old news.
-/

namespace AgentMesh.Gossip.Table

variable {t : Table} {n : String} {i : Nat}

/-- The name has a tombstone, at this incarnation or a later one. -/
def Buries (t : Table) (n : String) (i : Nat) : Prop :=
  ∃ s, t.tombstones[n]? = some s ∧ i ≤ s.record.incarnation

/-- Those of the records that say of the name that it lives do so at an earlier incarnation. -/
def Outdated (rs : List MemberRecord) (n : String) (i : Nat) : Prop :=
  ∀ r ∈ rs, r.name = n → r.state.isLive = true → r.incarnation < i

theorem Buries.not_mem_peers (hw : t.WellFormed) (h : t.Buries n i) : n ∉ t.peers := by
  obtain ⟨s, hs, -⟩ := h
  rw [hw.mem_peers, hw.tombstone_iff.mp hs]
  simp

/-! ## How a name gets buried -/

theorem buries_merge (hw : t.WellFormed) {r : MemberRecord} (hne : r.name ≠ t.self.name)
    (hdead : r.state.isLive = false)
    (hpeer : ∀ p, t.peers[r.name]? = some p → p.record.incarnation < r.incarnation) (now : Nat) :
    (t.merge r now).1.Buries r.name r.incarnation := by
  have hk := standing_merge hw r now r.name
  rw [if_pos ⟨rfl, hne⟩] at hk
  suffices h : ∃ s, (t.merge r now).1.standing r.name = .buried s ∧ r.incarnation ≤ s.record.incarnation by
    obtain ⟨s, hs, hle⟩ := h
    exact ⟨s, (hw.merge r now).tombstone_iff.mpr hs, hle⟩
  rw [hk]
  have hfirst : (Standing.first r now).1 = .buried ⟨r, now⟩ := by simp [Standing.first, hdead]
  cases hold : t.standing r.name with
  | unknown => exact ⟨⟨r, now⟩, hfirst, Nat.le_refl _⟩
  | listed p =>
      have hlt := hpeer p (hw.peer_iff.mpr hold)
      have hs : r.supersedes p.record = true := by simp [MemberRecord.supersedes, hlt]
      exact ⟨⟨r, now⟩, by simp [Standing.hear, hs, hdead], Nat.le_refl _⟩
  | buried s =>
      by_cases hi : r.incarnation ≤ s.record.incarnation
      · exact ⟨s, by simp [Standing.hear, hi], hi⟩
      · exact ⟨⟨r, now⟩, by simpa [Standing.hear, hi] using hfirst, Nat.le_refl _⟩

/-! ## How it stays buried -/

theorem Buries.apply (hw : t.WellFormed) (h : t.Buries n i) {op : Op} (hd : ¬ op.Drops t n)
    (hlate : ∀ r now, op = .merge r now → r.name = n → r.state.isLive = true → r.incarnation < i) :
    (t.apply op).Buries n i := by
  obtain ⟨s, hs, hle⟩ := h
  rcases buried_apply hw (hw.tombstone_iff.mp hs) hd with ⟨s', hs', hle'⟩ | ⟨r, now, rfl, hr, hl, hlt⟩
  · exact ⟨s', (hw.apply op).tombstone_iff.mpr hs', hle.trans hle'⟩
  · have hri := hlate r now rfl hr hl
    omega

theorem standing_run_acts (hw : t.WellFormed) {k : Standing} (h : t.standing n = k) {acts : List Act}
    (hacts : ∀ a ∈ acts, a.onStanding n k = k) : (t.run (acts.map .act)).standing n = k := by
  induction acts generalizing t with
  | nil => exact h
  | cons a acts ih =>
      refine ih (hw.act a) ?_ fun a' ha' => hacts a' (List.mem_cons_of_mem _ ha')
      rw [Table.apply, standing_act hw, h]
      exact hacts a List.mem_cons_self

theorem Buries.mergeAll (hw : t.WellFormed) (h : t.Buries n i) {rs : List MemberRecord} (hrs : Outdated rs n i)
    (now : Nat) : (t.run (rs.map (.merge · now))).Buries n i := by
  induction rs generalizing t with
  | nil => exact h
  | cons r rs ih =>
      refine ih (hw.merge r now) ?_ fun r' hr' => hrs r' (List.mem_cons_of_mem _ hr')
      have hkeeps : ¬ (Op.merge r now).Drops t n := id
      refine h.apply hw hkeeps ?_
      rintro _ _ ⟨⟩
      exact hrs r List.mem_cons_self

/-- A member that says of itself that it is gone is buried by its message, whatever else the message tells. -/
theorem buries_run_ops (hw : t.WellFormed) {m : Message} (hne : m.sender.name ≠ t.self.name)
    (hdead : m.sender.state.isLive = false)
    (hpeer : ∀ p, t.peers[m.sender.name]? = some p → p.record.incarnation < m.sender.incarnation)
    (hrs : Outdated m.records m.sender.name m.sender.incarnation) (now : Nat) :
    (t.run (m.ops now)).Buries m.sender.name m.sender.incarnation := by
  have hmembers : Outdated m.members m.sender.name m.sender.incarnation :=
    fun r hr => hrs r (List.mem_cons_of_mem _ hr)
  -- The tombstone that a join request lifts is put up again by the sender's own record.
  have htold {u : Table} (hu : u.WellFormed) (hself : u.self = t.self) (hpeers : u.peers = t.peers) :
      (u.run (m.records.map (.merge · now))).Buries m.sender.name m.sender.incarnation := by
    rw [← hself] at hne
    rw [← hpeers] at hpeer
    exact (buries_merge hu hne hdead hpeer now).mergeAll (hu.merge _ now) hmembers now
  cases m with
  | join s =>
      have hw' := hw.act (.forget s.name)
      exact htold hw' rfl rfl
  | _ => exact htold hw rfl rfl

/-- Of all messages, only a join request of the buried member lifts its tombstone. -/
theorem Buries.run_ops (hw : t.WellFormed) (h : t.Buries n i) {m : Message} (hrs : Outdated m.records n i)
    (hjoin : ∀ s, m = .join s → s.name ≠ n) (now : Nat) : (t.run (m.ops now)).Buries n i := by
  cases m with
  | join s =>
      have hforget : (t.apply (.act (.forget s.name))).Buries n i := h.apply hw (hjoin s rfl) (by simp)
      exact hforget.mergeAll (hw.apply _) hrs now
  | _ => exact h.mergeAll hw hrs now

end AgentMesh.Gossip.Table
