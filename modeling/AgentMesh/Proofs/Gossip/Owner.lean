import AgentMesh.Proofs.Gossip.Run

/-!
# What a node says of itself

Whatever happens to a table, its own record only moves forward. A node that has left says so for ever, and it
never says two different things at the same incarnation.
-/

namespace AgentMesh.Gossip

/-- `s'` may be what a node says of itself some time after `s`. -/
structure MemberRecord.Precedes (s s' : MemberRecord) : Prop where
  name : s.name = s'.name
  rpcPort : s.rpcPort = s'.rpcPort
  incarnation : s.incarnation ≤ s'.incarnation
  heartbeat : s.heartbeat ≤ s'.heartbeat
  profile : s.incarnation = s'.incarnation → s.profile = s'.profile
  left : s.state = .left → s'.state = .left

namespace MemberRecord.Precedes

theorem refl (s : MemberRecord) : s.Precedes s :=
  ⟨rfl, rfl, Nat.le_refl _, Nat.le_refl _, fun _ => rfl, id⟩

theorem trans {s s' s'' : MemberRecord} (h : s.Precedes s') (h' : s'.Precedes s'') : s.Precedes s'' where
  name := h.name.trans h'.name
  rpcPort := h.rpcPort.trans h'.rpcPort
  incarnation := Nat.le_trans h.incarnation h'.incarnation
  heartbeat := Nat.le_trans h.heartbeat h'.heartbeat
  profile he := by
    -- Equal incarnations at both ends leave no room for another one between them.
    have hi := h.incarnation
    have hi' := h'.incarnation
    exact (h.profile (by omega)).trans (h'.profile (by omega))
  left hl := h'.left (h.left hl)

end MemberRecord.Precedes

namespace Table

open MemberRecord

variable {t : Table}

theorem precedes_act (t : Table) (a : Act) : t.self.Precedes (t.act a).self := by
  cases a with
  | beat => exact ⟨rfl, rfl, Nat.le_refl _, Nat.le_succ _, fun _ => rfl, id⟩
  | setProfile profile =>
      exact ⟨rfl, rfl, Nat.le_succ _, Nat.le_refl _, fun h => absurd h (Nat.ne_of_lt (Nat.lt_succ_self _)), id⟩
  | leave =>
      simp only [Table.act, Table.leave]
      split
      · exact .refl _
      · exact ⟨rfl, rfl, Nat.le_succ _, Nat.le_refl _, fun _ => rfl, fun _ => rfl⟩
  | setAddr addr => exact ⟨rfl, rfl, Nat.le_refl _, Nat.le_refl _, fun _ => rfl, id⟩
  | _ => exact .refl _

theorem precedes_merge (t : Table) (r : MemberRecord) (now : Nat) : t.self.Precedes (t.merge r now).1.self := by
  rw [self_merge]
  split
  · rename_i hd
    obtain ⟨-, -, hi⟩ := hd
    refine ⟨rfl, rfl, ?_, Nat.le_refl _, fun _ => rfl, id⟩
    show t.self.incarnation ≤ r.incarnation + 1
    omega
  · exact .refl _

theorem precedes_apply (t : Table) (op : Op) : t.self.Precedes (t.apply op).self := by
  cases op with
  | act a => exact precedes_act t a
  | merge r now => exact precedes_merge t r now

theorem precedes_run (t : Table) (ops : List Op) : t.self.Precedes (t.run ops).self := by
  induction ops generalizing t with
  | nil => exact .refl _
  | cons op ops ih => exact (precedes_apply t op).trans (ih (t.apply op))

/-- What a node has once answered, or let pass, it does not answer later. -/
theorem not_disputes_of_precedes {r s s' : MemberRecord} (h : s.Precedes s') (hd : ¬ Disputes r s) :
    ¬ Disputes r s' := by
  rintro ⟨hn, hl, hi⟩
  have hle := h.incarnation
  refine hd ⟨hn.trans h.name.symm, fun hs => hl (h.left hs), ?_⟩
  rcases hi with hi | ⟨hi, ha⟩
  · exact Or.inl (by omega)
  · rcases Nat.lt_or_eq_of_le hle with hlt | he
    · exact Or.inl (by omega)
    · exact Or.inr ⟨by omega, ha⟩

theorem not_disputes_merge (t : Table) (r : MemberRecord) (now : Nat) :
    ¬ Disputes r (t.merge r now).1.self := by
  rw [self_merge]
  split
  · rintro ⟨-, -, hi⟩
    simp only at hi
    omega
  · assumption

/-- Once a node has heard some news about itself, they do not dispute it any more. -/
theorem not_disputes_run {ops : List Op} {r : MemberRecord} {now : Nat} (h : .merge r now ∈ ops) :
    ¬ Disputes r (t.run ops).self := by
  induction ops generalizing t with
  | nil => cases h
  | cons op ops ih =>
      rcases List.mem_cons.mp h with rfl | h
      · exact not_disputes_of_precedes (precedes_run _ ops) (not_disputes_merge t r now)
      · exact ih h

/-! ## A node that stays -/

theorem state_apply {op : Op} (h : op ≠ .act .leave) : (t.apply op).self.state = t.self.state := by
  cases op with
  | act a =>
      cases a with
      | leave => exact absurd rfl h
      | _ => rfl
  | merge r now =>
      rw [apply, self_merge]
      split <;> rfl

theorem state_run {ops : List Op} (h : .act .leave ∉ ops) : (t.run ops).self.state = t.self.state := by
  induction ops generalizing t with
  | nil => rfl
  | cons op ops ih =>
      rw [List.mem_cons, not_or] at h
      obtain ⟨hop, hops⟩ := h
      rw [run_cons, ih hops, state_apply (Ne.symm hop)]

/-- Leaving takes a new incarnation. -/
theorem incarnation_lt_apply {op : Op} (h : t.self.state ≠ .left) (h' : (t.apply op).self.state = .left) :
    t.self.incarnation < (t.apply op).self.incarnation := by
  by_cases hop : op = .act .leave
  · subst hop
    simp [apply, Table.act, leave, h]
  · rw [state_apply hop] at h'
    exact absurd h' h

theorem incarnation_lt_run {ops : List Op} (h : t.self.state ≠ .left) (h' : (t.run ops).self.state = .left) :
    t.self.incarnation < (t.run ops).self.incarnation := by
  induction ops generalizing t with
  | nil => exact absurd h' h
  | cons op ops ih =>
      have hop := (precedes_apply t op).incarnation
      have hops := (precedes_run (t.apply op) ops).incarnation
      by_cases hleft : (t.apply op).self.state = .left
      · exact Nat.lt_of_lt_of_le (incarnation_lt_apply h hleft) hops
      · exact Nat.lt_of_le_of_lt hop (ih hleft h')

theorem state_run_or_left (t : Table) (ops : List Op) :
    (t.run ops).self.state = t.self.state ∨ (t.run ops).self.state = .left := by
  induction ops generalizing t with
  | nil => exact Or.inl rfl
  | cons op ops ih =>
      by_cases hop : op = .act .leave
      · have hleft : (t.apply op).self.state = .left := by
          subst hop
          simp only [apply, Table.act, leave]
          split
          · assumption
          · rfl
        exact Or.inr ((precedes_run (t.apply op) ops).left hleft)
      · have h := ih (t.apply op)
        rwa [state_apply hop] at h

/-- Some run of a node that began alive leads to the table. -/
def Started (t : Table) : Prop :=
  ∃ self ops, self.state = .alive ∧ t = (new self).run ops

theorem Started.reachable (h : t.Started) : t.Reachable := by
  obtain ⟨self, ops, -, rfl⟩ := h
  exact ⟨self, ops, rfl⟩

theorem Started.alive (h : t.Started) (hleft : t.self.state ≠ .left) : t.self.state = .alive := by
  obtain ⟨self, ops, hself, rfl⟩ := h
  exact ((state_run_or_left (new self) ops).resolve_right hleft).trans hself

end Table

end AgentMesh.Gossip
