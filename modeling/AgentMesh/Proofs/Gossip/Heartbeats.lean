import AgentMesh.Proofs.Gossip.Detection

/-!
# Heartbeats

While a peer stays at one incarnation, its heartbeat is to tell new news from old: it should only rise, and only a
heartbeat beyond all earlier ones should count as a sign of life. Both hold as long as nobody calls a peer suspect with
an older heartbeat than is known. Such a record takes the place of what is known, with its older heartbeat, and after it
old news count as new.
-/

namespace AgentMesh.Gossip

theorem MemberRecord.called_of_supersedes {r s : MemberRecord} (h : r.supersedes s = true)
    (hi : r.incarnation = s.incarnation) (hlive : r.state.isLive = true) :
    s.state = .alive ∧ r.state = .suspect := by
  have hlt : s.state.severity < r.state.severity := by
    simpa [MemberRecord.supersedes, hi] using h
  cases hr : r.state <;> cases hs : s.state <;> simp_all [MemberState.severity, MemberState.isLive]

namespace Standing

variable {n : String} {k k' : Standing} {i beats : Nat}

/-- At least as far as this heartbeat of this incarnation. A tombstone is beyond all heartbeats of its incarnation. -/
def Reaches (i beats : Nat) : Standing → Prop
  | unknown => False
  | listed p => i < p.record.incarnation ∨ (p.record.incarnation = i ∧ beats ≤ p.record.heartbeat)
  | buried s => i ≤ s.record.incarnation

theorem Reaches.le_incarnation (h : k.Reaches i beats) {r : MemberRecord} (hr : k.record? = some r) :
    i ≤ r.incarnation := by
  cases k with
  | unknown => cases hr
  | listed p =>
      cases hr
      rcases h with hlt | ⟨heq, -⟩
      · exact hlt.le
      · exact heq.ge
  | buried s =>
      cases hr
      exact h

/-- What is later has got as far, if heartbeats do not fall where the incarnation stays the same. -/
theorem Reaches.later (h : k.Reaches i beats) (hf : k.Fits n) (hf' : k'.Fits n) (hle : k.version ≤ k'.version)
    (hbeats : ∀ p p', k = listed p → k' = listed p' → p.record.incarnation = i → p'.record.incarnation = i →
      p.record.heartbeat ≤ p'.record.heartbeat) : k'.Reaches i beats := by
  obtain ⟨r, hr⟩ : ∃ r, k.record? = some r := by
    cases k with
    | unknown => exact absurd h id
    | listed p => exact ⟨_, rfl⟩
    | buried s => exact ⟨_, rfl⟩
  have hreach := h.le_incarnation hr
  rw [version_of_record? hr] at hle
  cases k' with
  | unknown => exact absurd hle (by simp)
  | buried s' => exact hreach.trans (MemberRecord.incarnation_le_of_version_le (WithBot.coe_le_coe.mp hle))
  | listed p' =>
      have hle := WithBot.coe_le_coe.mp hle
      rcases (hreach.trans (MemberRecord.incarnation_le_of_version_le hle)).lt_or_eq with hlt | heq
      · exact Or.inl hlt
      · refine Or.inr ⟨heq.symm, ?_⟩
        cases k with
        | unknown => exact absurd h id
        | listed p =>
            cases hr
            rcases h with hlt | ⟨hi, hle'⟩
            · have := MemberRecord.incarnation_le_of_version_le hle
              omega
            · exact hle'.trans (hbeats p p' rfl rfl hi heq.symm)
        | buried s =>
            -- A live record at the incarnation of a tombstone is never later than the tombstone.
            cases hr
            have hs := MemberState.severity_eq_two.mpr hf.2
            have hp := MemberState.severity_lt_two.mpr hf'.2
            rcases MemberRecord.version_le_iff.mp hle with hlt | ⟨-, hsevere⟩
            · omega
            · omega

end Standing

namespace Table

variable {t : Table} {n : String} {i beats : Nat}

/-- The peer, if it is known at this incarnation. -/
def peerAt? (t : Table) (n : String) (i : Nat) : Option Peer :=
  t.peers[n]?.filter (·.record.incarnation = i)

theorem peerAt?_eq_some {p : Peer} :
    t.peerAt? n i = some p ↔ t.peers[n]? = some p ∧ p.record.incarnation = i := by
  simp [peerAt?, Option.filter_eq_some_iff]

/-- The step forgets all that was known of the name. -/
def Forgets (t : Table) (n : String) (op : Op) : Prop :=
  t.standing n ≠ .unknown ∧ (t.apply op).standing n = .unknown

/-- A peer that is alive at this incarnation is called suspect, with an older heartbeat than is known. -/
def Lowers (t : Table) (n : String) (i : Nat) : Op → Prop
  | .merge r _ => r.name = n ∧ r.incarnation = i ∧ r.state = .suspect ∧
      ∃ p ∈ t.peerAt? n i, p.record.state = .alive ∧ r.heartbeat < p.record.heartbeat
  | .act _ => False

/-- No step of the run forgets the name or lowers its heartbeat at this incarnation. -/
def Steady (t : Table) (n : String) (i : Nat) : List Op → Prop
  | [] => True
  | op :: ops => ¬ t.Forgets n op ∧ ¬ t.Lowers n i op ∧ (t.apply op).Steady n i ops

instance (t : Table) (n : String) (op : Op) : Decidable (t.Forgets n op) :=
  inferInstanceAs (Decidable (_ ∧ _))

instance decidableLowers (t : Table) (n : String) (i : Nat) : (op : Op) → Decidable (t.Lowers n i op)
  | .merge r _ => inferInstanceAs (Decidable (r.name = n ∧ r.incarnation = i ∧ r.state = .suspect ∧
      ∃ p ∈ t.peerAt? n i, p.record.state = .alive ∧ r.heartbeat < p.record.heartbeat))
  | .act _ => .isFalse id

instance decidableSteady (t : Table) (n : String) (i : Nat) : (ops : List Op) → Decidable (t.Steady n i ops)
  | [] => .isTrue trivial
  | op :: ops =>
      have := decidableSteady (t.apply op) n i ops
      inferInstanceAs (Decidable (¬ t.Forgets n op ∧ ¬ t.Lowers n i op ∧ (t.apply op).Steady n i ops))

theorem steady_append {ops ops' : List Op} :
    t.Steady n i (ops ++ ops') ↔ t.Steady n i ops ∧ (t.run ops).Steady n i ops' := by
  induction ops generalizing t with
  | nil => simp [Steady]
  | cons op ops ih => simp [Steady, ih, and_assoc]

/-! ## One step at one incarnation -/

theorem not_joined_of_peer (hw : t.WellFormed) {r : MemberRecord} {p : Peer} (hp : t.peers[r.name]? = some p)
    (now : Nat) : (t.merge r now).2 ≠ .joined := by
  rw [outcome_merge hw (hw.ne_self_of_peer hp), hw.peer_iff.mp hp]
  simp only [Standing.hear]
  split
  · simp
  · split
    · simp
    · split <;> simp

/--
What a step makes of a peer that stays at its incarnation: news about it refresh it or call it suspect, and all else
leaves its heartbeat and the time at which it was last heard of.
-/
theorem stay_apply (hw : t.WellFormed) {op : Op} {p p' : Peer} (hp : t.peerAt? n i = some p)
    (hp' : (t.apply op).peerAt? n i = some p') :
    (∃ r now, op = .merge r now ∧ r.name = n ∧
      ((r.supersedes p.record = false ∧ p' = p.refresh r now) ∨
        (r.incarnation = i ∧ p.record.state = .alive ∧ r.state = .suspect ∧ p' = p.replace r now))) ∨
    ((∀ r now, op = .merge r now → r.name ≠ n) ∧
      p'.record.heartbeat = p.record.heartbeat ∧ p'.lastHeard = p.lastHeard) := by
  obtain ⟨hp, hi⟩ := peerAt?_eq_some.mp hp
  obtain ⟨hp', hi'⟩ := peerAt?_eq_some.mp hp'
  have hlive := ((hw.apply op).fits_of_peer hp').2
  cases peerStep_apply hw hp' with
  | joined hname hout => exact absurd hout (not_joined_of_peer hw (hname ▸ hp) _)
  | @refreshed r now q hname hq hs =>
      cases hp.symm.trans hq
      exact Or.inl ⟨r, now, rfl, hname, Or.inl ⟨hs, rfl⟩⟩
  | @replaced r now q hname hq hs =>
      cases hp.symm.trans hq
      have hcalled := MemberRecord.called_of_supersedes hs (hi'.trans hi.symm) hlive
      exact Or.inl ⟨r, now, rfl, hname, Or.inr ⟨hi', hcalled.1, hcalled.2, rfl⟩⟩
  | @ticked now suspectAfter deadAfter q hq =>
      cases hp.symm.trans hq
      refine Or.inr ⟨by simp, ?_⟩
      simp only [Peer.afterTick]
      split <;> exact ⟨rfl, rfl⟩
  | kept hq hop =>
      cases hp.symm.trans hq
      exact Or.inr ⟨hop, rfl, rfl⟩

theorem heartbeat_le_refresh (p : Peer) (r : MemberRecord) (now : Nat) :
    p.record.heartbeat ≤ (p.refresh r now).record.heartbeat := by
  simp only [Peer.refresh]
  split
  · rename_i h
    exact h.2.le
  · exact le_rfl

/-- The heartbeat of a peer that stays at its incarnation falls only where a call of suspicion lowers it. -/
theorem heartbeat_apply (hw : t.WellFormed) {op : Op} {p p' : Peer} (hp : t.peerAt? n i = some p)
    (hp' : (t.apply op).peerAt? n i = some p') :
    p'.record.heartbeat < p.record.heartbeat ↔ t.Lowers n i op := by
  rcases stay_apply hw hp hp' with ⟨r, now, rfl, hname, hstep⟩ | ⟨hother, hsame, -⟩
  · rcases hstep with ⟨hs, rfl⟩ | ⟨hi, halive, hsuspect, rfl⟩
    · refine iff_of_false (heartbeat_le_refresh p r now).not_gt ?_
      rintro ⟨-, hi, hsuspect, q, hq, halive, -⟩
      cases hp.symm.trans (Option.mem_def.mp hq)
      have hi' := (peerAt?_eq_some.mp hp).2
      simp [MemberRecord.supersedes, hi, hi', hsuspect, halive, MemberState.severity] at hs
    · simp [Lowers, hname, hi, hsuspect, hp, halive, Peer.replace]
  · refine iff_of_false (by omega) ?_
    cases op with
    | act a => exact id
    | merge r now => exact fun h => hother r now rfl h.1

/-- Only news with a heartbeat beyond the known one are a sign of life of a peer that stays at its incarnation. -/
theorem newer_of_lastHeard_ne (hw : t.WellFormed) {op : Op} {p p' : Peer} (hp : t.peerAt? n i = some p)
    (hp' : (t.apply op).peerAt? n i = some p') (hheard : p'.lastHeard ≠ p.lastHeard) :
    ∃ r now, op = .merge r now ∧ r.name = n ∧ r.incarnation = i ∧ p.record.heartbeat < r.heartbeat ∧
      p'.lastHeard = now := by
  rcases stay_apply hw hp hp' with ⟨r, now, rfl, hname, hstep⟩ | ⟨-, -, hsame⟩
  · refine ⟨r, now, rfl, hname, ?_⟩
    rcases hstep with ⟨-, rfl⟩ | ⟨-, -, hsuspect, rfl⟩
    · by_cases hbeat : r.incarnation = p.record.incarnation ∧ p.record.heartbeat < r.heartbeat
      · exact ⟨hbeat.1.trans (peerAt?_eq_some.mp hp).2, hbeat.2, by simp [Peer.refresh, hbeat]⟩
      · exact absurd (by rw [Peer.refresh, if_neg hbeat]) hheard
    · exact absurd (by simp [Peer.replace, hsuspect]) hheard
  · exact absurd hsame hheard

theorem heartbeat_le_merge (hw : t.WellFormed) {r : MemberRecord} {now : Nat} {p' : Peer} (hname : r.name = n)
    (hp' : (t.merge r now).1.peerAt? n r.incarnation = some p') : r.heartbeat ≤ p'.record.heartbeat := by
  obtain ⟨hp', hi'⟩ := peerAt?_eq_some.mp hp'
  cases peerStep_merge hw hp' with
  | joined => exact le_rfl
  | @refreshed _ _ p =>
      have hi : r.incarnation = p.record.incarnation := by
        rw [← hi', Peer.refresh]
        split <;> rfl
      by_cases hbeat : p.record.heartbeat < r.heartbeat
      · simp [Peer.refresh, hi, hbeat]
      · rw [Peer.refresh, if_neg fun h => hbeat h.2]
        exact Nat.not_lt.mp hbeat
  | replaced => exact le_rfl
  | kept _ hop => exact absurd hname (hop r now rfl)

/-! ## How far a name has got -/

theorem version_le_of_not_forgets (hw : t.WellFormed) {op : Op} (h : ¬ t.Forgets n op) :
    t.version n ≤ (t.apply op).version n := by
  by_cases hk : (t.apply op).standing n = .unknown
  · have hold : t.standing n = .unknown := by
      by_contra hold
      exact h ⟨hold, hk⟩
    simp [version, hold]
  · cases op with
    | merge r now => exact version_le_merge hw r now n
    | act a =>
        -- What drops a tombstone of the name would leave it unknown, so these acts change nothing here.
        rw [Table.apply, standing_act hw] at hk
        rw [version, version, Table.apply, standing_act hw]
        cases a with
        | tick now suspectAfter deadAfter => exact Standing.version_le_ripen _ now suspectAfter deadAfter
        | purge now ttl =>
            cases hs : t.standing n with
            | buried s =>
                rw [hs] at hk
                simp only [Act.onStanding, Standing.expire] at hk ⊢
                split
                · exact le_rfl
                · rename_i hold
                  exact absurd (if_neg hold) hk
            | _ => exact le_rfl
        | forget m =>
            cases hs : t.standing n with
            | buried s =>
                rw [hs] at hk
                simp only [Act.onStanding, Standing.pardon] at hk ⊢
                split
                · rename_i hm
                  exact absurd (if_pos hm) hk
                · exact le_rfl
            | _ => simp [Act.onStanding, Standing.pardon]
        | _ => exact le_rfl

theorem reaches_of_peer (hw : t.WellFormed) {p : Peer} (hp : t.peerAt? n i = some p) :
    (t.standing n).Reaches i p.record.heartbeat := by
  obtain ⟨hp, hi⟩ := peerAt?_eq_some.mp hp
  rw [hw.peer_iff.mp hp]
  exact Or.inr ⟨hi, le_rfl⟩

theorem heartbeat_le_of_reaches (hw : t.WellFormed) (h : (t.standing n).Reaches i beats) {p : Peer}
    (hp : t.peerAt? n i = some p) : beats ≤ p.record.heartbeat := by
  obtain ⟨hp, hi⟩ := peerAt?_eq_some.mp hp
  rw [hw.peer_iff.mp hp] at h
  rcases h with hlt | ⟨-, hle⟩
  · omega
  · exact hle

/-- A merged record takes the name as far as its own heartbeat. -/
theorem reaches_merge (hw : t.WellFormed) {r : MemberRecord} (now : Nat) (hname : r.name = n)
    (hself : n ≠ t.self.name) : ((t.merge r now).1.standing n).Reaches r.incarnation r.heartbeat := by
  have hle := le_version_merge hw now hname hself
  rw [version] at hle
  cases hk : (t.merge r now).1.standing n with
  | unknown => simp [hk] at hle
  | buried s =>
      rw [hk] at hle
      exact MemberRecord.incarnation_le_of_version_le (WithBot.coe_le_coe.mp hle)
  | listed p =>
      rw [hk] at hle
      have hle := MemberRecord.incarnation_le_of_version_le (WithBot.coe_le_coe.mp hle)
      rcases hle.lt_or_eq with hlt | heq
      · exact Or.inl hlt
      · have hp := peerAt?_eq_some.mpr ⟨(hw.merge r now).peer_iff.mpr hk, heq.symm⟩
        exact Or.inr ⟨heq.symm, heartbeat_le_merge hw hname hp⟩

theorem reaches_apply (hw : t.WellFormed) {op : Op} (h : (t.standing n).Reaches i beats)
    (hforgets : ¬ t.Forgets n op) (hlowers : ¬ t.Lowers n i op) : ((t.apply op).standing n).Reaches i beats := by
  have hw' := hw.apply op
  refine h.later (hw.fits n) (hw'.fits n) (version_le_of_not_forgets hw hforgets) fun p p' hk hk' hi hi' => ?_
  have hp := peerAt?_eq_some.mpr ⟨hw.peer_iff.mpr hk, hi⟩
  have hp' := peerAt?_eq_some.mpr ⟨hw'.peer_iff.mpr hk', hi'⟩
  exact Nat.not_lt.mp ((heartbeat_apply hw hp hp').not.mpr hlowers)

theorem Steady.reaches_run (hw : t.WellFormed) {ops : List Op} (hs : t.Steady n i ops)
    (h : (t.standing n).Reaches i beats) : ((t.run ops).standing n).Reaches i beats := by
  induction ops generalizing t with
  | nil => exact h
  | cons op ops ih =>
      obtain ⟨hforgets, hlowers, hs⟩ := hs
      exact ih (hw.apply op) hs (reaches_apply hw h hforgets hlowers)

theorem Steady.version_le_run (hw : t.WellFormed) {ops : List Op} (hs : t.Steady n i ops) :
    t.version n ≤ (t.run ops).version n := by
  induction ops generalizing t with
  | nil => exact le_rfl
  | cons op ops ih => exact (version_le_of_not_forgets hw hs.1).trans (ih (hw.apply op) hs.2.2)

/-! ## Old news -/

/-- A merged record is neither later than what is known of the name from then on, nor is its heartbeat. -/
theorem Steady.of_merged (hw : t.WellFormed) {ops : List Op} (hs : t.Steady n i ops) {r : MemberRecord} {now : Nat}
    (hr : .merge r now ∈ ops) (hname : r.name = n) (hself : n ≠ t.self.name) :
    (r.version : WithBot Version) ≤ (t.run ops).version n ∧
      (r.incarnation = i → ((t.run ops).standing n).Reaches i r.heartbeat) := by
  obtain ⟨before, after, rfl⟩ := List.append_of_mem hr
  obtain ⟨-, -, -, hafter⟩ := steady_append.mp hs
  rw [run_append, run_cons]
  have hbefore := hw.run before
  have hself : n ≠ (t.run before).self.name := by rwa [name_run]
  refine ⟨(le_version_merge hbefore now hname hself).trans (hafter.version_le_run (hbefore.merge r now)), ?_⟩
  · rintro rfl
    exact hafter.reaches_run (hbefore.merge r now) (reaches_merge hbefore now hname hself)

/-- News without a new heartbeat leave a peer as it is, or they tell that it is suspect or gone. -/
theorem merge_stale (hw : t.WellFormed) {p : Peer} (hp : t.peers[n]? = some p) {r : MemberRecord} (hname : r.name = n)
    (hstale : r.incarnation = p.record.incarnation → r.heartbeat ≤ p.record.heartbeat)
    (hi : r.incarnation ≤ p.record.incarnation) (now : Nat) :
    (t.merge r now).1.peers[n]? = some p ∨
      (p.record.state = .alive ∧ ∃ q, (t.merge r now).1.peers[n]? = some q ∧ q.record.state = .suspect ∧
        q.lastHeard = p.lastHeard) ∨
      n ∈ (t.merge r now).1.tombstones := by
  have hw' := hw.merge r now
  have hk := standing_merge hw r now n
  rw [if_pos ⟨hname, hw.ne_self_of_peer hp⟩, hw.peer_iff.mp hp] at hk
  by_cases hs : r.supersedes p.record
  · have heq : r.incarnation = p.record.incarnation := by
      rcases MemberRecord.version_le_iff.mp (MemberRecord.supersedes_iff.mp hs).le with hlt | ⟨heq, -⟩
      · omega
      · exact heq.symm
    by_cases hl : r.state.isLive
    · have hcalled := MemberRecord.called_of_supersedes hs heq hl
      simp only [Standing.hear, hs, hl, Bool.not_true, Bool.false_eq_true, ↓reduceIte] at hk
      refine Or.inr (Or.inl ⟨hcalled.1, _, hw'.peer_iff.mpr hk, hcalled.2, ?_⟩)
      simp [Peer.replace, hcalled.2]
    · simp only [Standing.hear, hs, hl, Bool.not_true, Bool.not_false, Bool.false_eq_true, ↓reduceIte] at hk
      exact Or.inr (Or.inr (hw'.mem_tombstones.mpr ⟨_, hk⟩))
  · simp only [Standing.hear, hs, Bool.not_false, ↓reduceIte] at hk
    have hsame : p.refresh r now = p := by
      rw [Peer.refresh, if_neg fun hbeat => ?_]
      exact absurd (hstale hbeat.1) (by omega)
    rw [hsame] at hk
    exact Or.inl (hw'.peer_iff.mpr hk)

/-- News that are later neither by their version nor by their heartbeat do nothing. -/
theorem merge_known (hw : t.WellFormed) {p : Peer} (hp : t.peers[n]? = some p) {r : MemberRecord} (hname : r.name = n)
    (hs : r.supersedes p.record = false)
    (hstale : r.incarnation = p.record.incarnation → r.heartbeat ≤ p.record.heartbeat) (now : Nat) :
    t.merge r now = (t, .unchanged) := by
  have hself : r.name ≠ t.self.name := hname ▸ hw.ne_self_of_peer hp
  have hk : t.standing r.name = .listed p := hname ▸ hw.peer_iff.mp hp
  have hhear : (Standing.listed p).hear r now = (.listed p, .unchanged) := by
    have hbeat : ¬ (r.incarnation = p.record.incarnation ∧ p.record.heartbeat < r.heartbeat) := by
      rintro ⟨hi, hlt⟩
      exact absurd (hstale hi) (by omega)
    simp [Standing.hear, hs, Peer.refresh, hbeat]
  refine Prod.ext (WellFormed.ext (hw.merge r now) hw (self_merge_of_ne hself now) fun m => ?_) ?_
  · rw [standing_merge hw]
    split
    · rename_i hm
      rw [← hm.1, hk, hhear]
    · rfl
  · rw [outcome_merge hw hself, hk, hhear]

/-- A record about the name that carries no heartbeat of this incarnation beyond all that were merged in the run. -/
def Stale (ops : List Op) (n : String) (i : Nat) (r : MemberRecord) : Prop :=
  r.name = n ∧ (r.incarnation < i ∨ (r.incarnation = i ∧
    ∃ s now, .merge s now ∈ ops ∧ s.name = n ∧ s.incarnation = i ∧ r.heartbeat ≤ s.heartbeat))

/--
While a peer stays at one incarnation, its heartbeat falls in exactly those steps that call it suspect, when it was
alive, with an older heartbeat, and it is heard of only in news whose heartbeat is beyond the known one. In a run
without the former, in which the name was never forgotten, the heartbeat does not fall from any state to any later one,
and the time at which the peer was last heard of changes only when a record is merged whose heartbeat is beyond all that
were merged before for that name at that incarnation. A record that was merged before does nothing then, and one that is
merely late postpones nothing: if a tick would call the peer suspect without it, it does so after it too, unless the
record itself called it suspect or buried it, and if the peer would die without it, it dies after it too, unless the
record itself buried it.
-/
theorem only_new_heartbeats_count (ht : t.Reachable) (n : String) (i : Nat) :
    (∀ op p p', t.peerAt? n i = some p → (t.apply op).peerAt? n i = some p' →
      (p'.record.heartbeat < p.record.heartbeat ↔ t.Lowers n i op) ∧
      (p'.lastHeard ≠ p.lastHeard → ∃ r now, op = .merge r now ∧ r.name = n ∧ r.incarnation = i ∧
        p.record.heartbeat < r.heartbeat ∧ p'.lastHeard = now)) ∧
    ∀ ops, t.Steady n i ops →
      (∀ p p', t.peerAt? n i = some p → (t.run ops).peerAt? n i = some p' →
        p.record.heartbeat ≤ p'.record.heartbeat) ∧
      ∀ p, (t.run ops).peerAt? n i = some p →
        (∀ op p', (t.run (ops ++ [op])).peerAt? n i = some p' → p'.lastHeard ≠ p.lastHeard →
          ∃ r now, op = .merge r now ∧ r.name = n ∧ r.incarnation = i ∧ p'.lastHeard = now ∧
            ∀ s τ, .merge s τ ∈ ops → s.name = n → s.incarnation = i → s.heartbeat < r.heartbeat) ∧
        (∀ r τ now, .merge r τ ∈ ops → r.name = n → (t.run ops).merge r now = (t.run ops, .unchanged)) ∧
        ∀ r now, Stale ops n i r → ∀ now' suspectAfter deadAfter,
          ((n, .suspected) ∈ ((t.run ops).tick now' suspectAfter deadAfter).2 →
            (n, .suspected) ∈ (((t.run ops).merge r now).1.tick now' suspectAfter deadAfter).2 ∨
              (∃ q, ((t.run ops).merge r now).1.peers[n]? = some q ∧ q.record.state = .suspect ∧
                q.lastHeard = p.lastHeard) ∨
              n ∈ ((t.run ops).merge r now).1.tombstones) ∧
          ((n, .left) ∈ ((t.run ops).tick now' suspectAfter deadAfter).2 →
            (n, .left) ∈ (((t.run ops).merge r now).1.tick now' suspectAfter deadAfter).2 ∨
              n ∈ ((t.run ops).merge r now).1.tombstones) := by
  have hw := ht.wellFormed
  refine ⟨fun op p p' hp hp' => ⟨heartbeat_apply hw hp hp', newer_of_lastHeard_ne hw hp hp'⟩, fun ops hs => ?_⟩
  refine ⟨fun p p' hp hp' => ?_, fun p hp => ?_⟩
  · exact heartbeat_le_of_reaches (hw.run ops) (hs.reaches_run hw (reaches_of_peer hw hp)) hp'
  obtain ⟨hpeer, hi⟩ := peerAt?_eq_some.mp hp
  have hrun := hw.run ops
  have hself : n ≠ t.self.name := by
    simpa using hrun.ne_self_of_peer hpeer
  have hmerged {s : MemberRecord} {τ : Nat} (hs' : .merge s τ ∈ ops) (hname : s.name = n) (hsi : s.incarnation = i) :
      s.heartbeat ≤ p.record.heartbeat :=
    heartbeat_le_of_reaches hrun ((hs.of_merged hw hs' hname hself).2 hsi) hp
  refine ⟨fun op p' hp' hheard => ?_, fun r τ now hr hname => ?_, fun r now hstale now' suspectAfter deadAfter => ?_⟩
  · rw [run_append] at hp'
    obtain ⟨r, now, rfl, hname, hri, hnew, hnow⟩ := newer_of_lastHeard_ne hrun hp hp' hheard
    refine ⟨r, now, rfl, hname, hri, hnow, fun s τ hs' hsname hsi => ?_⟩
    exact (hmerged hs' hsname hsi).trans_lt hnew
  · have hle := (hs.of_merged hw hr hname hself).1
    rw [version, hrun.peer_iff.mp hpeer] at hle
    have hsupersedes : r.supersedes p.record = false := by
      by_contra hlt
      rw [Bool.not_eq_false, MemberRecord.supersedes_iff] at hlt
      exact absurd (WithBot.coe_le_coe.mp hle) hlt.not_ge
    exact merge_known hrun hpeer hname hsupersedes (fun hri => hmerged hr hname (hri.trans hi)) now
  · obtain ⟨hname, hold⟩ := hstale
    have hlate : r.incarnation = p.record.incarnation → r.heartbeat ≤ p.record.heartbeat := by
      intro hri
      rcases hold with hlt | ⟨-, s, τ, hs', hsname, hsi, hle⟩
      · omega
      · exact hle.trans (hmerged hs' hsname hsi)
    have hri : r.incarnation ≤ p.record.incarnation := by
      rcases hold with hlt | ⟨heq, -⟩ <;> omega
    simp only [suspected_mem_tick, left_mem_tick, hpeer, Option.some.injEq, exists_eq_left']
    rcases merge_stale hrun hpeer hname hlate hri now with hsame | ⟨halive, hcalled⟩ | hgone
    · exact ⟨fun h => Or.inl ⟨p, hsame, h⟩, fun h => Or.inl ⟨p, hsame, h⟩⟩
    · exact ⟨fun _ => Or.inr (Or.inl hcalled), fun h => by simp [Peer.dies, halive] at h⟩
    · exact ⟨fun _ => Or.inr (Or.inr hgone), fun _ => Or.inr hgone⟩

def sampleBeat (beats : Nat) : MemberRecord :=
  { MemberRecord.brief "b" 0 .alive with heartbeat := beats }

/-- A member is heard of twice and then falls silent. -/
def sampleBeats : List Op :=
  [.merge (sampleBeat 1) 0, .act (.forget "b"), .merge (sampleBeat 5) 100, .act (.tick 6000 5000 10000)]

def sampleBeaten : Peer where
  record := { sampleBeat 5 with state := .suspect }
  lastHeard := 100
  stateSince := 6000

theorem only_new_heartbeats_count_sample :
    let t := (new (.brief "a" 0 .alive)).run sampleBeats
    (new (.brief "a" 0 .alive)).Reachable ∧ (new (.brief "a" 0 .alive)).Steady "b" 0 sampleBeats ∧
    t.peerAt? "b" 0 = some sampleBeaten ∧ t.merge (sampleBeat 1) 9000 = (t, .unchanged) ∧
    (∀ s τ, .merge s τ ∈ sampleBeats → s.name = "b" → s.incarnation = 0 → s.heartbeat < 7) ∧
    Stale sampleBeats "b" 0 (sampleBeat 3) ∧ ("b", .left) ∈ (t.tick 16000 5000 10000).2 ∧
    (("b", .left) ∈ ((t.merge (sampleBeat 3) 9000).1.tick 16000 5000 10000).2 ∨
      "b" ∈ (t.merge (sampleBeat 3) 9000).1.tombstones) := by
  intro t
  have hreach : (new (.brief "a" 0 .alive)).Reachable := ⟨_, [], rfl⟩
  have hsteady : (new (.brief "a" 0 .alive)).Steady "b" 0 sampleBeats := by decide +kernel
  have hpeer : t.peerAt? "b" 0 = some sampleBeaten := by decide +kernel
  have hstale : Stale sampleBeats "b" 0 (sampleBeat 3) :=
    ⟨rfl, Or.inr ⟨rfl, sampleBeat 5, 100, by decide, rfl, rfl, by decide⟩⟩
  have hleft : ("b", .left) ∈ (t.tick 16000 5000 10000).2 := by decide +kernel
  have hnext : ((new (.brief "a" 0 .alive)).run (sampleBeats ++ [.merge (sampleBeat 7) 9000])).peerAt? "b" 0 =
      some ⟨{ sampleBeat 7 with state := .suspect }, 9000, 6000⟩ := by
    decide +kernel
  obtain ⟨-, hrun⟩ := only_new_heartbeats_count hreach "b" 0
  obtain ⟨-, hstays⟩ := hrun sampleBeats hsteady
  obtain ⟨hnews, hreplay, hlate⟩ := hstays sampleBeaten hpeer
  obtain ⟨r, now, hop, -, -, -, hbeyond⟩ := hnews _ _ hnext (by decide)
  obtain ⟨rfl, -⟩ := Op.merge.inj hop
  exact ⟨hreach, hsteady, hpeer, hreplay (sampleBeat 1) 0 9000 (by decide) rfl, hbeyond, hstale, hleft,
    (hlate (sampleBeat 3) 9000 hstale 16000 5000 10000).2 hleft⟩

/-- A member is heard of and then called suspect, with an older heartbeat than its own. -/
def sampleLowered : List Op :=
  [.merge (sampleBeat 5) 0, .merge { sampleBeat 3 with state := .suspect } 100]

/-- After the call of suspicion the first record counts once more, and the member outlives the tick that buries it. -/
theorem lowered_heartbeat_revives :
    let t := new (.brief "a" 0 .alive)
    let u := ((t.run sampleLowered).merge (sampleBeat 5) 9000).1
    (t.run (sampleLowered.take 1)).peerAt? "b" 0 = some ⟨sampleBeat 5, 0, 0⟩ ∧
    (t.run sampleLowered).peerAt? "b" 0 = some ⟨{ sampleBeat 3 with state := .suspect }, 0, 100⟩ ∧
    .merge (sampleBeat 5) 0 ∈ sampleLowered ∧
    u.peerAt? "b" 0 = some ⟨{ sampleBeat 5 with state := .suspect }, 9000, 100⟩ ∧
    ("b", .left) ∈ ((t.run sampleLowered).tick 10100 5000 10000).2 ∧
    (u.tick 10100 5000 10000).2 = [] ∧ (u.tick 10100 5000 10000).1.peerAt? "b" 0 = u.peerAt? "b" 0 := by
  decide +kernel

end Table

end AgentMesh.Gossip
