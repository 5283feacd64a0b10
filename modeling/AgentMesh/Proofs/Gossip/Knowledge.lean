import AgentMesh.Proofs.Gossip.Owner
import AgentMesh.Proofs.Gossip.Version

/-!
# Knowledge only grows

As long as a table is not made to drop a tombstone, what it knows of a name only moves to later versions. So
old news come too late at every later time, and only newer news of life bring a buried name back.
-/

namespace AgentMesh.Gossip

/-! ## Dropping a tombstone -/

/-- The step lifts tombstones of `n`, or drops the one that there is because of its age. -/
def Op.Drops (t : Table) (n : String) : Op → Prop
  | .act (.forget m) => m = n
  | .act (.purge now ttl) => n ∈ t.tombstones ∧ n ∉ (t.purge now ttl).1.tombstones
  | _ => False

/-- No step of the run drops a tombstone of `n`. -/
def Table.Keeps (t : Table) (n : String) : List Op → Prop
  | [] => True
  | op :: ops => ¬ op.Drops t n ∧ (t.apply op).Keeps n ops

/-- All that is known of a peer but how recently it was heard of. -/
def Peer.settled (p : Peer) : Peer :=
  { p with record := { p.record with heartbeat := 0 }, lastHeard := 0 }

theorem Peer.settled_refresh (p : Peer) (r : MemberRecord) (now : Nat) : (p.refresh r now).settled = p.settled := by
  simp only [Peer.refresh]
  split <;> rfl

namespace Standing

theorem version_le_ripen (k : Standing) (now suspectAfter deadAfter : Nat) :
    k.version ≤ (k.ripen now suspectAfter deadAfter).version := by
  cases k with
  | listed p =>
      have hle : p.record.version ≤ (p.buried now).record.version :=
        MemberRecord.version_le_iff.mpr (Or.inr ⟨rfl, p.record.state.severity_le_two⟩)
      simp only [Standing.ripen]
      split
      · exact WithBot.coe_le_coe.mpr hle
      · simp only [Peer.afterTick]
        split
        · rename_i hf
          simp only [Peer.fallsSuspect, Bool.and_eq_true, beq_iff_eq] at hf
          refine WithBot.coe_le_coe.mpr (MemberRecord.version_le_iff.mpr (Or.inr ⟨rfl, ?_⟩))
          simp [hf.1, Peer.suspect, MemberState.severity]
        · exact le_rfl
  | _ => exact le_rfl

theorem onStanding_buried_ne_listed (s : Tombstone) (a : Act) (n : String) (p : Peer) :
    a.onStanding n (buried s) ≠ listed p := by
  cases a with
  | purge now ttl => simp only [Act.onStanding, Standing.expire]; split <;> simp
  | forget m => simp only [Act.onStanding]; split <;> simp [Standing.pardon]
  | _ => simp [Act.onStanding, Standing.ripen]

/-- News that are not later than what is known show at most that a peer lives. -/
theorem hear_of_version_le {n : String} {k : Standing} (h : k.Fits n) {r : MemberRecord}
    (hle : (r.version : WithBot Version) ≤ k.version) (now : Nat) :
    (k.hear r now).2 = .unchanged ∧ (k.hear r now).1.tombstone? = k.tombstone? ∧
      (k.hear r now).1.peer?.map Peer.settled = k.peer?.map Peer.settled := by
  cases k with
  | unknown => exact absurd hle (by simp)
  | listed p =>
      have hs : r.supersedes p.record = false := by
        by_contra hs
        rw [Bool.not_eq_false, MemberRecord.supersedes_iff] at hs
        exact absurd (WithBot.coe_le_coe.mp hle) (not_le.mpr hs)
      simp [Standing.hear, hs, Peer.settled_refresh]
  | buried s =>
      have hi := (version_le_of_buried h).mp (WithBot.coe_le_coe.mp hle)
      simp [Standing.hear, hi]

end Standing

namespace Table

variable {t : Table}

/-! ## Versions only rise -/

theorem version_le_act (hw : t.WellFormed) {a : Act} {n : String} (hd : ¬ (Op.act a).Drops t n) :
    t.version n ≤ (t.act a).version n := by
  rw [version, version, standing_act hw]
  cases a with
  | tick now suspectAfter deadAfter => exact Standing.version_le_ripen _ now suspectAfter deadAfter
  | purge now ttl =>
      cases hk : t.standing n with
      | buried s =>
          simp only [Act.onStanding, Standing.expire]
          split
          · exact le_rfl
          · rename_i hs
            refine absurd ⟨hw.mem_tombstones.mpr ⟨s, hk⟩, fun hm => ?_⟩ hd
            obtain ⟨s', hs'⟩ := (hw.act (.purge now ttl)).mem_tombstones.mp hm
            rw [standing_act hw, hk] at hs'
            simp [Act.onStanding, Standing.expire, hs] at hs'
      | _ => exact le_rfl
  | forget m =>
      have hm : m ≠ n := hd
      simp [Act.onStanding, hm]
  | _ => exact le_rfl

theorem version_le_merge (hw : t.WellFormed) (r : MemberRecord) (now : Nat) (n : String) :
    t.version n ≤ (t.merge r now).1.version n := by
  by_cases hn : n = t.self.name
  · rw [hn, version_self hw]
    exact bot_le
  · rw [version_merge hw r now hn]
    exact le_max_left _ _

theorem version_le_apply (hw : t.WellFormed) {op : Op} {n : String} (hd : ¬ op.Drops t n) :
    t.version n ≤ (t.apply op).version n := by
  cases op with
  | act a => exact version_le_act hw hd
  | merge r now => exact version_le_merge hw r now n

theorem version_le_run (hw : t.WellFormed) {ops : List Op} {n : String} (hk : t.Keeps n ops) :
    t.version n ≤ (t.run ops).version n := by
  induction ops generalizing t with
  | nil => exact le_rfl
  | cons op ops ih => exact (version_le_apply hw hk.1).trans (ih (hw.apply op) hk.2)

/-! ## The way back from a tombstone -/

theorem buried_apply (hw : t.WellFormed) {op : Op} {n : String} {s : Tombstone} (hs : t.standing n = .buried s)
    (hd : ¬ op.Drops t n) :
    (∃ s', (t.apply op).standing n = .buried s' ∧ s.record.incarnation ≤ s'.record.incarnation) ∨
      ∃ r now, op = .merge r now ∧ r.name = n ∧ r.state.isLive = true ∧ s.record.incarnation < r.incarnation := by
  have hle := version_le_apply hw hd
  rw [version, version, hs] at hle
  cases hk : (t.apply op).standing n with
  | unknown => rw [hk] at hle; exact absurd hle (by simp)
  | buried s' =>
      rw [hk] at hle
      exact Or.inl ⟨s', rfl, MemberRecord.incarnation_le_of_version_le (WithBot.coe_le_coe.mp hle)⟩
  | listed p =>
      cases op with
      | act a =>
          rw [Table.apply, standing_act hw, hs] at hk
          exact absurd hk (Standing.onStanding_buried_ne_listed s a n p)
      | merge r now =>
          rw [Table.apply, standing_merge hw, hs] at hk
          by_cases hr : r.name = n ∧ n ≠ t.self.name
          · rw [if_pos hr, Standing.hear] at hk
            by_cases hi : r.incarnation ≤ s.record.incarnation
            · simp [hi] at hk
            · by_cases hl : r.state.isLive
              · exact Or.inr ⟨r, now, rfl, hr.1, hl, by omega⟩
              · simp [hi, Standing.first, hl] at hk
          · rw [if_neg hr] at hk
            cases hk

theorem returns_of_buried (hw : t.WellFormed) {ops : List Op} {n : String} {s : Tombstone}
    (hs : t.tombstones[n]? = some s) (hk : t.Keeps n ops) (hn : n ∈ (t.run ops).peers) :
    ∃ before r now after, ops = before ++ .merge r now :: after ∧ r.name = n ∧ r.state.isLive = true ∧
      ∃ s', (t.run before).tombstones[n]? = some s' ∧ s.record.incarnation ≤ s'.record.incarnation ∧
        s'.record.incarnation < r.incarnation := by
  induction ops generalizing t s with
  | nil =>
      obtain ⟨p, hp⟩ := hw.mem_peers.mp hn
      rw [hw.tombstone_iff, hp] at hs
      cases hs
  | cons op ops ih =>
      have hb := hw.tombstone_iff.mp hs
      -- The step may bury the name again. The new tombstone is at least as late, and the rest of the run starts there.
      rcases buried_apply hw hb hk.1 with ⟨s', hs', hle⟩ | ⟨r, now, rfl, hr, hl, hlt⟩
      · have hw' := hw.apply op
        obtain ⟨before, r, now, after, rfl, hr, hl, s'', hs'', hle', hlt⟩ :=
          ih hw' (hw'.tombstone_iff.mpr hs') hk.2 hn
        exact ⟨op :: before, r, now, after, rfl, hr, hl, s'', hs'', hle.trans hle', hlt⟩
      · exact ⟨[], r, now, ops, rfl, hr, hl, s, hs, le_rfl, hlt⟩

/-! ## Replays -/

/--
Between the two tables nothing changed but how recently some peers were heard of: the node's own record, the
names in the two maps, and all that is stored about them besides heartbeats.
-/
structure Undisturbed (t u : Table) : Prop where
  self : u.self = t.self
  tombstones : u.tombstones = t.tombstones
  peers : ∀ n : String, u.peers[n]?.map Peer.settled = t.peers[n]?.map Peer.settled

theorem Undisturbed.refl (t : Table) : t.Undisturbed t := ⟨rfl, rfl, fun _ => rfl⟩

/-- News that dispute nothing and are not later than what is known are inert. -/
theorem merge_inert (hw : t.WellFormed) {r : MemberRecord} (now : Nat)
    (hself : r.name = t.self.name → ¬ Disputes r t.self)
    (hle : r.name ≠ t.self.name → (r.version : WithBot Version) ≤ t.version r.name) :
    (t.merge r now).2 = .unchanged ∧ t.Undisturbed (t.merge r now).1 := by
  by_cases hr : r.name = t.self.name
  · rw [merge_self_eq hr, if_neg (hself hr)]
    exact ⟨rfl, .refl t⟩
  · have hw' := hw.merge r now
    obtain ⟨hout, htombstone, hpeer⟩ := Standing.hear_of_version_le (hw.fits r.name) (hle hr) now
    rw [outcome_merge hw hr]
    refine ⟨hout, self_merge_of_ne hr now, Std.ExtTreeMap.ext_getElem? fun n => ?_, fun n => ?_⟩
    · rw [hw'.shows.tombstones, hw.shows.tombstones, standing_merge hw]
      split
      · rename_i hn
        rw [← hn.1, htombstone]
      · rfl
    · rw [hw'.shows.peers, hw.shows.peers, standing_merge hw]
      split
      · rename_i hn
        rw [← hn.1, hpeer]
      · rfl

/-- A record that was merged once is inert at every later time. -/
theorem merge_again (hw : t.WellFormed) (r : MemberRecord) (now now' : Nat) {ops : List Op}
    (hk : (t.merge r now).1.Keeps r.name ops) :
    (((t.merge r now).1.run ops).merge r now').2 = .unchanged ∧
      ((t.merge r now).1.run ops).Undisturbed (((t.merge r now).1.run ops).merge r now').1 := by
  have hw' := hw.merge r now
  refine merge_inert (hw'.run ops) now' (fun _ => ?_) fun hr => ?_
  · exact not_disputes_of_precedes (precedes_run _ ops) (not_disputes_merge t r now)
  · rw [name_run, name_merge] at hr
    exact (le_version_merge hw now rfl hr).trans (version_le_run hw' hk)

/--
Knowledge only grows. Unless a tombstone of the name is dropped, the version of what is known of a name does not
fall, nor does the node's own incarnation. A buried name comes back among the peers only by a record of life
with a later incarnation than its tombstone, and a record that was merged once is inert from then on.
-/
theorem knowledge_grows (ht : t.Reachable) :
    (∀ ops n, t.Keeps n ops → t.version n ≤ (t.run ops).version n) ∧
    (∀ ops, t.self.incarnation ≤ (t.run ops).self.incarnation) ∧
    (∀ ops n s, t.tombstones[n]? = some s → t.Keeps n ops → n ∈ (t.run ops).peers →
      ∃ before r now after, ops = before ++ .merge r now :: after ∧ r.name = n ∧ r.state.isLive = true ∧
        ∃ s', (t.run before).tombstones[n]? = some s' ∧ s.record.incarnation ≤ s'.record.incarnation ∧
          s'.record.incarnation < r.incarnation) ∧
    (∀ r now now' ops, (t.merge r now).1.Keeps r.name ops →
      (((t.merge r now).1.run ops).merge r now').2 = .unchanged ∧
        ((t.merge r now).1.run ops).Undisturbed (((t.merge r now).1.run ops).merge r now').1) := by
  have hw := ht.wellFormed
  refine ⟨fun ops n hk => version_le_run hw hk, fun ops => (precedes_run t ops).incarnation, ?_, ?_⟩
  · intro ops n s hs hk hn
    exact returns_of_buried hw hs hk hn
  · intro r now now' ops hk
    exact merge_again hw r now now' hk

/-- A member that was buried tries to come back at its old incarnation, and then comes back at the next. -/
def sampleReturn : List Op :=
  [.merge (.brief "b" 2 .alive) 30, .act (.tick 20000 5000 10000), .merge (.brief "b" 3 .alive) 30000]

theorem knowledge_grows_sample : sample.Reachable ∧ sample.Keeps "b" sampleReturn ∧
    sample.tombstones["b"]? = some ⟨.brief "b" 2 .dead, 10⟩ ∧ "b" ∈ (sample.run sampleReturn).peers ∧
    (sample.merge (.brief "c" 1 .suspect) 25).1.Keeps "c" sampleReturn ∧
    sample.version "b" ≤ (sample.run sampleReturn).version "b" ∧
    sample.self.incarnation ≤ (sample.run sampleReturn).self.incarnation ∧
    (∃ before r now after, sampleReturn = before ++ .merge r now :: after ∧ r.name = "b" ∧ r.state.isLive = true ∧
      ∃ s', (sample.run before).tombstones["b"]? = some s' ∧ 2 ≤ s'.record.incarnation ∧
        s'.record.incarnation < r.incarnation) ∧
    (((sample.merge (.brief "c" 1 .suspect) 25).1.run sampleReturn).merge (.brief "c" 1 .suspect) 40000).2 =
      .unchanged := by
  have hb : sample.tombstones["b"]? = some ⟨.brief "b" 2 .dead, 10⟩ := by decide +kernel
  have hkb : sample.Keeps "b" sampleReturn := by simp [sampleReturn, Keeps, Op.Drops]
  have hkc : (sample.merge (.brief "c" 1 .suspect) 25).1.Keeps "c" sampleReturn := by
    simp [sampleReturn, Keeps, Op.Drops]
  have hn : "b" ∈ (sample.run sampleReturn).peers := by decide +kernel
  obtain ⟨hversion, hself, hreturn, hreplay⟩ := knowledge_grows sample_reachable
  exact ⟨sample_reachable, hkb, hb, hn, hkc, hversion _ _ hkb, hself _, hreturn _ _ _ hb hkb hn,
    (hreplay (.brief "c" 1 .suspect) 25 40000 sampleReturn hkc).1⟩

end Table

end AgentMesh.Gossip
