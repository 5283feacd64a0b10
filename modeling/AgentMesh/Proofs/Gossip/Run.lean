import AgentMesh.Proofs.Gossip.Standing

/-!
# Runs of a table

Everything that can happen to a table is a step, and a run is a list of steps. Whatever a run does, the table
stays well formed: no name is in both maps, the node's own name is in neither, every record is kept under the
name that it is about, and exactly the live ones are peers.
-/

namespace AgentMesh.Gossip

/-- What a node does to its table of its own accord. -/
inductive Act
  | beat
  | setProfile (profile : Profile)
  | leave
  | setAddr (addr : Net.SocketAddr)
  | tick (now suspectAfter deadAfter : Nat)
  | purge (now ttl : Nat)
  | forget (name : String)
deriving Repr, DecidableEq

/-- One step of a table. -/
inductive Op
  | act (a : Act)
  | merge (r : MemberRecord) (now : Nat)
deriving Repr, DecidableEq

def Act.onStanding (n : String) : Act → Standing → Standing
  | tick now suspectAfter deadAfter, k => k.ripen now suspectAfter deadAfter
  | purge now ttl, k => k.expire now ttl
  | forget m, k => if m = n then k.pardon else k
  | _, k => k

theorem Act.onStanding_fits {n : String} {k : Standing} (h : k.Fits n) (a : Act) : (a.onStanding n k).Fits n := by
  cases a with
  | tick now suspectAfter deadAfter => exact h.ripen now suspectAfter deadAfter
  | purge now ttl => exact h.expire now ttl
  | forget m =>
      simp only [Act.onStanding]
      split
      · exact h.pardon
      · exact h
  | _ => exact h

namespace Table

def act (t : Table) : Act → Table
  | .beat => t.beat
  | .setProfile profile => t.setProfile profile
  | .leave => t.leave
  | .setAddr addr => t.setAddr addr
  | .tick now suspectAfter deadAfter => (t.tick now suspectAfter deadAfter).1
  | .purge now ttl => (t.purge now ttl).1
  | .forget name => t.forget name

def apply (t : Table) : Op → Table
  | .act a => t.act a
  | .merge r now => (t.merge r now).1

def run (t : Table) (ops : List Op) : Table :=
  ops.foldl apply t

@[simp] theorem run_nil (t : Table) : t.run [] = t := rfl

@[simp] theorem run_cons (t : Table) (op : Op) (ops : List Op) : t.run (op :: ops) = (t.apply op).run ops := rfl

theorem run_append (t : Table) (ops ops' : List Op) : t.run (ops ++ ops') = (t.run ops).run ops' :=
  List.foldl_append

variable {t : Table} {k : String → Standing}

theorem Shows.act (h : t.Shows k) (a : Act) : (t.act a).Shows fun n => a.onStanding n (k n) := by
  cases a with
  | tick now suspectAfter deadAfter => exact h.tick now suspectAfter deadAfter
  | purge now ttl => exact h.purge now ttl
  | forget m =>
      have hf := h.forget m
      have hk : Function.update k m (k m).pardon = fun n => if m = n then (k n).pardon else k n := by
        funext n
        by_cases hm : m = n
        · subst hm; simp
        · simp [hm, Ne.symm hm]
      rw [hk] at hf
      exact hf
  | leave =>
      simp only [Table.act, Table.leave]
      split
      · exact h
      · exact ⟨h.peers, h.tombstones⟩
  | _ => exact ⟨h.peers, h.tombstones⟩

/-! ## Well-formed tables -/

structure WellFormed (t : Table) : Prop where
  /-- No name is in both maps. -/
  shows : t.Shows t.standing
  self_unknown : t.standing t.self.name = .unknown
  fits : ∀ n, (t.standing n).Fits n

theorem WellFormed.of_shows (h : t.Shows k) (hself : k t.self.name = .unknown) (hfits : ∀ n, (k n).Fits n) :
    t.WellFormed := by
  have hk := h.standing_eq
  exact ⟨hk ▸ h, hk ▸ hself, hk ▸ hfits⟩

/-- Well-formed tables that know the same are the same. -/
theorem WellFormed.ext {u : Table} (ht : t.WellFormed) (hu : u.WellFormed) (hself : t.self = u.self)
    (h : ∀ n, t.standing n = u.standing n) : t = u :=
  ht.shows.ext (funext h ▸ hu.shows) hself

theorem new_wellFormed (self : MemberRecord) : (new self).WellFormed :=
  .of_shows (k := fun _ => .unknown) ⟨fun _ => by simp [new], fun _ => by simp [new]⟩ rfl fun _ => trivial

theorem WellFormed.peer_iff (hw : t.WellFormed) {n : String} {p : Peer} :
    t.peers[n]? = some p ↔ t.standing n = .listed p := by
  rw [hw.shows.peers]
  cases t.standing n <;> simp

theorem WellFormed.tombstone_iff (hw : t.WellFormed) {n : String} {s : Tombstone} :
    t.tombstones[n]? = some s ↔ t.standing n = .buried s := by
  rw [hw.shows.tombstones]
  cases t.standing n <;> simp

theorem WellFormed.fits_of_peer (hw : t.WellFormed) {n : String} {p : Peer} (hp : t.peers[n]? = some p) :
    (Standing.listed p).Fits n :=
  hw.peer_iff.mp hp ▸ hw.fits n

/-- The node's own name is nobody else's. -/
theorem WellFormed.ne_self_of_peer (hw : t.WellFormed) {n : String} {p : Peer} (hp : t.peers[n]? = some p) :
    n ≠ t.self.name := by
  intro hself
  have hk := hw.peer_iff.mp hp
  rw [hself, hw.self_unknown] at hk
  cases hk

theorem WellFormed.mem_peers (hw : t.WellFormed) {n : String} : n ∈ t.peers ↔ ∃ p, t.standing n = .listed p := by
  rw [Std.ExtTreeMap.mem_iff_isSome_getElem?, hw.shows.peers]
  cases t.standing n <;> simp

theorem WellFormed.mem_tombstones (hw : t.WellFormed) {n : String} :
    n ∈ t.tombstones ↔ ∃ s, t.standing n = .buried s := by
  rw [Std.ExtTreeMap.mem_iff_isSome_getElem?, hw.shows.tombstones]
  cases t.standing n <;> simp

/-- The records that a table sends out are the node's own and one for each name that it knows. -/
theorem WellFormed.mem_payload (hw : t.WellFormed) {r : MemberRecord} :
    r ∈ t.payload ↔ r = t.self ∨ ∃ n, (t.standing n).record? = some r := by
  simp only [payload, peerRecords, tombstoneRecords, List.mem_cons, List.mem_append, List.mem_map,
    Prod.exists, Std.ExtTreeMap.mem_toList_iff_getElem?_eq_some, hw.shows.peers, hw.shows.tombstones]
  refine or_congr_right ⟨?_, ?_⟩
  · rintro (⟨n, p, hp, rfl⟩ | ⟨n, s, hs, rfl⟩)
    · refine ⟨n, ?_⟩
      cases hk : t.standing n <;> simp_all
    · refine ⟨n, ?_⟩
      cases hk : t.standing n <;> simp_all
  · rintro ⟨n, hr⟩
    cases hk : t.standing n with
    | unknown => simp [hk] at hr
    | listed p => exact Or.inl ⟨n, p, by simp [hk], by simpa [hk] using hr⟩
    | buried s => exact Or.inr ⟨n, s, by simp [hk], by simpa [hk] using hr⟩

/-- Of itself a node sends out only its own record. -/
theorem WellFormed.eq_self_of_mem_payload (hw : t.WellFormed) {r : MemberRecord} (hr : r ∈ t.payload)
    (hname : r.name = t.self.name) : r = t.self := by
  rcases hw.mem_payload.mp hr with hr | ⟨m, hm⟩
  · exact hr
  · have hmn : m = t.self.name := ((hw.fits m).name_eq hm).symm.trans hname
    rw [hmn, hw.self_unknown] at hm
    cases hm

/-! ## What one step does -/

@[simp] theorem name_act (t : Table) (a : Act) : (t.act a).self.name = t.self.name := by
  cases a with
  | leave => simp only [Table.act, Table.leave]; split <;> rfl
  | _ => rfl

theorem standing_act (hw : t.WellFormed) (a : Act) (n : String) :
    (t.act a).standing n = a.onStanding n (t.standing n) := by
  rw [(hw.shows.act a).standing_eq]

theorem WellFormed.act (hw : t.WellFormed) (a : Act) : (t.act a).WellFormed := by
  refine .of_shows (hw.shows.act a) ?_ fun n => Act.onStanding_fits (hw.fits n) a
  rw [name_act, hw.self_unknown]
  cases a with
  | forget m => simp only [Act.onStanding]; split <;> rfl
  | _ => rfl

theorem standing_merge_self {r : MemberRecord} (hr : r.name = t.self.name) (now : Nat) :
    (t.merge r now).1.standing = t.standing := by
  rw [merge_self_eq hr]
  split <;> rfl

theorem standing_merge (hw : t.WellFormed) (r : MemberRecord) (now : Nat) (n : String) :
    (t.merge r now).1.standing n =
      if r.name = n ∧ n ≠ t.self.name then ((t.standing n).hear r now).1 else t.standing n := by
  by_cases hr : r.name = t.self.name
  · rw [standing_merge_self hr, if_neg]
    rintro ⟨rfl, hn⟩
    exact hn hr
  · rw [(hw.shows.merge hr now).1.standing_eq]
    by_cases hn : r.name = n
    · subst hn; simp [hr]
    · simp [hn, Ne.symm hn]

theorem outcome_merge (hw : t.WellFormed) {r : MemberRecord} (hr : r.name ≠ t.self.name) (now : Nat) :
    (t.merge r now).2 = ((t.standing r.name).hear r now).2 :=
  (hw.shows.merge hr now).2

@[simp] theorem name_merge (t : Table) (r : MemberRecord) (now : Nat) :
    (t.merge r now).1.self.name = t.self.name := by
  rw [self_merge]
  split <;> rfl

theorem WellFormed.merge (hw : t.WellFormed) (r : MemberRecord) (now : Nat) : (t.merge r now).1.WellFormed := by
  by_cases hr : r.name = t.self.name
  · rw [merge_self_eq hr]
    split
    · exact .of_shows (k := t.standing) ⟨hw.shows.peers, hw.shows.tombstones⟩ hw.self_unknown hw.fits
    · exact hw
  · refine .of_shows (hw.shows.merge hr now).1 ?_ fun n => ?_
    · rw [name_merge, Function.update_of_ne (Ne.symm hr), hw.self_unknown]
    · by_cases hn : n = r.name
      · subst hn
        rw [Function.update_self]
        exact (hw.fits _).hear rfl now
      · rw [Function.update_of_ne hn]
        exact hw.fits n

/-! ## Runs -/

theorem WellFormed.apply (hw : t.WellFormed) (op : Op) : (t.apply op).WellFormed := by
  cases op with
  | act a => exact hw.act a
  | merge r now => exact hw.merge r now

theorem WellFormed.run (hw : t.WellFormed) (ops : List Op) : (t.run ops).WellFormed := by
  induction ops generalizing t with
  | nil => exact hw
  | cons op ops ih => exact ih (hw.apply op)

@[simp] theorem name_apply (t : Table) (op : Op) : (t.apply op).self.name = t.self.name := by
  cases op with
  | act a => exact name_act t a
  | merge r now => exact name_merge t r now

@[simp] theorem name_run (t : Table) (ops : List Op) : (t.run ops).self.name = t.self.name := by
  induction ops generalizing t with
  | nil => rfl
  | cons op ops ih => rw [run_cons, ih, name_apply]

/-- Some run leads to the table. -/
def Reachable (t : Table) : Prop :=
  ∃ self ops, t = (new self).run ops

theorem Reachable.wellFormed (h : t.Reachable) : t.WellFormed := by
  obtain ⟨self, ops, rfl⟩ := h
  exact (new_wellFormed self).run ops

theorem Reachable.run (h : t.Reachable) (ops : List Op) : (t.run ops).Reachable := by
  obtain ⟨self, ops', rfl⟩ := h
  exact ⟨self, ops' ++ ops, (run_append _ _ _).symm⟩

end Table

end AgentMesh.Gossip
