import AgentMesh.Gossip.Table
import Mathlib.Logic.Function.Basic

/-!
# What a table knows about a name

A table keeps two maps, but of each name it knows one thing: that it is a live peer, that it died or left, or
nothing. This module says what every operation does to that one thing, and that it does nothing to the other
names.
-/

namespace AgentMesh.Gossip

inductive Standing
  | unknown
  | listed (p : Peer)
  | buried (s : Tombstone)
deriving Repr, DecidableEq, Inhabited

namespace Standing

/-! ## Views -/

def peer? : Standing → Option Peer
  | unknown => none
  | listed p => some p
  | buried _ => none

def tombstone? : Standing → Option Tombstone
  | unknown => none
  | listed _ => none
  | buried s => some s

def record? : Standing → Option MemberRecord
  | unknown => none
  | listed p => some p.record
  | buried s => some s.record

@[simp] theorem peer?_unknown : unknown.peer? = none := rfl

@[simp] theorem peer?_listed (p : Peer) : (listed p).peer? = some p := rfl

@[simp] theorem peer?_buried (s : Tombstone) : (buried s).peer? = none := rfl

@[simp] theorem tombstone?_unknown : unknown.tombstone? = none := rfl

@[simp] theorem tombstone?_listed (p : Peer) : (listed p).tombstone? = none := rfl

@[simp] theorem tombstone?_buried (s : Tombstone) : (buried s).tombstone? = some s := rfl

@[simp] theorem record?_unknown : unknown.record? = none := rfl

@[simp] theorem record?_listed (p : Peer) : (listed p).record? = some p.record := rfl

@[simp] theorem record?_buried (s : Tombstone) : (buried s).record? = some s.record := rfl

/-- What is known about `n` is a record of `n`, and only live members are listed. -/
def Fits (n : String) : Standing → Prop
  | unknown => True
  | listed p => p.record.name = n ∧ p.record.state.isLive = true
  | buried s => s.record.name = n ∧ s.record.state.isLive = false

theorem Fits.name_eq {n : String} {k : Standing} (h : k.Fits n) {r : MemberRecord} (hr : k.record? = some r) :
    r.name = n := by
  cases k with
  | unknown => simp at hr
  | listed p => cases hr; exact h.1
  | buried s => cases hr; exact h.1

/-! ## What becomes of it -/

def first (r : MemberRecord) (now : Nat) : Standing × Outcome :=
  if r.state.isLive then (listed ⟨r, now, now⟩, .joined) else (buried ⟨r, now⟩, .unchanged)

/-- After news about the name, with what the news did. -/
def hear : Standing → MemberRecord → Nat → Standing × Outcome
  | unknown, r, now => first r now
  | listed p, r, now =>
      if !r.supersedes p.record then (listed (p.refresh r now), .unchanged)
      else if !r.state.isLive then (buried ⟨r, now⟩, .left)
      else (listed (p.replace r now),
        if r.state = .suspect ∧ p.record.state = .alive then .suspected else .updated)
  | buried s, r, now =>
      if r.incarnation ≤ s.record.incarnation then (buried s, .unchanged) else first r now

def ripen (now suspectAfter deadAfter : Nat) : Standing → Standing
  | listed p =>
      if p.dies now suspectAfter deadAfter then buried (p.buried now)
      else listed (p.afterTick now suspectAfter)
  | k => k

/-- After tombstones that are `ttl` old were dropped. -/
def expire (now ttl : Nat) : Standing → Standing
  | buried s => if now - s.since < ttl then buried s else unknown
  | k => k

def pardon : Standing → Standing
  | buried _ => unknown
  | k => k

/-! ## Records stay where they belong -/

variable {n : String} {k : Standing} {r : MemberRecord}

theorem first_fits (hr : r.name = n) (now : Nat) : (first r now).1.Fits n := by
  by_cases hl : r.state.isLive
  · simp only [first, hl, ↓reduceIte]; exact ⟨hr, hl⟩
  · simp only [first, hl, Bool.false_eq_true, ↓reduceIte]; exact ⟨hr, by simpa using hl⟩

theorem Fits.hear (h : k.Fits n) (hr : r.name = n) (now : Nat) : (k.hear r now).1.Fits n := by
  cases k with
  | unknown => exact first_fits hr now
  | listed p =>
      by_cases hs : r.supersedes p.record
      · by_cases hl : r.state.isLive
        · simp only [Standing.hear, hs, hl, Bool.not_true, Bool.false_eq_true, ↓reduceIte]
          exact ⟨hr, hl⟩
        · simp only [Standing.hear, hs, hl, Bool.not_true, Bool.not_false, Bool.false_eq_true, ↓reduceIte]
          exact ⟨hr, by simpa using hl⟩
      · simp only [Standing.hear, hs, Bool.not_false, ↓reduceIte, Peer.refresh]
        split
        · exact h
        · exact h
  | buried s =>
      simp only [Standing.hear]
      split
      · exact h
      · exact first_fits hr now

theorem Fits.ripen (h : k.Fits n) (now suspectAfter deadAfter : Nat) :
    (k.ripen now suspectAfter deadAfter).Fits n := by
  cases k with
  | unknown => exact h
  | listed p =>
      simp only [Standing.ripen]
      split
      · exact ⟨h.1, rfl⟩
      · simp only [Peer.afterTick]
        split
        · exact ⟨h.1, rfl⟩
        · exact h
  | buried s => exact h

theorem Fits.expire (h : k.Fits n) (now ttl : Nat) : (k.expire now ttl).Fits n := by
  cases k with
  | buried s =>
      simp only [Standing.expire]
      split
      · exact h
      · trivial
  | _ => exact h

theorem Fits.pardon (h : k.Fits n) : k.pardon.Fits n := by
  cases k with
  | buried s => trivial
  | _ => exact h

end Standing

namespace Table

/-- What the table knows about a name. -/
def standing (t : Table) (n : String) : Standing :=
  match t.tombstones[n]?, t.peers[n]? with
  | some s, _ => .buried s
  | none, some p => .listed p
  | none, none => .unknown

/-- The two maps hold what `k` says of each name, and nothing else. -/
structure Shows (t : Table) (k : String → Standing) : Prop where
  peers : ∀ n, t.peers[n]? = (k n).peer?
  tombstones : ∀ n, t.tombstones[n]? = (k n).tombstone?

variable {t t' : Table} {k : String → Standing}

theorem Shows.standing_eq (h : t.Shows k) : t.standing = k := by
  funext n
  rw [Table.standing, h.peers, h.tombstones]
  cases k n <;> rfl

theorem Shows.ext (h : t.Shows k) (h' : t'.Shows k) (hs : t.self = t'.self) : t = t' := by
  have hp : t.peers = t'.peers := Std.ExtTreeMap.ext_getElem? fun n => by rw [h.peers, h'.peers]
  have ht : t.tombstones = t'.tombstones :=
    Std.ExtTreeMap.ext_getElem? fun n => by rw [h.tombstones, h'.tombstones]
  cases t; cases t'; simp_all

theorem Shows.update (h : t.Shows k) {n : String} {x : Standing}
    (hp : ∀ m, t'.peers[m]? = if n = m then x.peer? else t.peers[m]?)
    (ht : ∀ m, t'.tombstones[m]? = if n = m then x.tombstone? else t.tombstones[m]?) :
    t'.Shows (Function.update k n x) where
  peers m := by
    rw [hp, Function.update_apply]
    by_cases hm : n = m
    · subst hm; simp
    · simp [hm, Ne.symm hm, h.peers]
  tombstones m := by
    rw [ht, Function.update_apply]
    by_cases hm : n = m
    · subst hm; simp
    · simp [hm, Ne.symm hm, h.tombstones]

/-! ## The operations of a table, name by name -/

theorem Shows.bury (h : t.Shows k) {r : MemberRecord} (now : Nat) (hk : (k r.name).peer? = none) :
    (t.bury r now).Shows (Function.update k r.name (.buried ⟨r, now⟩)) := by
  refine h.update (fun m => ?_) (fun m => ?_)
  · by_cases hm : r.name = m
    · subst hm; simp [Table.bury, h.peers, hk]
    · simp [Table.bury, hm]
  · simp [Table.bury, Std.ExtTreeMap.getElem?_insert]

theorem Shows.list (h : t.Shows k) {n : String} (p : Peer) (hk : (k n).tombstone? = none) :
    Shows { t with peers := t.peers.insert n p } (Function.update k n (.listed p)) := by
  refine h.update (fun m => ?_) (fun m => ?_)
  · simp [Std.ExtTreeMap.getElem?_insert]
  · by_cases hm : n = m
    · subst hm; simp [h.tombstones, hk]
    · simp [hm]

theorem Shows.unlist (h : t.Shows k) {n : String} (hk : (k n).tombstone? = none) :
    Shows { t with peers := t.peers.erase n } (Function.update k n .unknown) := by
  refine h.update (fun m => ?_) (fun m => ?_)
  · simp [Std.ExtTreeMap.getElem?_erase]
  · by_cases hm : n = m
    · subst hm; simp [h.tombstones, hk]
    · simp [hm]

theorem Shows.forget (h : t.Shows k) (n : String) :
    (t.forget n).Shows (Function.update k n (k n).pardon) := by
  refine h.update (fun m => ?_) (fun m => ?_)
  · by_cases hm : n = m
    · subst hm; cases hk : k n <;> simp [Table.forget, h.peers, hk, Standing.pardon]
    · simp [Table.forget, hm]
  · cases k n <;> simp [Table.forget, Std.ExtTreeMap.getElem?_erase, Standing.pardon]

/-- The first that is heard of a name. -/
theorem Shows.mergePeer_first (h : t.Shows k) {r : MemberRecord} (now : Nat) (hk : k r.name = .unknown) :
    (t.mergePeer r now).1.Shows (Function.update k r.name (Standing.first r now).1) ∧
      (t.mergePeer r now).2 = (Standing.first r now).2 := by
  have hp : t.peers[r.name]? = none := by rw [h.peers, hk]; rfl
  simp only [mergePeer, hp, Standing.first]
  by_cases hl : r.state.isLive
  · simp only [hl, ↓reduceIte]
    exact ⟨h.list _ (by rw [hk]; rfl), trivial⟩
  · simp only [hl, Bool.false_eq_true, ↓reduceIte]
    exact ⟨h.bury now (by rw [hk]; rfl), trivial⟩

/-- News about another node change what is known about it as `Standing.hear` says, and nothing else. -/
theorem Shows.merge (h : t.Shows k) {r : MemberRecord} (hr : r.name ≠ t.self.name) (now : Nat) :
    (t.merge r now).1.Shows (Function.update k r.name ((k r.name).hear r now).1) ∧
      (t.merge r now).2 = ((k r.name).hear r now).2 := by
  simp only [Table.merge, hr, ↓reduceIte]
  cases hk : k r.name with
  | unknown =>
      have ht : t.tombstones[r.name]? = none := by rw [h.tombstones, hk]; rfl
      simp only [ht, Standing.hear]
      exact h.mergePeer_first now hk
  | listed p =>
      have hp : t.peers[r.name]? = some p := by rw [h.peers, hk]; rfl
      have hn : (k r.name).tombstone? = none := by rw [hk]; rfl
      have ht : t.tombstones[r.name]? = none := by rw [h.tombstones, hn]
      simp only [ht, mergePeer, hp, Standing.hear]
      by_cases hs : r.supersedes p.record
      · by_cases hl : r.state.isLive
        · simp only [hs, hl, Bool.not_true, Bool.false_eq_true, ↓reduceIte]
          exact ⟨h.list _ hn, trivial⟩
        · simp only [hs, hl, Bool.not_true, Bool.not_false, Bool.false_eq_true, ↓reduceIte]
          have hb := (h.unlist hn).bury (r := r) now (by simp)
          rw [Function.update_idem] at hb
          exact ⟨hb, trivial⟩
      · simp only [hs, Bool.not_false, ↓reduceIte]
        exact ⟨h.list _ hn, trivial⟩
  | buried s =>
      have ht : t.tombstones[r.name]? = some s := by rw [h.tombstones, hk]; rfl
      simp only [ht, Standing.hear]
      by_cases hi : r.incarnation ≤ s.record.incarnation
      · simp only [hi, ↓reduceIte]
        rw [← hk, Function.update_eq_self]
        exact ⟨h, trivial⟩
      · by_cases hl : r.state.isLive
        · -- The tombstone is lifted first, so that the name is unknown to the rest of the merge.
          simp only [hi, hl, Bool.not_true, Bool.false_eq_true, ↓reduceIte]
          have hf := (h.forget r.name).mergePeer_first (r := r) now (by simp [hk, Standing.pardon])
          rw [Function.update_idem] at hf
          exact hf
        · simp only [hi, hl, Bool.not_false, ↓reduceIte, Standing.first, Bool.false_eq_true]
          exact ⟨h.bury now (by rw [hk]; rfl), trivial⟩

theorem Shows.tick (h : t.Shows k) (now suspectAfter deadAfter : Nat) :
    (t.tick now suspectAfter deadAfter).1.Shows fun n => (k n).ripen now suspectAfter deadAfter where
  peers n := by
    simp only [Table.tick, Std.ExtTreeMap.getElem?_map, Std.ExtTreeMap.getElem?_filter', h.peers]
    cases k n with
    | unknown => rfl
    | listed p => by_cases hd : p.dies now suspectAfter deadAfter <;>
        simp [Standing.ripen, Option.filter, hd]
    | buried s => rfl
  tombstones n := by
    simp only [Table.tick, Std.ExtTreeMap.getElem?_union, Std.ExtTreeMap.getElem?_map,
      Std.ExtTreeMap.getElem?_filter', h.peers, h.tombstones]
    cases k n with
    | unknown => rfl
    | listed p => by_cases hd : p.dies now suspectAfter deadAfter <;>
        simp [Standing.ripen, Option.filter, hd]
    | buried s => rfl

theorem Shows.purge (h : t.Shows k) (now ttl : Nat) :
    (t.purge now ttl).1.Shows fun n => (k n).expire now ttl where
  peers n := by
    simp only [Table.purge, h.peers]
    cases k n with
    | buried s => by_cases hs : now - s.since < ttl <;> simp [Standing.expire, hs]
    | _ => rfl
  tombstones n := by
    simp only [Table.purge, Std.ExtTreeMap.getElem?_filter', h.tombstones]
    cases k n with
    | buried s =>
        by_cases hs : now - s.since < ttl <;> simp [Standing.expire, Option.filter, hs]
    | _ => rfl

/-! ## The node itself -/

/-- News about a node that has not left, which claim more than it says of itself. -/
def Disputes (r s : MemberRecord) : Prop :=
  r.name = s.name ∧ s.state ≠ .left ∧
    (s.incarnation < r.incarnation ∨ (r.incarnation = s.incarnation ∧ r.state ≠ .alive))

instance (r s : MemberRecord) : Decidable (Disputes r s) :=
  inferInstanceAs (Decidable (_ ∧ _))

theorem merge_self_eq {r : MemberRecord} (hr : r.name = t.self.name) (now : Nat) :
    t.merge r now =
      if Disputes r t.self then ({ t with self := { t.self with incarnation := r.incarnation + 1 } }, .refuted)
      else (t, .unchanged) := by
  simp only [Table.merge, hr, ↓reduceIte, mergeSelf, Disputes]
  by_cases hl : t.self.state = .left <;> simp [hl]

theorem self_mergePeer (t : Table) (r : MemberRecord) (now : Nat) : (t.mergePeer r now).1.self = t.self := by
  simp only [mergePeer]
  split
  · split <;> rfl
  · split
    · rfl
    · split <;> rfl

theorem self_merge_of_ne {r : MemberRecord} (hr : r.name ≠ t.self.name) (now : Nat) :
    (t.merge r now).1.self = t.self := by
  simp only [Table.merge, hr, ↓reduceIte]
  split
  · exact self_mergePeer t r now
  · split
    · rfl
    · split
      · rfl
      · exact self_mergePeer (t.forget r.name) r now

/-- Only what disputes the node's own record changes it, and only its incarnation. -/
theorem self_merge (t : Table) (r : MemberRecord) (now : Nat) :
    (t.merge r now).1.self =
      if Disputes r t.self then { t.self with incarnation := r.incarnation + 1 } else t.self := by
  by_cases hr : r.name = t.self.name
  · rw [merge_self_eq hr]
    split <;> rfl
  · rw [self_merge_of_ne hr, if_neg fun hd => hr hd.1]

end Table

end AgentMesh.Gossip
