import AgentMesh.Proofs.Gossip.Knowledge
import AgentMesh.Proofs.Gossip.Views
import Mathlib.Data.List.Induction
import Mathlib.Order.Bounds.Defs

/-!
# Failure detection

A table keeps of a peer when it was last heard of and since when it is in its state. In a run whose times do not
decrease, these are the time of the latest news that showed life and, of a suspect, the time of the step since which it
is one throughout. So a tick calls nobody suspect or dead who was heard of too recently.
-/

namespace AgentMesh.Gossip

/-- When a step happens, if time matters to it. -/
def Op.time? : Op → Option Nat
  | .merge _ now => some now
  | .act (.tick now _ _) => some now
  | .act (.purge now _) => some now
  | .act _ => none

/-- The times of the steps do not decrease. -/
def Timely (ops : List Op) : Prop :=
  (ops.filterMap Op.time?).Pairwise (· ≤ ·)

instance (ops : List Op) : Decidable (Timely ops) :=
  inferInstanceAs (Decidable (List.Pairwise _ _))

theorem Timely.le_of_concat {ops rest : List Op} {op : Op} (h : Timely (ops ++ op :: rest)) {now τ : Nat}
    (hnow : op.time? = some now) {op' : Op} (hop' : op' ∈ ops) (hτ : op'.time? = some τ) : τ ≤ now := by
  rw [Timely, List.filterMap_append] at h
  refine (List.pairwise_append.mp h).2.2 τ (List.mem_filterMap.mpr ⟨op', hop', hτ⟩) now ?_
  exact List.mem_filterMap.mpr ⟨op, List.mem_cons_self, hnow⟩

theorem Timely.of_append {ops rest : List Op} (h : Timely (ops ++ rest)) : Timely ops := by
  rw [Timely, List.filterMap_append] at h
  exact (List.pairwise_append.mp h).1

namespace Standing

theorem listed_of_first {r : MemberRecord} {now : Nat} {p : Peer} (h : (first r now).1 = listed p) :
    (first r now).2 = .joined ∧ p = ⟨r, now, now⟩ := by
  by_cases hl : r.state.isLive
  · simp only [first, hl, ↓reduceIte] at h ⊢
    cases h
    exact ⟨trivial, rfl⟩
  · simp [first, hl] at h

/-- News that leave a name as a peer made it join, or else they refreshed or replaced what was known. -/
theorem listed_of_hear {k : Standing} {r : MemberRecord} {now : Nat} {p : Peer} (h : (k.hear r now).1 = listed p) :
    ((k.hear r now).2 = .joined ∧ p = ⟨r, now, now⟩) ∨
      ∃ q, k = listed q ∧ (k.hear r now).2 ≠ .joined ∧
        ((r.supersedes q.record = false ∧ p = q.refresh r now) ∨
          (r.supersedes q.record = true ∧ p = q.replace r now)) := by
  cases k with
  | unknown => exact Or.inl (listed_of_first h)
  | listed q =>
      refine Or.inr ⟨q, rfl, ?_⟩
      by_cases hs : r.supersedes q.record
      · by_cases hl : r.state.isLive
        · simp only [hear, hs, hl, Bool.not_true, Bool.false_eq_true, ↓reduceIte] at h ⊢
          cases h
          exact ⟨by split <;> decide, Or.inr ⟨trivial, rfl⟩⟩
        · simp [hear, hs, hl] at h
      · simp only [hear, hs, Bool.not_false, ↓reduceIte] at h ⊢
        cases h
        exact ⟨by decide, Or.inl ⟨by simp, rfl⟩⟩
  | buried s =>
      by_cases hi : r.incarnation ≤ s.record.incarnation
      · simp [hear, hi] at h
      · simp only [hear, hi, ↓reduceIte] at h ⊢
        exact Or.inl (listed_of_first h)

/-- Nothing that a node does of its own accord brings a peer, and only a tick changes one. -/
theorem listed_of_onStanding {n : String} {a : Act} {k : Standing} {p : Peer} (h : a.onStanding n k = listed p) :
    ∃ q, k = listed q ∧ ((∃ now suspectAfter deadAfter, a = .tick now suspectAfter deadAfter ∧
      q.dies now suspectAfter deadAfter = false ∧ p = q.afterTick now suspectAfter) ∨ p = q) := by
  cases k with
  | unknown =>
      cases a with
      | forget m => simp [Act.onStanding, pardon] at h
      | _ => simp [Act.onStanding, ripen, expire] at h
  | listed q =>
      refine ⟨q, rfl, ?_⟩
      cases a with
      | tick now suspectAfter deadAfter =>
          simp only [Act.onStanding, ripen] at h
          split at h
          · cases h
          · rename_i hdies
            cases h
            exact Or.inl ⟨now, suspectAfter, deadAfter, rfl, by simpa using hdies, rfl⟩
      | forget m =>
          simp only [Act.onStanding, pardon, ite_self] at h
          cases h
          exact Or.inr rfl
      | _ => cases h; exact Or.inr rfl
  | buried s => exact absurd h (onStanding_buried_ne_listed s a n p)

end Standing

namespace Table

variable {t : Table} {n : String}

/-! ## What a step makes of a peer -/

/-- How a step of a table leaves a name as a peer. -/
inductive PeerStep (t : Table) (n : String) : Op → Peer → Prop
  | joined {r : MemberRecord} {now : Nat} (hname : r.name = n) (hout : (t.merge r now).2 = .joined) :
      PeerStep t n (.merge r now) ⟨r, now, now⟩
  | refreshed {r : MemberRecord} {now : Nat} {p : Peer} (hname : r.name = n) (hp : t.peers[n]? = some p)
      (hsupersedes : r.supersedes p.record = false) (hout : (t.merge r now).2 ≠ .joined) :
      PeerStep t n (.merge r now) (p.refresh r now)
  | replaced {r : MemberRecord} {now : Nat} {p : Peer} (hname : r.name = n) (hp : t.peers[n]? = some p)
      (hsupersedes : r.supersedes p.record = true) (hout : (t.merge r now).2 ≠ .joined) :
      PeerStep t n (.merge r now) (p.replace r now)
  | ticked {now suspectAfter deadAfter : Nat} {p : Peer} (hp : t.peers[n]? = some p)
      (hdies : p.dies now suspectAfter deadAfter = false) :
      PeerStep t n (.act (.tick now suspectAfter deadAfter)) (p.afterTick now suspectAfter)
  | kept {op : Op} {p : Peer} (hp : t.peers[n]? = some p) (hop : ∀ r now, op = .merge r now → r.name ≠ n) :
      PeerStep t n op p

theorem peerStep_act (hw : t.WellFormed) {a : Act} {p : Peer} (hp : (t.act a).peers[n]? = some p) :
    t.PeerStep n (.act a) p := by
  have hk := (hw.act a).peer_iff.mp hp
  rw [standing_act hw] at hk
  obtain ⟨q, hq, hstep⟩ := Standing.listed_of_onStanding hk
  have hq := hw.peer_iff.mpr hq
  rcases hstep with ⟨now, suspectAfter, deadAfter, rfl, hdies, rfl⟩ | rfl
  · exact .ticked hq hdies
  · exact .kept hq (by simp)

theorem peerStep_merge (hw : t.WellFormed) {r : MemberRecord} {now : Nat} {p : Peer}
    (hp : (t.merge r now).1.peers[n]? = some p) : t.PeerStep n (.merge r now) p := by
  have hk := (hw.merge r now).peer_iff.mp hp
  rw [standing_merge hw] at hk
  by_cases hn : r.name = n ∧ n ≠ t.self.name
  · rw [if_pos hn] at hk
    obtain ⟨rfl, hself⟩ := hn
    have hout := outcome_merge hw hself now
    rcases Standing.listed_of_hear hk with ⟨hjoined, rfl⟩ | ⟨q, hq, hjoined, hstep⟩
    · exact .joined rfl (hout.trans hjoined)
    · have hq := hw.peer_iff.mpr hq
      rw [← hout] at hjoined
      rcases hstep with ⟨hs, rfl⟩ | ⟨hs, rfl⟩
      · exact .refreshed rfl hq hs hjoined
      · exact .replaced rfl hq hs hjoined
  · rw [if_neg hn] at hk
    refine .kept (hw.peer_iff.mpr hk) fun r' now' hop hname => ?_
    cases hop
    exact hn ⟨hname, hw.ne_self_of_peer (hw.peer_iff.mpr hk)⟩

theorem peerStep_apply (hw : t.WellFormed) {op : Op} {p : Peer} (hp : (t.apply op).peers[n]? = some p) :
    t.PeerStep n op p := by
  cases op with
  | act a => exact peerStep_act hw hp
  | merge r now => exact peerStep_merge hw hp

/-! ## Signs of life -/

/--
News that show that a member lives: they make it join, they supersede what is known and say that it is alive, or they
do not supersede it and raise its heartbeat.
-/
def ShowsLife (t : Table) (n : String) : Op → Prop
  | .merge r now => r.name = n ∧ ((t.merge r now).2 = .joined ∨ ∃ p, t.peers[n]? = some p ∧
      ((r.supersedes p.record = true ∧ r.state = .alive) ∨
        (r.supersedes p.record = false ∧ ∃ p', (t.merge r now).1.peers[n]? = some p' ∧
          p.record.heartbeat < p'.record.heartbeat)))
  | .act _ => False

theorem showsLife_of_peer {r : MemberRecord} {now : Nat} {p : Peer} (hname : r.name = n)
    (hp : t.peers[n]? = some p) (hout : (t.merge r now).2 ≠ .joined) :
    t.ShowsLife n (.merge r now) ↔ (r.supersedes p.record = true ∧ r.state = .alive) ∨
      (r.supersedes p.record = false ∧ ∃ p', (t.merge r now).1.peers[n]? = some p' ∧
        p.record.heartbeat < p'.record.heartbeat) := by
  simp [ShowsLife, hname, hout, hp]

/-- A step moves the time at which a peer was last heard of if it shows that the peer lives, and only then. -/
theorem lastHeard_apply (hw : t.WellFormed) {op : Op} {p' : Peer} (hp' : (t.apply op).peers[n]? = some p') :
    (t.ShowsLife n op ∧ op.time? = some p'.lastHeard) ∨
      (¬ t.ShowsLife n op ∧ ∃ p, t.peers[n]? = some p ∧ p.lastHeard = p'.lastHeard) := by
  cases peerStep_apply hw hp' with
  | joined hname hout => exact Or.inl ⟨⟨hname, Or.inl hout⟩, rfl⟩
  | @refreshed r now p hname hp hs hout =>
      have hp' : (t.merge r now).1.peers[n]? = some (p.refresh r now) := hp'
      rw [showsLife_of_peer hname hp hout]
      by_cases hbeat : r.incarnation = p.record.incarnation ∧ p.record.heartbeat < r.heartbeat
      · refine Or.inl ⟨Or.inr ⟨hs, _, hp', ?_⟩, ?_⟩
        · simp [Peer.refresh, hbeat]
        · simp [Peer.refresh, hbeat, Op.time?]
      · have hsame : p.refresh r now = p := by rw [Peer.refresh, if_neg hbeat]
        exact Or.inr ⟨by simp [hs, hp', hsame], p, hp, by rw [hsame]⟩
  | @replaced r now p hname hp hs hout =>
      rw [showsLife_of_peer hname hp hout]
      by_cases halive : r.state = .alive
      · exact Or.inl ⟨Or.inl ⟨hs, halive⟩, by simp [Peer.replace, halive, Op.time?]⟩
      · exact Or.inr ⟨by simp [hs, halive], p, hp, by simp [Peer.replace, halive]⟩
  | @ticked now suspectAfter deadAfter p hp hdies =>
      refine Or.inr ⟨id, p, hp, ?_⟩
      simp only [Peer.afterTick]
      split <;> rfl
  | kept hp hop =>
      refine Or.inr ⟨?_, p', hp, rfl⟩
      cases op with
      | act a => exact id
      | merge r now => exact fun h => hop r now rfl h.1

/-- The state of a peer is new at the time of the step, or it is the old state since the old time. -/
theorem stateSince_apply (hw : t.WellFormed) {op : Op} {p' : Peer} (hp' : (t.apply op).peers[n]? = some p') :
    op.time? = some p'.stateSince ∨
      ∃ p, t.peers[n]? = some p ∧ p.stateSince = p'.stateSince ∧ p.record.state = p'.record.state := by
  cases peerStep_apply hw hp' with
  | joined => exact Or.inl rfl
  | @refreshed r now p hname hp =>
      refine Or.inr ⟨p, hp, ?_⟩
      simp only [Peer.refresh]
      split <;> exact ⟨rfl, rfl⟩
  | @replaced r now p hname hp =>
      by_cases hstate : r.state = p.record.state
      · exact Or.inr ⟨p, hp, by simp [Peer.replace, hstate], hstate.symm⟩
      · exact Or.inl (by simp [Peer.replace, hstate, Op.time?])
  | @ticked now suspectAfter deadAfter p hp =>
      by_cases hfalls : p.fallsSuspect now suspectAfter
      · exact Or.inl (by simp [Peer.afterTick, hfalls, Peer.suspect, Op.time?])
      · exact Or.inr ⟨p, hp, by simp [Peer.afterTick, hfalls]⟩
  | kept hp => exact Or.inr ⟨p', hp, rfl, rfl⟩

/-! ## What the times of a peer remember of a run -/

/-- A step of the run at this time showed that the member lives. -/
def HeardAt (t : Table) (ops : List Op) (n : String) (τ : Nat) : Prop :=
  ∃ before op, before ++ [op] <+: ops ∧ op.time? = some τ ∧ (t.run before).ShowsLife n op

def Suspects (t : Table) (n : String) : Prop :=
  ∃ p, t.peers[n]? = some p ∧ p.record.state = .suspect

/-- In every state of the run since some step at this time the member is a suspect. -/
def SuspectSince (t : Table) (ops : List Op) (n : String) (τ : Nat) : Prop :=
  ∃ before op, before ++ [op] <+: ops ∧ op.time? = some τ ∧
    ∀ mid, before ++ [op] <+: mid → mid <+: ops → (t.run mid).Suspects n

theorem heardAt_concat {ops : List Op} {op : Op} {τ : Nat} :
    t.HeardAt (ops ++ [op]) n τ ↔ t.HeardAt ops n τ ∨ (op.time? = some τ ∧ (t.run ops).ShowsLife n op) := by
  constructor
  · rintro ⟨before, op', hpre, hτ, hlife⟩
    rcases List.prefix_concat_iff.mp hpre with heq | hpre
    · obtain ⟨rfl, hop⟩ := List.append_inj' heq rfl
      cases hop
      exact Or.inr ⟨hτ, hlife⟩
    · exact Or.inl ⟨before, op', hpre, hτ, hlife⟩
  · rintro (⟨before, op', hpre, hτ, hlife⟩ | ⟨hτ, hlife⟩)
    · exact ⟨before, op', hpre.trans (List.prefix_append ops [op]), hτ, hlife⟩
    · exact ⟨ops, op, List.prefix_rfl, hτ, hlife⟩

theorem HeardAt.le {ops rest : List Op} {op : Op} {now τ : Nat} (hτ : t.HeardAt ops n τ)
    (h : Timely (ops ++ op :: rest)) (hnow : op.time? = some now) : τ ≤ now := by
  obtain ⟨before, op', hpre, hτ, -⟩ := hτ
  exact h.le_of_concat hnow (hpre.subset (by simp)) hτ

theorem SuspectSince.concat {ops : List Op} {op : Op} {τ : Nat} (h : t.SuspectSince ops n τ)
    (hop : (t.run (ops ++ [op])).Suspects n) : t.SuspectSince (ops ++ [op]) n τ := by
  obtain ⟨before, op', hpre, hτ, hsuspect⟩ := h
  refine ⟨before, op', hpre.trans (List.prefix_append ops [op]), hτ, fun mid hmid hmid' => ?_⟩
  rcases List.prefix_concat_iff.mp hmid' with rfl | hmid'
  · exact hop
  · exact hsuspect mid hmid hmid'

variable {self : MemberRecord}

/-- A peer was last heard of at the latest time at which the run showed that it lives. -/
theorem lastHeard_isGreatest {ops : List Op} (h : Timely ops) {p : Peer}
    (hp : ((new self).run ops).peers[n]? = some p) : IsGreatest {τ | (new self).HeardAt ops n τ} p.lastHeard := by
  induction ops using List.reverseRecOn generalizing p with
  | nil => simp [new] at hp
  | append_singleton ops op ih =>
      have hw := (new_wellFormed self).run ops
      rw [run_append] at hp
      rcases lastHeard_apply hw hp with ⟨hlife, htime⟩ | ⟨hlife, q, hq, hheard⟩
      · refine ⟨heardAt_concat.mpr (Or.inr ⟨htime, hlife⟩), fun τ hτ => ?_⟩
        rcases heardAt_concat.mp hτ with hτ | ⟨hτ, -⟩
        · exact hτ.le h htime
        · rw [htime, Option.some.injEq] at hτ
          exact hτ.ge
      · obtain ⟨hmem, hupper⟩ := ih h.of_append hq
        rw [hheard] at hmem hupper
        refine ⟨heardAt_concat.mpr (Or.inl hmem), fun τ hτ => ?_⟩
        rcases heardAt_concat.mp hτ with hτ | ⟨-, hlife'⟩
        · exact hupper hτ
        · exact absurd hlife' hlife

theorem suspectSince_stateSince {ops : List Op} {p : Peer} (hp : ((new self).run ops).peers[n]? = some p)
    (hsuspect : p.record.state = .suspect) : (new self).SuspectSince ops n p.stateSince := by
  induction ops using List.reverseRecOn generalizing p with
  | nil => simp [new] at hp
  | append_singleton ops op ih =>
      have hw := (new_wellFormed self).run ops
      have hnow : ((new self).run (ops ++ [op])).Suspects n := ⟨p, hp, hsuspect⟩
      rw [run_append] at hp
      rcases stateSince_apply hw hp with htime | ⟨q, hq, hsince, hstate⟩
      · refine ⟨ops, op, List.prefix_rfl, htime, fun mid hmid hmid' => ?_⟩
        rw [← hmid.eq_of_length_le hmid'.length_le]
        exact hnow
      · exact hsince ▸ (ih hq (hstate.trans hsuspect)).concat hnow

/-! ## What a tick reports -/

theorem mem_keys_filter {f : Peer → Bool} :
    n ∈ (t.peers.filter fun _ p => f p).keys ↔ ∃ p, t.peers[n]? = some p ∧ f p = true := by
  rw [Std.ExtTreeMap.mem_keys, Std.ExtTreeMap.mem_iff_isSome_getElem?, Std.ExtTreeMap.getElem?_filter',
    Option.isSome_filter, Option.any_eq_true]

theorem suspected_mem_tick {now suspectAfter deadAfter : Nat} :
    (n, .suspected) ∈ (t.tick now suspectAfter deadAfter).2 ↔
      ∃ p, t.peers[n]? = some p ∧ p.fallsSuspect now suspectAfter = true := by
  simp only [tick, List.mem_append, List.mem_map, Prod.mk.injEq, reduceCtorEq, and_false, exists_false, or_false,
    and_true, exists_eq_right, mem_keys_filter]

theorem left_mem_tick {now suspectAfter deadAfter : Nat} :
    (n, .left) ∈ (t.tick now suspectAfter deadAfter).2 ↔
      ∃ p, t.peers[n]? = some p ∧ p.dies now suspectAfter deadAfter = true := by
  simp only [tick, List.mem_append, List.mem_map, Prod.mk.injEq, reduceCtorEq, and_false, exists_false, false_or,
    and_true, exists_eq_right, mem_keys_filter]

/-- Nobody dies in the tick that finds them alive. -/
theorem alive_survives_tick (hw : t.WellFormed) {p : Peer} (hp : t.peers[n]? = some p)
    (halive : p.record.state = .alive) (now suspectAfter deadAfter : Nat) :
    n ∈ (t.tick now suspectAfter deadAfter).1.peers ∧ n ∉ (t.tick now suspectAfter deadAfter).1.tombstones ∧
      (n, .left) ∉ (t.tick now suspectAfter deadAfter).2 := by
  have hdies : p.dies now suspectAfter deadAfter = false := by simp [Peer.dies, halive]
  have hw' := hw.act (.tick now suspectAfter deadAfter)
  have hk : (t.act (.tick now suspectAfter deadAfter)).standing n = .listed (p.afterTick now suspectAfter) := by
    rw [standing_act hw, hw.peer_iff.mp hp]
    simp [Act.onStanding, Standing.ripen, hdies]
  refine ⟨hw'.mem_peers.mpr ⟨_, hk⟩, fun hs => ?_, fun hreport => ?_⟩
  · obtain ⟨s, hs⟩ := hw'.mem_tombstones.mp hs
    rw [hk] at hs
    cases hs
  · obtain ⟨q, hq, hdies'⟩ := left_mem_tick.mp hreport
    rw [hp, Option.some.injEq] at hq
    rw [← hq, hdies] at hdies'
    cases hdies'

theorem heardAt_of_silent {ops rest : List Op} {op : Op} {now silence : Nat} (h : Timely (ops ++ op :: rest))
    (hnow : op.time? = some now) {p : Peer} (hp : ((new self).run ops).peers[n]? = some p)
    (hsilent : silence ≤ now - p.lastHeard) {τ : Nat} (hτ : (new self).HeardAt ops n τ) : τ + silence ≤ now := by
  obtain ⟨hmem, hupper⟩ := lastHeard_isGreatest h.of_append hp
  have hle : τ ≤ p.lastHeard := hupper hτ
  have hlast : p.lastHeard ≤ now := HeardAt.le hmem h hnow
  omega

/--
In a run whose times do not decrease, a member that a tick reports as dead has been a suspect throughout since a step
that is at least the one timeout old, and all that showed that it lives is at least the other timeout old. The latter
holds of a member that is reported as suspect too. And no tick takes a peer from life to death, whatever the timeouts.
-/
theorem tick_sound (self : MemberRecord) {ops rest : List Op} {now suspectAfter deadAfter : Nat}
    (h : Timely (ops ++ .act (.tick now suspectAfter deadAfter) :: rest)) :
    (∀ n, (n, .left) ∈ (((new self).run ops).tick now suspectAfter deadAfter).2 →
      (∃ τ, (new self).SuspectSince ops n τ ∧ τ + deadAfter ≤ now) ∧
        ∀ τ, (new self).HeardAt ops n τ → τ + suspectAfter ≤ now) ∧
    (∀ n, (n, .suspected) ∈ (((new self).run ops).tick now suspectAfter deadAfter).2 →
      ∀ τ, (new self).HeardAt ops n τ → τ + suspectAfter ≤ now) ∧
    (∀ (n : String) p, ((new self).run ops).peers[n]? = some p → p.record.state = .alive →
      ∀ now' suspectAfter' deadAfter',
        n ∈ (((new self).run ops).tick now' suspectAfter' deadAfter').1.peers ∧
          n ∉ (((new self).run ops).tick now' suspectAfter' deadAfter').1.tombstones ∧
          (n, .left) ∉ (((new self).run ops).tick now' suspectAfter' deadAfter').2) := by
  refine ⟨fun n hreport => ?_, fun n hreport => ?_, fun n p hp halive => ?_⟩
  · obtain ⟨p, hp, hdies⟩ := left_mem_tick.mp hreport
    simp only [Peer.dies, Bool.and_eq_true, beq_iff_eq, decide_eq_true_eq] at hdies
    obtain ⟨⟨hsuspect, hsilent⟩, hlong⟩ := hdies
    have hsince := suspectSince_stateSince hp hsuspect
    have hle : p.stateSince ≤ now := by
      obtain ⟨before, op, hpre, htime, -⟩ := hsince
      exact h.le_of_concat rfl (hpre.subset (by simp)) htime
    exact ⟨⟨p.stateSince, hsince, by omega⟩, fun τ hτ => heardAt_of_silent h rfl hp hsilent hτ⟩
  · obtain ⟨p, hp, hfalls⟩ := suspected_mem_tick.mp hreport
    simp only [Peer.fallsSuspect, Bool.and_eq_true, decide_eq_true_eq] at hfalls
    intro τ hτ
    exact heardAt_of_silent h rfl hp hfalls.2 hτ
  · exact alive_survives_tick ((new_wellFormed self).run ops) hp halive

/-- A member joins, falls suspect, is called suspect again at a later incarnation, and dies of silence. -/
def sampleSilence : List Op :=
  [.merge (.brief "b" 0 .alive) 10, .act (.tick 5010 5000 10000), .merge (.brief "b" 1 .suspect) 9000,
    .act (.purge 9500 30000)]

theorem tick_sound_sample : Timely (sampleSilence ++ [.act (.tick 15010 5000 10000)]) ∧
    ("b", .left) ∈ (((new (.brief "a" 0 .alive)).run sampleSilence).tick 15010 5000 10000).2 ∧
    (∃ τ, (new (.brief "a" 0 .alive)).SuspectSince sampleSilence "b" τ ∧ τ + 10000 ≤ 15010) ∧
    (new (.brief "a" 0 .alive)).HeardAt sampleSilence "b" 10 ∧ 10 + 5000 ≤ 15010 := by
  have htimely : Timely (sampleSilence ++ [.act (.tick 15010 5000 10000)]) := by decide
  have hreport : ("b", .left) ∈ (((new (.brief "a" 0 .alive)).run sampleSilence).tick 15010 5000 10000).2 := by
    decide +kernel
  have hheard : (new (.brief "a" 0 .alive)).HeardAt sampleSilence "b" 10 :=
    ⟨[], .merge (.brief "b" 0 .alive) 10, ⟨_, rfl⟩, rfl, rfl, Or.inl (by decide +kernel)⟩
  obtain ⟨hsince, hquiet⟩ := (tick_sound (.brief "a" 0 .alive) htimely).1 "b" hreport
  exact ⟨htimely, hreport, hsince, hheard, hquiet 10 hheard⟩

end Table

end AgentMesh.Gossip
