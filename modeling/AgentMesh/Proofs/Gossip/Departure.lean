import AgentMesh.Proofs.Gossip.Burial
import AgentMesh.Proofs.Gossip.Ownership
import AgentMesh.Proofs.Gossip.Views

/-!
# Leaving

A node that leaves takes a new incarnation, at which it never says that it lives. Whatever else is said of its life, in
the tables and in flight, is of an earlier incarnation. So its last word wins wherever it arrives.
-/

namespace AgentMesh.Gossip.Cluster

variable {ι : Type} [DecidableEq ι] {c : Cluster ι} {es : List (Event ι)} {i : ι}

/-! ## The node that left -/

theorem incarnation_lt_step (e : Event ι) (h : (c.tables i).self.state ≠ .left)
    (h' : ((c.step e).tables i).self.state = .left) :
    (c.tables i).self.incarnation < ((c.step e).tables i).self.incarnation := by
  rw [tables_step] at h' ⊢
  exact Table.incarnation_lt_run h h'

theorem incarnation_lt_run (es : List (Event ι)) (h : (c.tables i).self.state ≠ .left)
    (h' : ((c.run es).tables i).self.state = .left) :
    (c.tables i).self.incarnation < ((c.run es).tables i).self.incarnation := by
  induction es generalizing c with
  | nil => exact absurd h' h
  | cons e es ih =>
      have he := (precedes_step c e i).incarnation
      have hes := (precedes_run (c.step e) es i).incarnation
      by_cases hleft : ((c.step e).tables i).self.state = .left
      · exact (incarnation_lt_step e h hleft).trans_le hes
      · exact Nat.lt_of_le_of_lt he (ih hleft h')

theorem saying_incarnation_lt {before : List (Event ι)} (hb : before <+: es)
    (h : (c.saying before i).state ≠ .left) (h' : (c.saying es i).state = .left) :
    (c.saying before i).incarnation < (c.saying es i).incarnation := by
  obtain ⟨after, rfl⟩ := hb
  rw [saying, run_append] at h'
  rw [saying, saying, run_append]
  exact incarnation_lt_run after h h'

theorem saying_leave (c : Cluster ι) (es : List (Event ι)) (i : ι) :
    (c.saying (es ++ [.act i .leave]) i).state = .left := by
  have hstep : c.run (es ++ [.act i .leave]) = (c.run es).step (.act i .leave) := run_append c es _
  rw [saying, hstep, tables_step]
  simp only [opsAt, ↓reduceIte, Table.run_cons, Table.run_nil, Table.apply, Table.act, Table.leave]
  split
  · assumption
  · rfl

/-! ## What is said of a life -/

/-- The record's owner had its incarnation, and if the record says that it lives, it had not left then. -/
def Dated (c : Cluster ι) (es : List (Event ι)) (r : MemberRecord) : Prop :=
  ∃ i before, before <+: es ∧ r.name = (c.saying before i).name ∧
    r.incarnation = (c.saying before i).incarnation ∧ (r.state.isLive = true → (c.saying before i).state ≠ .left)

theorem dated_spreads (c : Cluster ι) : c.Spreads c.Dated where
  own es i := by
    refine ⟨i, es, List.prefix_rfl, rfl, rfl, fun hlive hleft => ?_⟩
    rw [hleft] at hlive
    cases hlive
  later := by
    rintro es r ⟨i, before, hb, hr⟩ e
    exact ⟨i, before, hb.trans (List.prefix_append es [e]), hr⟩
  withAddr := by
    rintro es r ⟨i, before, hb, hr⟩ addr
    exact ⟨i, before, hb, hr⟩
  endures es :=
    { state := by
        rintro r ⟨i, before, hb, hname, hinc, hlive⟩ state hstate
        exact ⟨i, before, hb, hname, hinc, fun h => hlive (hstate h)⟩
      heartbeat := by
        rintro r r' ⟨i, before, hb, hr⟩ - - -
        exact ⟨i, before, hb, hr⟩ }

variable {records : ι → MemberRecord}

/-- At any time, what is said of a node's life is of an earlier incarnation than what the node says once it left. -/
theorem incarnation_lt_of_live (hnames : Function.Injective fun i => (records i).name) {seen mid : List (Event ι)}
    (hseen : seen <+: es) (hmid : mid <+: es) (hleft : ((start records).saying mid i).state = .left)
    {r : MemberRecord} (hr : ((start records).run seen).Holds r) (hname : r.name = (records i).name)
    (hlive : r.state.isLive = true) : r.incarnation < ((start records).saying mid i).incarnation := by
  obtain ⟨j, before, hb, hn, hinc, hstay⟩ := (dated_spreads (start records)).of_holds seen hr
  have hij : i = j := hnames (hname.symm.trans (hn.trans (name_saying (start records) before j)))
  subst hij
  rw [hinc]
  rcases List.prefix_or_prefix_of_prefix (hb.trans hseen) hmid with hp | hp
  · exact saying_incarnation_lt hp (hstay hlive) hleft
  · exact absurd ((saying_precedes hp i).left hleft) (hstay hlive)

theorem holds_of_peer {κ : Type} {c : Cluster κ} {j : κ} {n : String} {p : Peer}
    (hp : (c.tables j).peers[n]? = some p) : c.Holds p.record :=
  Or.inl ⟨j, List.mem_cons_of_mem _ (List.mem_append_left _ (Table.mem_peerRecords.mpr ⟨n, p, hp, rfl⟩))⟩

/--
From the moment in which a node leaves, it says for ever that it left, and its incarnation does not fall. Every live
record about it, in a table or in flight, is of an earlier incarnation than the one at which it left. And merging a
record that it sends about itself after that, under whatever address and into whatever table of another node, leaves
it buried there at that record's incarnation or a later one.
-/
theorem leave_is_final (hnames : Function.Injective fun i => (records i).name) (before after : List (Event ι))
    (i : ι) :
    let gone := before ++ [.act i .leave]
    (∀ mid mid', ((start records).saying (gone ++ mid) i).state = .left ∧
      ((start records).saying (gone ++ mid) i).incarnation ≤
        ((start records).saying (gone ++ mid ++ mid') i).incarnation) ∧
    (∀ r, ((start records).run (gone ++ after)).Holds r → r.name = (records i).name → r.state.isLive = true →
      r.incarnation < ((start records).saying gone i).incarnation) ∧
    (∀ mid, mid <+: after → ∀ (u : Utterance) (r : MemberRecord),
      r ∈ (u.message (((start records).run (gone ++ mid)).tables i)).records → r.name = (records i).name →
      ∀ seen, seen <+: gone ++ after → ∀ j, j ≠ i → ∀ addr now,
        let t := ((((start records).run seen).tables j).merge { r with addr } now).1
        (records i).name ∉ t.peers ∧ ∃ s, t.tombstones[(records i).name]? = some s ∧
          r.incarnation ≤ s.record.incarnation) := by
  intro gone
  have hgone : ((start records).saying gone i).state = .left := saying_leave _ before i
  have hleft (mid : List (Event ι)) : ((start records).saying (gone ++ mid) i).state = .left :=
    (saying_precedes (List.prefix_append gone mid) i).left hgone
  refine ⟨fun mid mid' => ⟨hleft mid, ?_⟩, fun r hr hname hlive => ?_, ?_⟩
  · exact (saying_precedes (List.prefix_append _ mid') i).incarnation
  · exact incarnation_lt_of_live hnames List.prefix_rfl (List.prefix_append gone after) hgone hr hname hlive
  · intro mid hmid u r hr hname seen hseen j hj addr now
    have hw := (reachable_tables records seen j).wellFormed
    -- Of itself a node sends nothing but its own record.
    have hself : r = (start records).saying (gone ++ mid) i := by
      refine (reachable_tables records (gone ++ mid) i).wellFormed.eq_self_of_mem_payload
        (Utterance.records_subset _ u hr) (hname.trans ?_)
      exact (name_saying (start records) (gone ++ mid) i).symm
    have hother : (((start records).run seen).tables j).self.name = (records j).name :=
      name_saying (start records) seen j
    have hne : r.name ≠ (((start records).run seen).tables j).self.name := by
      rw [hname, hother]
      exact fun h => hj (hnames h.symm)
    have hdead : r.state.isLive = false := by rw [hself, hleft mid]; rfl
    have hburied := Table.buries_merge hw (r := { r with addr }) hne hdead (fun p hp => ?_) now
    · have hw' := hw.merge { r with addr } now
      exact hname ▸ ⟨hburied.not_mem_peers hw', hburied⟩
    · obtain ⟨hpname, hlive⟩ := hw.fits_of_peer hp
      rw [show ({ r with addr } : MemberRecord).incarnation = r.incarnation from rfl, hself]
      exact incarnation_lt_of_live hnames hseen ((List.prefix_append_right_inj gone).mpr hmid) (hleft mid)
        (holds_of_peer hp) (hpname.trans hname) hlive

def sampleCouple (i : Bool) : MemberRecord :=
  .brief (if i then "b" else "a") 0 .alive

/-- One node hears of the other, and suspects it before it leaves. -/
def sampleStay : List (Event Bool) :=
  [.act false .beat, .send false .join, .deliver true 0 default 10, .act true (.tick 6000 5000 10000)]

/-- The node that left hears of the suspicion, and changes its profile. -/
def sampleGone : List (Event Bool) :=
  [.send true .news, .deliver false 1 default 6010, .act false (.setProfile { status := .busy }), .send false .ownNews]

theorem leave_is_final_sample :
    let gone : List (Event Bool) := sampleStay ++ [.act false .leave]
    let last := (start sampleCouple).saying (gone ++ sampleGone) false
    let suspected := { sampleCouple false with heartbeat := 1, state := .suspect }
    let t := ((((start sampleCouple).run (gone ++ sampleGone)).tables true).merge { last with addr := default } 6020).1
    (Function.Injective fun i => (sampleCouple i).name) ∧
    ((start sampleCouple).run (gone ++ sampleGone)).Holds suspected ∧
    suspected.incarnation < ((start sampleCouple).saying gone false).incarnation ∧
    last.state = .left ∧ last.incarnation = 2 ∧ "a" ∉ t.peers ∧
    ∃ s, t.tombstones["a"]? = some s ∧ last.incarnation ≤ s.record.incarnation := by
  intro gone last suspected t
  have hnames : Function.Injective fun i => (sampleCouple i).name := by unfold Function.Injective; decide
  have hheld : ((start sampleCouple).run (gone ++ sampleGone)).Holds suspected := Or.inl ⟨true, by decide +kernel⟩
  obtain ⟨hleft, hlive, hlast⟩ := leave_is_final hnames sampleStay sampleGone false
  refine ⟨hnames, hheld, hlive suspected hheld rfl rfl, (hleft sampleGone []).1, by decide +kernel, ?_⟩
  exact hlast sampleGone List.prefix_rfl .ownNews last List.mem_cons_self (by decide +kernel) _ List.prefix_rfl true
    (by decide) default 6020

end AgentMesh.Gossip.Cluster
