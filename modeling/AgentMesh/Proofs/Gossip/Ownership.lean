import AgentMesh.Proofs.Gossip.Cluster
import AgentMesh.Proofs.Gossip.Records

/-!
# Who decides about a member

In a cluster every record about a node repeats something that the node itself once said, up to its state, its
address and an older heartbeat. So no other node ever runs ahead of it, and nobody disagrees on what it said at
an incarnation.
-/

namespace AgentMesh.Gossip

/-- `r` repeats what its owner said of itself as `s`. -/
structure MemberRecord.Repeats (r s : MemberRecord) : Prop where
  name : r.name = s.name
  rpcPort : r.rpcPort = s.rpcPort
  profile : r.profile = s.profile
  incarnation : r.incarnation = s.incarnation
  heartbeat : r.heartbeat ≤ s.heartbeat

namespace Cluster

variable {ι : Type} [DecidableEq ι]

/-- What node `i` says of itself after some events. -/
def saying (c : Cluster ι) (es : List (Event ι)) (i : ι) : MemberRecord :=
  ((c.run es).tables i).self

/-- The record repeats what some node said of itself in the course of the events. -/
def Told (c : Cluster ι) (es : List (Event ι)) (r : MemberRecord) : Prop :=
  ∃ i before, before <+: es ∧ r.Repeats (c.saying before i)

variable {c : Cluster ι} {es : List (Event ι)}

theorem saying_precedes {before : List (Event ι)} (h : before <+: es) (i : ι) :
    (c.saying before i).Precedes (c.saying es i) := by
  obtain ⟨after, rfl⟩ := h
  rw [saying, saying, run_append]
  exact precedes_run _ after i

/-- A node never says two different things at the same incarnation. -/
theorem saying_eq_of_incarnation_eq {before before' : List (Event ι)} (h : before <+: es) (h' : before' <+: es)
    {i : ι} (hi : (c.saying before i).incarnation = (c.saying before' i).incarnation) :
    (c.saying before i).profile = (c.saying before' i).profile ∧
      (c.saying before i).rpcPort = (c.saying before' i).rpcPort := by
  rcases List.prefix_or_prefix_of_prefix h h' with hp | hp
  · have hs := saying_precedes (c := c) hp i
    exact ⟨hs.profile hi, hs.rpcPort⟩
  · have hs := saying_precedes (c := c) hp i
    exact ⟨(hs.profile hi.symm).symm, hs.rpcPort.symm⟩

/-! ## What spreads -/

/--
The property holds of what the nodes say of themselves, it is not lost as the run goes on, and it survives what the
network and the tables do to a record.
-/
structure Spreads (c : Cluster ι) (Q : List (Event ι) → MemberRecord → Prop) : Prop where
  own : ∀ es i, Q es (c.saying es i)
  later : ∀ {es r}, Q es r → ∀ e, Q (es ++ [e]) r
  withAddr : ∀ {es r}, Q es r → ∀ addr, Q es { r with addr }
  endures : ∀ es, Endures (Q es)

section Spread

variable {records : ι → MemberRecord} {Q : List (Event ι) → MemberRecord → Prop}

theorem Spreads.of_holds_start (hQ : (start records).Spreads Q) {r : MemberRecord} (h : (start records).Holds r) :
    Q [] r := by
  rcases h with ⟨i, hr⟩ | ⟨m, hm, -⟩
  · have hi : ((start records).tables i).payload = [records i] := by
      simp [start, Table.new, Table.payload, Table.peerRecords, Table.tombstoneRecords]
    rw [hi, List.mem_singleton] at hr
    subst hr
    exact hQ.own [] i
  · cases hm

/-- An event spreads no records but those that were held before it, and what the nodes then say of themselves. -/
theorem Spreads.of_holds_step (hQ : (start records).Spreads Q) {es : List (Event ι)}
    (h : ∀ r, ((start records).run es).Holds r → Q es r) (e : Event ι) {r : MemberRecord}
    (hr : ((start records).run (es ++ [e])).Holds r) : Q (es ++ [e]) r := by
  have hold {r : MemberRecord} (hr : ((start records).run es).Holds r) : Q (es ++ [e]) r := hQ.later (h r hr) e
  have hstep : (start records).run (es ++ [e]) = ((start records).run es).step e := run_append _ es [e]
  rw [hstep] at hr
  rcases hr with ⟨i, hr⟩ | ⟨m, hm, hr⟩
  · have hw := (reachable_tables records es i).wellFormed
    have hothers : (((start records).run es).tables i).Others (Q (es ++ [e])) :=
      fun n r hr => hold (Or.inl ⟨i, hw.mem_payload.mpr (Or.inr ⟨n, hr⟩)⟩)
    have hmerged : ∀ r now, .merge r now ∈ ((start records).run es).opsAt i e → Q (es ++ [e]) r := by
      intro r now hr
      obtain ⟨m, hm, r', hr', rfl | ⟨addr, rfl⟩⟩ := record_of_merge_mem_opsAt hr
      · exact hold (Or.inr ⟨m, hm, hr'⟩)
      · exact hQ.withAddr (hold (Or.inr ⟨m, hm, hr'⟩)) addr
    -- The merged records have the property as well, so that nothing without it gets into the table but its own record.
    have hothers' := hothers.run hw (hQ.endures _) hmerged
    have hw' := hw.run (((start records).run es).opsAt i e)
    rw [tables_step] at hr
    rcases hothers'.mem_payload hw' hr with rfl | hr
    · rw [← tables_step, ← hstep]
      exact hQ.own (es ++ [e]) i
    · exact hr
  · rcases mem_sent_step hm with hm | ⟨i, u, rfl⟩
    · exact hold (Or.inr ⟨m, hm, hr⟩)
    · exact hold (Or.inl ⟨i, Utterance.records_subset _ u hr⟩)

/-- Every record in a table or in flight has the property. -/
theorem Spreads.of_holds (hQ : (start records).Spreads Q) (es : List (Event ι)) {r : MemberRecord}
    (h : ((start records).run es).Holds r) : Q es r := by
  induction es using List.reverseRecOn generalizing r with
  | nil => exact hQ.of_holds_start h
  | append_singleton es e ih => exact hQ.of_holds_step (fun r => ih) e h

end Spread

/-! ## What was told -/

theorem Told.mono {r : MemberRecord} (h : c.Told es r) (es' : List (Event ι)) : c.Told (es ++ es') r := by
  obtain ⟨i, before, hb, hr⟩ := h
  exact ⟨i, before, hb.trans (List.prefix_append es es'), hr⟩

theorem told_saying (c : Cluster ι) (es : List (Event ι)) (i : ι) : c.Told es ((c.run es).tables i).self :=
  ⟨i, es, List.prefix_rfl, rfl, rfl, rfl, rfl, Nat.le_refl _⟩

theorem Told.withAddr {r : MemberRecord} (h : c.Told es r) (addr : Net.SocketAddr) :
    c.Told es { r with addr } := by
  obtain ⟨i, before, hb, hr⟩ := h
  exact ⟨i, before, hb, hr.name, hr.rpcPort, hr.profile, hr.incarnation, hr.heartbeat⟩

theorem name_saying (c : Cluster ι) (es : List (Event ι)) (i : ι) : (c.saying es i).name = (c.tables i).self.name :=
  (precedes_run c es i).name.symm

theorem told_carried (hc : Function.Injective fun i => (c.tables i).self.name) (es : List (Event ι)) :
    Carried (c.Told es) where
  state := by
    rintro r ⟨i, before, hb, hr⟩ state
    exact ⟨i, before, hb, hr.name, hr.rpcPort, hr.profile, hr.incarnation, hr.heartbeat⟩
  heartbeat := by
    rintro r r' ⟨i, before, hb, hr⟩ ⟨i', before', hb', hr'⟩ hn hi
    have hii : i = i' := hc (by
      show (c.tables i).self.name = (c.tables i').self.name
      rw [← name_saying c before i, ← name_saying c before' i', ← hr.name, ← hr'.name, hn])
    subst hii
    -- At one incarnation a node has one profile, so that the other record's heartbeat goes with this one.
    obtain ⟨hp, hport⟩ := saying_eq_of_incarnation_eq hb hb'
      (hr.incarnation.symm.trans (hi.trans hr'.incarnation))
    exact ⟨i, before', hb', hn.trans hr'.name, hr.rpcPort.trans hport, hr.profile.trans hp,
      hi.trans hr'.incarnation, hr'.heartbeat⟩

theorem told_spreads (hc : Function.Injective fun i => (c.tables i).self.name) : c.Spreads c.Told where
  own := told_saying c
  later h e := h.mono [e]
  withAddr h addr := h.withAddr addr
  endures es := (told_carried hc es).endures

/-- Every record in a table or in flight was told by its owner. -/
theorem told_of_holds {records : ι → MemberRecord} (hnames : Function.Injective fun i => (records i).name)
    (es : List (Event ι)) {r : MemberRecord} (h : ((start records).run es).Holds r) :
    (start records).Told es r :=
  (told_spreads (c := start records) hnames).of_holds es h

theorem exists_repeats {records : ι → MemberRecord} (hnames : Function.Injective fun i => (records i).name)
    {es : List (Event ι)} {r : MemberRecord} (h : ((start records).run es).Holds r) {i : ι}
    (hi : r.name = (records i).name) : ∃ before, before <+: es ∧ r.Repeats ((start records).saying before i) := by
  obtain ⟨j, before, hb, hr⟩ := told_of_holds hnames es h
  have hij : i = j := hnames (hi.symm.trans (hr.name.trans (name_saying (start records) before j)))
  subst hij
  exact ⟨before, hb, hr⟩

/--
Every record in a table or in flight is about a node of the cluster. It is not ahead of what that node says of
itself, the node did have its incarnation, and whenever it had it, its profile and port were those of the record.
-/
theorem owner_decides {records : ι → MemberRecord} (hnames : Function.Injective fun i => (records i).name)
    (es : List (Event ι)) :
    (∀ r, ((start records).run es).Holds r → ∃ i, r.name = (records i).name) ∧
    (∀ r i, ((start records).run es).Holds r → r.name = (records i).name →
      r.incarnation ≤ ((start records).saying es i).incarnation ∧
        r.heartbeat ≤ ((start records).saying es i).heartbeat ∧
        (∃ before, before <+: es ∧ r.incarnation = ((start records).saying before i).incarnation) ∧
        ∀ before, before <+: es → r.incarnation = ((start records).saying before i).incarnation →
          r.profile = ((start records).saying before i).profile ∧
            r.rpcPort = ((start records).saying before i).rpcPort) ∧
    (∀ r r', ((start records).run es).Holds r → ((start records).run es).Holds r' → r.name = r'.name →
      r.incarnation = r'.incarnation → r.profile = r'.profile ∧ r.rpcPort = r'.rpcPort) := by
  have hnode : ∀ r, ((start records).run es).Holds r → ∃ i, r.name = (records i).name := by
    intro r h
    obtain ⟨i, before, -, hr⟩ := told_of_holds hnames es h
    exact ⟨i, hr.name.trans (name_saying (start records) before i)⟩
  have hsame : ∀ r i, ((start records).run es).Holds r → r.name = (records i).name → ∀ before, before <+: es →
      r.incarnation = ((start records).saying before i).incarnation →
      r.profile = ((start records).saying before i).profile ∧
        r.rpcPort = ((start records).saying before i).rpcPort := by
    intro r i h hi before hb hinc
    obtain ⟨before', hb', hr⟩ := exists_repeats hnames h hi
    obtain ⟨hp, hport⟩ := saying_eq_of_incarnation_eq hb' hb (hr.incarnation.symm.trans hinc)
    exact ⟨hr.profile.trans hp, hr.rpcPort.trans hport⟩
  refine ⟨hnode, fun r i h hi => ?_, fun r r' h h' hn hinc => ?_⟩
  · obtain ⟨before, hb, hr⟩ := exists_repeats hnames h hi
    have hs := saying_precedes (c := start records) hb i
    exact ⟨hr.incarnation ▸ hs.incarnation, Nat.le_trans hr.heartbeat hs.heartbeat, ⟨before, hb, hr.incarnation⟩,
      hsame r i h hi⟩
  · obtain ⟨i, hi⟩ := hnode r h
    obtain ⟨before, hb, hr⟩ := exists_repeats hnames h hi
    obtain ⟨hp, hport⟩ := hsame r' i h' (hn.symm.trans hi) before hb (hinc.symm.trans hr.incarnation)
    exact ⟨hr.profile.trans hp.symm, hr.rpcPort.trans hport.symm⟩

def samplePair (i : Fin 2) : MemberRecord :=
  { name := if i = 0 then "a" else "b", addr := default, rpcPort := 8080 }

/-- One node hears of the other, suspects it, is answered, and then gets the first message again. -/
def sampleEvents : List (Event (Fin 2)) :=
  [.act 0 .beat, .send 0 .join, .deliver 1 0 default 10, .act 1 (.tick 6000 5000 10000), .send 1 .news,
    .deliver 0 1 default 6010, .act 0 (.setProfile { status := .busy }), .send 0 .ownNews, .deliver 1 2 default 6020,
    .deliver 1 0 default 6030]

/-- What the second node then knows of the first. -/
def sampleHeld : MemberRecord :=
  { samplePair 0 with profile := { status := .busy }, incarnation := 2, heartbeat := 1 }

theorem owner_decides_sample : (Function.Injective fun i => (samplePair i).name) ∧
    ((start samplePair).run sampleEvents).Holds sampleHeld ∧
    sampleHeld.incarnation ≤ ((start samplePair).saying sampleEvents 0).incarnation ∧
    sampleHeld.heartbeat ≤ ((start samplePair).saying sampleEvents 0).heartbeat ∧
    sampleHeld.profile = ((start samplePair).saying sampleEvents 0).profile := by
  have hnames : Function.Injective fun i => (samplePair i).name := by unfold Function.Injective; decide
  have hheld : ((start samplePair).run sampleEvents).Holds sampleHeld := Or.inl ⟨1, by decide +kernel⟩
  have hinc : sampleHeld.incarnation = ((start samplePair).saying sampleEvents 0).incarnation := by decide +kernel
  obtain ⟨hle, hbeat, -, hsame⟩ := (owner_decides hnames sampleEvents).2.1 sampleHeld 0 hheld rfl
  exact ⟨hnames, hheld, hle, hbeat, (hsame sampleEvents List.prefix_rfl hinc).1⟩

end Cluster

end AgentMesh.Gossip
