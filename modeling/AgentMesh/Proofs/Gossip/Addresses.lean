import AgentMesh.Proofs.Gossip.Burial
import AgentMesh.Proofs.Gossip.Mesh
import AgentMesh.Proofs.Gossip.Records
import AgentMesh.Proofs.Gossip.Views

/-!
# Addresses

What a node says about its own address is not what others believe. They put the address in its place that its datagrams
come from, before they merge its record. Some messages hold the sender's record a second time as it was written. By then
the receiver knows the sender in that version, so that the second record changes no address.
-/

namespace AgentMesh.Gossip

/-! ## Stale records -/

theorem Standing.Sat.hear_stale {Q : MemberRecord → Prop} (hQ : ∀ p : Peer, Q p.settled.record ↔ Q p.record)
    {n : String} {k : Standing} (hf : k.Fits n) (hk : k.Sat Q) {r : MemberRecord}
    (hle : (r.version : WithBot Version) ≤ k.version) (now : Nat) : (k.hear r now).1.Sat Q := by
  obtain ⟨-, htombstone, hpeer⟩ := Standing.hear_of_version_le hf hle now
  cases hnew : (k.hear r now).1 with
  | unknown => exact sat_unknown
  | listed p =>
      rw [hnew] at hpeer
      cases k with
      | listed q =>
          have hsettled : p.settled = q.settled := by simpa using hpeer
          rw [sat_listed, ← hQ, hsettled, hQ]
          exact sat_listed.mp hk
      | _ => simp at hpeer
  | buried s =>
      rw [hnew] at htombstone
      cases k with
      | buried s' =>
          have hsame : s = s' := by simpa using htombstone
          rw [hsame]
          exact hk
      | _ => simp at htombstone

namespace Table

variable {t : Table} {Q : MemberRecord → Prop}

theorem Others.merge_stale (hw : t.WellFormed) (hQ : ∀ p : Peer, Q p.settled.record ↔ Q p.record) (h : t.Others Q)
    {r : MemberRecord} (hle : (r.version : WithBot Version) ≤ t.version r.name) (now : Nat) :
    (t.merge r now).1.Others Q := by
  intro n
  rw [standing_merge hw]
  split
  · rename_i hn
    obtain ⟨rfl, -⟩ := hn
    exact (h r.name).hear_stale hQ (hw.fits r.name) hle now
  · exact h n

/-- Besides records that have the property, old records of the sender do no harm once the sender's own is merged. -/
theorem Others.mergeAll_after (hw : t.WellFormed) (hQ : Endures Q)
    (hQ' : ∀ p : Peer, Q p.settled.record ↔ Q p.record) (h : t.Others Q) {s : MemberRecord}
    (hs : (s.version : WithBot Version) ≤ t.version s.name) {rs : List MemberRecord}
    (hrs : ∀ r ∈ rs, Q r ∨ (r.name = s.name ∧ r.version ≤ s.version)) (now : Nat) :
    (t.run (rs.map (.merge · now))).Others Q := by
  induction rs generalizing t with
  | nil => exact h
  | cons r rs ih =>
      refine ih (hw.merge r now) ?_ (hs.trans (version_le_merge hw r now s.name))
        fun r' hr' => hrs r' (List.mem_cons_of_mem _ hr')
      rcases hrs r List.mem_cons_self with hr | ⟨hname, hle⟩
      · exact h.merge hw hQ hr now
      · refine h.merge_stale hw hQ' ?_ now
        rw [hname]
        exact (WithBot.coe_le_coe.mpr hle).trans hs

theorem Others.run_ops (hw : t.WellFormed) (hQ : Endures Q) (hQ' : ∀ p : Peer, Q p.settled.record ↔ Q p.record)
    (h : t.Others Q) {m : Message} (hne : m.sender.name ≠ t.self.name) (hsender : Q m.sender)
    (hmembers : ∀ r ∈ m.members, Q r ∨ (r.name = m.sender.name ∧ r.version ≤ m.sender.version)) (now : Nat) :
    (t.run (m.ops now)).Others Q := by
  have htold {u : Table} (hu : u.WellFormed) (hname : u.self.name = t.self.name) (h : u.Others Q) :
      (u.run (m.records.map (.merge · now))).Others Q := by
    refine (h.merge hu hQ hsender now).mergeAll_after (hu.merge _ now) hQ hQ' ?_ hmembers now
    exact le_version_merge hu now rfl (by rwa [hname])
  cases m with
  | join s =>
      have hw' := hw.act (.forget s.name)
      have hforget := h.act hw hQ (.forget s.name)
      exact htold hw' rfl hforget
  | _ => exact htold hw rfl h

end Table

/-! ## Observed addresses -/

namespace Mesh

variable {ι : Type} {config : ι → Config} {home : ι → Net.SocketAddr}

/-- The record has the address that the datagrams of its member come from. -/
def Homed (config : ι → Config) (home : ι → Net.SocketAddr) (r : MemberRecord) : Prop :=
  ∀ i, r.name = (config i).nodeId → r.addr = home i

theorem homed_endures (config : ι → Config) (home : ι → Net.SocketAddr) : Endures (Homed config home) where
  state h _ _ := h
  heartbeat h _ _ _ := h

theorem homed_settled (p : Peer) : Homed config home p.settled.record ↔ Homed config home p.record := Iff.rfl

theorem homed_withAddr (hnames : Function.Injective fun i => (config i).nodeId) {r : MemberRecord} {j : ι}
    (hname : r.name = (config j).nodeId) : Homed config home { r with addr := home j } := by
  intro i hi
  rw [hnames (hi.symm.trans hname)]

/-- A datagram comes from where all datagrams of its sender come from. -/
def FromHome (home : ι → Net.SocketAddr) (m : Mesh ι) : Move ι → Prop
  | .act _ _ => True
  | .deliver _ k source _ => ∀ i msg, m.sent[k]? = some (i, msg) → source = home i

/-- A message holds no other address than an observed one, but for the sender's own record. -/
structure Observed (config : ι → Config) (home : ι → Net.SocketAddr) (m : Mesh ι) : Prop where
  tables : ∀ j, (m.nodes j).table.Others (Homed config home)
  members : ∀ j msg, (j, msg) ∈ m.sent → ∀ r ∈ msg.members, r = msg.sender ∨ Homed config home r

variable [DecidableEq ι] {m : Mesh ι}

theorem Observed.tables_step (hm : m.Reached config) (hnames : Function.Injective fun i => (config i).nodeId)
    (h : m.Observed config home) {mv : Move ι} (hfrom : m.FromHome home mv) (j : ι) :
    ((m.step mv).nodes j).table.Others (Homed config home) := by
  have hw := hm.wellFormed j
  have hQ := homed_endures config home
  rw [table_step]
  cases mv with
  | act i d =>
      refine (h.tables j).run hw hQ fun r now hop => ?_
      simp only [opsAt] at hop
      split at hop
      · simp at hop
      · cases hop
  | deliver i k source now =>
      simp only [opsAt]
      cases hk : m.sent[k]? with
      | none => exact h.tables j
      | some e =>
          obtain ⟨i', msg⟩ := e
          simp only
          split
          · rename_i hother
            have hmem : (i', msg) ∈ m.sent := List.mem_of_getElem? hk
            have hname := hm.name_of_mem_sent hmem
            have hsource : source = home i' := hfrom i' msg hk
            have hsender : (msg.withSenderAddr source).sender = { msg.sender with addr := home i' } := by
              rw [Message.sender_withSenderAddr, hsource]
            have hmembers : (msg.withSenderAddr source).members = msg.members := by cases msg <;> rfl
            refine (h.tables j).run_ops hw hQ homed_settled ?_ ?_ (fun r hr => ?_) now
            · rw [Message.name_withSenderAddr, hm.name_eq, ← hm.config_eq]
              exact hother.2
            · rw [hsender]
              exact homed_withAddr hnames hname
            · rw [hmembers] at hr
              rw [hsender]
              rcases h.members i' msg hmem r hr with rfl | hr
              · exact Or.inr ⟨rfl, le_rfl⟩
              · exact Or.inl hr
          · exact h.tables j

theorem Observed.step (hm : m.Reached config) (hnames : Function.Injective fun i => (config i).nodeId)
    (h : m.Observed config home) {mv : Move ι} (hfrom : m.FromHome home mv) : (m.step mv).Observed config home := by
  have htables := fun j => h.tables_step hm hnames hfrom j
  refine ⟨htables, fun j msg hmsg r hr => ?_⟩
  rcases mem_sent_step hmsg with hmsg | ⟨u, rfl⟩
  · exact h.members j msg hmsg r hr
  · rw [Utterance.sender_message]
    -- All that a node sends besides its own record is in its table.
    refine (htables j).mem_payload ((hm.step mv).wellFormed j) ?_
    exact Utterance.records_subset _ u (List.mem_cons_of_mem _ hr)

/--
If all datagrams of each node come from one address, then every record about a node that another node keeps, as a
peer's or as a tombstone, has that address, and so has every record about it among the members of a message that
another node sent.
-/
theorem addresses_observed {nodes : ι → Membership} (hcreate : ∀ i, Membership.create (config i) = .ok (nodes i))
    (hnames : Function.Injective fun i => (config i).nodeId) (net : Network) {mvs : List (Move ι)}
    (hfrom : (start net nodes).Every (FromHome home) mvs) :
    let m := (start net nodes).run mvs
    (∀ i j, i ≠ j → ∀ r, r ∈ (m.nodes j).table.peerRecords ∨ r ∈ (m.nodes j).table.tombstoneRecords →
      r.name = (config i).nodeId → r.addr = home i) ∧
    (∀ i j, i ≠ j → ∀ msg, (j, msg) ∈ m.sent → ∀ r ∈ msg.members, r.name = (config i).nodeId → r.addr = home i) := by
  have hstart : (start net nodes).Reached config ∧ (start net nodes).Observed config home := by
    refine ⟨⟨net, nodes, [], hcreate, rfl⟩, fun j n r hr => ?_, by simp [start]⟩
    have htable : (nodes j).table = .new (nodes j).table.self := (Membership.of_create (hcreate j)).2.1
    rw [start, htable] at hr
    simp [Table.standing, Table.new] at hr
  have hkeeps := run_keeps (I := fun m => m.Reached config ∧ m.Observed config home)
    (fun m mv hm hfrom => ⟨hm.1.step mv, hm.2.step hm.1 hnames hfrom⟩) hstart hfrom
  intro m
  obtain ⟨hm, h⟩ : m.Reached config ∧ m.Observed config home := hkeeps
  refine ⟨fun i j hij r hr hname => ?_, fun i j hij msg hmsg r hr hname => ?_⟩
  · rcases hr with hr | hr
    · obtain ⟨n, p, hp, rfl⟩ := Table.mem_peerRecords.mp hr
      exact h.tables j n p.record (by rw [(hm.wellFormed j).peer_iff.mp hp]; rfl) i hname
    · obtain ⟨n, s, hs, rfl⟩ := Table.mem_tombstoneRecords.mp hr
      exact h.tables j n s.record (by rw [(hm.wellFormed j).tombstone_iff.mp hs]; rfl) i hname
  · rcases h.members j msg hmsg r hr with rfl | hr
    · exact absurd (hnames (hname.symm.trans (hm.name_of_mem_sent hmsg))) hij
    · exact hr i hname

def sampleMeeting : List (Move Bool) :=
  [.act false (.start (some sampleBound)), .act true (.start (some sampleBound)), .act true (.join ["10.0.0.1"] 0),
    .deliver false 0 (sampleHome true) 10, .deliver true 1 (sampleHome false) 20]

theorem run_sampleMeeting : (start .literal sampleNodes).run sampleMeeting = sampleMet := by
  rw [sampleMeeting, run_cons, run_cons, run_cons, run_cons, run_cons, run_nil]
  rw [sampleMet, sampleAnswered, sampleAsked, sampleStarted]

theorem every_fromHome_sampleMeeting : (start .literal sampleNodes).Every (FromHome sampleHome) sampleMeeting := by
  refine ⟨trivial, trivial, trivial, fun i msg hk => ?_, fun i msg hk => ?_, trivial⟩
  · have hsent : sampleAsked.sent[0]? = some (i, msg) := hk
    simp only [sent_sampleAsked, List.getElem?_cons_zero, Option.some.injEq, Prod.mk.injEq] at hsent
    rw [← hsent.1]
  · have hsent : sampleAnswered.sent[1]? = some (i, msg) := hk
    simp only [sent_sampleAnswered, List.getElem?_cons_succ, List.getElem?_cons_zero, Option.some.injEq,
      Prod.mk.injEq] at hsent
    rw [← hsent.1]

theorem addresses_observed_sample :
    (∀ i, Membership.create (sampleConfig i) = .ok (sampleNodes i)) ∧
    (Function.Injective fun i => (sampleConfig i).nodeId) ∧
    (start .literal sampleNodes).Every (FromHome sampleHome) sampleMeeting ∧
    (start .literal sampleNodes).run sampleMeeting = sampleMet ∧
    (sampleMet.nodes true).table.self.addr = sampleBound ∧ sampleBound ≠ sampleHome true ∧
    (sampleSeen ∈ (sampleMet.nodes false).table.peerRecords ∧ sampleSeen.addr = sampleHome true) ∧
    ((false, sampleJoinAck) ∈ sampleMet.sent ∧
      ∀ r ∈ sampleJoinAck.members, r.name = "n" → r.addr = sampleHome true) := by
  have hrun := addresses_observed create_sampleNodes nodeId_sampleConfig_injective .literal every_fromHome_sampleMeeting
  simp only [run_sampleMeeting] at hrun
  obtain ⟨htables, hmembers⟩ := hrun
  have hself : (sampleMet.nodes true).table.self.addr = sampleBound := by
    rw [sampleMet_eq, sampleAnswered_eq]
    decide +kernel
  have hseen : sampleSeen ∈ (sampleMet.nodes false).table.peerRecords := by
    rw [sampleMet_eq, sampleAnswered_eq]
    decide +kernel
  have hsent : (false, sampleJoinAck) ∈ sampleMet.sent := by
    rw [sent_sampleMet]
    simp
  refine ⟨create_sampleNodes, nodeId_sampleConfig_injective, every_fromHome_sampleMeeting, run_sampleMeeting, hself,
    by decide, ⟨hseen, ?_⟩, hsent, ?_⟩
  · exact htables true false (by decide) sampleSeen (Or.inl hseen) rfl
  · exact fun r hr hname => hmembers true false (by decide) sampleJoinAck hsent r hr hname

end Mesh

end AgentMesh.Gossip
