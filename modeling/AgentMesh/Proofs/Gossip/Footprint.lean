import AgentMesh.Proofs.Gossip.Monitoring

/-!
# What a datagram can touch

Whatever arrives, honest or forged, a node changes nothing of its own record but the incarnation, which only rises, and
leaves alone what it knows of the names that the datagram does not mention. A datagram that is no message, or one in the
node's own name, changes nothing at all.
-/

namespace AgentMesh.Gossip

/--
Between the two tables nothing changed but what these records tell about. Of the node's own record that is the
incarnation, which may have risen past the one of a record about the node.
-/
structure Table.Touched (rs : List MemberRecord) (t u : Table) : Prop where
  self : u.self = { t.self with incarnation := u.self.incarnation }
  incarnation_le : t.self.incarnation ≤ u.self.incarnation
  incarnation_eq : u.self.incarnation = t.self.incarnation ∨
    ∃ r ∈ rs, r.name = t.self.name ∧ u.self.incarnation = r.incarnation + 1
  peers : ∀ n : String, (∀ r ∈ rs, r.name ≠ n) → u.peers[n]? = t.peers[n]?
  tombstones : ∀ n : String, (∀ r ∈ rs, r.name ≠ n) → u.tombstones[n]? = t.tombstones[n]?

namespace Table.Touched

variable {rs : List MemberRecord} {t u v : Table}

theorem refl (rs : List MemberRecord) (t : Table) : Touched rs t t :=
  ⟨rfl, Nat.le_refl _, Or.inl rfl, fun _ _ => rfl, fun _ _ => rfl⟩

theorem name_eq (h : Touched rs t u) : u.self.name = t.self.name := by
  rw [h.self]

theorem trans (h : Touched rs t u) (h' : Touched rs u v) : Touched rs t v where
  self := by rw [h'.self, h.self]
  incarnation_le := Nat.le_trans h.incarnation_le h'.incarnation_le
  incarnation_eq := by
    rcases h'.incarnation_eq with heq | ⟨r, hr, hname, heq⟩
    · rw [heq]
      exact h.incarnation_eq
    · exact Or.inr ⟨r, hr, hname.trans h.name_eq, heq⟩
  peers n hn := (h'.peers n hn).trans (h.peers n hn)
  tombstones n hn := (h'.tombstones n hn).trans (h.tombstones n hn)

/-! ## One record -/

variable {r : MemberRecord} {now : Nat}

theorem forget (hr : r ∈ rs) : Touched rs t (t.forget r.name) where
  self := rfl
  incarnation_le := Nat.le_refl _
  incarnation_eq := Or.inl rfl
  peers _ _ := rfl
  tombstones n hn := by simp [Table.forget, Std.ExtTreeMap.getElem?_erase, hn r hr]

theorem mergePeer (hr : r ∈ rs) : Touched rs t (t.mergePeer r now).1 := by
  have hself := self_mergePeer t r now
  refine ⟨by rw [hself], by rw [hself], Or.inl (by rw [hself]), fun n hn => ?_, fun n hn => ?_⟩
  · have hne := hn r hr
    simp only [Table.mergePeer]
    split
    · split <;> simp [enroll, bury, Std.ExtTreeMap.getElem?_insert, hne]
    · split
      · simp [Std.ExtTreeMap.getElem?_insert, hne]
      · split
        · simp [bury, Std.ExtTreeMap.getElem?_erase, hne]
        · simp [Std.ExtTreeMap.getElem?_insert, hne]
  · have hne := hn r hr
    simp only [Table.mergePeer]
    split
    · split <;> simp [enroll, bury, Std.ExtTreeMap.getElem?_insert, hne]
    · split
      · rfl
      · split
        · simp [bury, Std.ExtTreeMap.getElem?_insert, hne]
        · rfl

theorem merge (hr : r ∈ rs) : Touched rs t (t.merge r now).1 := by
  by_cases hname : r.name = t.self.name
  · rw [merge_self_eq hname]
    split
    · rename_i hdisputes
      obtain ⟨-, -, hi⟩ := hdisputes
      refine ⟨rfl, ?_, Or.inr ⟨r, hr, hname, rfl⟩, fun _ _ => rfl, fun _ _ => rfl⟩
      show t.self.incarnation ≤ r.incarnation + 1
      omega
    · exact .refl rs t
  · simp only [Table.merge, hname, ↓reduceIte]
    split
    · exact mergePeer hr
    · split
      · exact .refl rs t
      · split
        · refine ⟨rfl, Nat.le_refl _, Or.inl rfl, fun _ _ => rfl, fun n hn => ?_⟩
          simp [bury, Std.ExtTreeMap.getElem?_insert, hn r hr]
        · exact (Touched.forget hr).trans (mergePeer hr)

/-! ## A message -/

theorem run_merges {told : List MemberRecord} (h : told ⊆ rs) : Touched rs t (t.run (told.map (.merge · now))) := by
  induction told generalizing t with
  | nil => exact .refl rs t
  | cons r told ih =>
      obtain ⟨hr, htold⟩ := List.cons_subset.mp h
      exact (merge hr).trans (ih htold)

theorem absorb (t : Table) (msg : Message) (now : Nat) : Touched msg.records t (Membership.absorb t msg now).1 := by
  have hrecords (t : Table) : Touched msg.records t (t.mergeAll msg.records now).1 := by
    rw [mergeAll_eq_run]
    exact run_merges (List.Subset.refl _)
  cases msg with
  | join s => exact (forget List.mem_cons_self).trans (hrecords (t.forget s.name))
  | _ => exact hrecords t

end Table.Touched

namespace Membership

variable {m : Membership} {net : Network} {a : Arrival} {now : Nat}

/-- A datagram that is no message, or one in the node's own name, is ignored. -/
theorem receive_ignored (h : ∀ msg, Message.decode? a.payload = some msg → msg.sender.name = m.config.nodeId) :
    m.receive net a now = (m, {}) := by
  rw [receive]
  split
  · rfl
  · cases hdecode : Message.decode? a.payload with
    | none => rfl
    | some msg => exact if_pos (h msg hdecode)

/-- Handling a message changes the table and the count of answers at most. -/
theorem handle_fields (m : Membership) (net : Network) (msg : Message) (source : Net.SocketAddr) (now : Nat) :
    (m.handle net msg source now).1 =
      { m with
        table := (m.handle net msg source now).1.table
        joinAcks := (m.handle net msg source now).1.joinAcks } := by
  rw [handle]
  split <;> rfl

theorem touched_handle (m : Membership) (net : Network) (msg : Message) (source : Net.SocketAddr) (now : Nat) :
    Table.Touched (msg.withSenderAddr source).records m.table (m.handle net msg source now).1.table := by
  rw [handle]
  split
  · exact .refl _ _
  · exact .absorb _ _ _

/-- The address that is put into a message leaves names and incarnations as they were. -/
theorem exists_of_mem_records {msg : Message} {source : Net.SocketAddr} {r : MemberRecord}
    (h : r ∈ (msg.withSenderAddr source).records) :
    ∃ r' ∈ msg.records, r'.name = r.name ∧ r'.incarnation = r.incarnation := by
  rw [Message.records_withSenderAddr] at h
  rcases List.mem_cons.mp h with rfl | h
  · exact ⟨msg.sender, List.mem_cons_self, rfl, rfl⟩
  · exact ⟨r, List.mem_cons_of_mem _ h, rfl, rfl⟩

/-- What a datagram touches is what its message tells about, if it is one and is heard. -/
theorem receive_cases (m : Membership) (net : Network) (a : Arrival) (now : Nat) :
    (m.receive net a now).1 = m ∨ ∃ msg, Message.decode? a.payload = some msg ∧
      (m.receive net a now).1 = (m.handle net msg a.source now).1 := by
  rw [receive]
  split
  · exact Or.inl rfl
  · cases hdecode : Message.decode? a.payload with
    | none => exact Or.inl rfl
    | some msg => exact Or.inr ⟨msg, rfl, rfl⟩

/--
Whatever bytes arrive at a node, of its own record they change the incarnation alone, which does not fall, and which
stays within its range if the incarnations that are told leave room for another one. They leave every name alone that
is neither their sender's nor among the members that they tell about. If they are no message, or one in the node's own
name, then the node stays as it is and sends nothing.
-/
theorem datagram_footprint (m : Membership) (net : Network) (a : Arrival) (now : Nat) :
    let m' := (m.receive net a now).1
    (m'.table.self = { m.table.self with incarnation := m'.table.self.incarnation } ∧
      m.table.self.incarnation ≤ m'.table.self.incarnation) ∧
    ((∀ msg, Message.decode? a.payload = some msg → ∀ r ∈ msg.records, r.incarnation < 2 ^ 64 - 1) →
      m.table.self.incarnation < 2 ^ 64 → m'.table.self.incarnation < 2 ^ 64) ∧
    (∀ n : String,
      (∀ msg, Message.decode? a.payload = some msg → n ≠ msg.sender.name ∧ ∀ r ∈ msg.members, n ≠ r.name) →
        m'.table.peers[n]? = m.table.peers[n]? ∧ m'.table.tombstones[n]? = m.table.tombstones[n]?) ∧
    m' = { m with table := m'.table, joinAcks := m'.joinAcks } ∧
    ((∀ msg, Message.decode? a.payload = some msg → msg.sender.name = m.config.nodeId) →
      m.receive net a now = (m, {})) := by
  intro m'
  have hignored (h : ∀ msg, Message.decode? a.payload = some msg → msg.sender.name = m.config.nodeId) :
      m.receive net a now = (m, {}) := receive_ignored h
  rcases receive_cases m net a now with hsame | ⟨msg, hdecode, hhandled⟩
  · have hm' : m' = m := hsame
    rw [hm']
    exact ⟨⟨rfl, Nat.le_refl _⟩, fun _ h => h, fun _ _ => ⟨rfl, rfl⟩, rfl, hignored⟩
  · have hm' : m' = (m.handle net msg a.source now).1 := hhandled
    have htouched := touched_handle m net msg a.source now
    rw [← hm'] at htouched
    refine ⟨⟨htouched.self, htouched.incarnation_le⟩, fun htold hself => ?_, fun n hn => ?_, ?_, hignored⟩
    · rcases htouched.incarnation_eq with heq | ⟨r, hr, -, heq⟩
      · omega
      · obtain ⟨r', hr', -, hincarnation⟩ := exists_of_mem_records hr
        have hbound := htold msg hdecode r' hr'
        omega
    · have hothers : ∀ r ∈ (msg.withSenderAddr a.source).records, r.name ≠ n := by
        intro r hr
        obtain ⟨r', hr', hname, -⟩ := exists_of_mem_records hr
        obtain ⟨hsender, hmembers⟩ := hn msg hdecode
        rcases List.mem_cons.mp hr' with rfl | hr'
        · exact hname ▸ hsender.symm
        · exact hname ▸ (hmembers r' hr').symm
      exact ⟨htouched.peers n hothers, htouched.tombstones n hothers⟩
    · rw [hm']
      exact handle_fields m net msg a.source now

/-- A node that knows one other. -/
def sampleKnowing : Membership :=
  (Monitored.sampleOpened.node.handle .literal Mesh.sampleJoin (Mesh.sampleHome true) 10).1

/-- Somebody unknown claims that the node is dead at an incarnation that it never had. -/
def sampleForgery : Arrival where
  source := .v4 ⟨10, 0, 0, 9⟩ 7946
  payload :=
    ("[\"gossip\",[\"x\",\"0.0.0.0:7946\",8080,[[0,0,[],0,0],\"online\"],0,0,\"alive\"]," ++
      "[[\"a\",\"0.0.0.0:7946\",8080,[[0,0,[],0,0],\"online\"],7,3,\"dead\"]]]").toUTF8

def sampleForged : Message :=
  .gossip { name := "x", addr := Mesh.sampleBound, rpcPort := 8080 }
    [{ name := "a", addr := Mesh.sampleBound, rpcPort := 8080, incarnation := 7, heartbeat := 3, state := .dead }]

theorem decode_sampleForgery : Message.decode? sampleForgery.payload = some sampleForged := by
  decide +kernel

theorem datagram_footprint_sample :
    Message.decode? sampleForgery.payload = some sampleForged ∧
    (sampleKnowing.receive .literal sampleForgery 20).1.table.self.incarnation = 8 ∧
    (sampleKnowing.receive .literal sampleForgery 20).1.table.self =
      { sampleKnowing.table.self with incarnation := 8 } ∧
    (sampleKnowing.receive .literal sampleForgery 20).1.table.self.incarnation < 2 ^ 64 ∧
    sampleKnowing.table.peers["n"]? = some ⟨Mesh.sampleSeen, 10, 10⟩ ∧
    (sampleKnowing.receive .literal sampleForgery 20).1.table.peers["n"]? = some ⟨Mesh.sampleSeen, 10, 10⟩ ∧
    sampleKnowing.receive .literal ⟨Mesh.sampleHome true, .empty⟩ 20 = (sampleKnowing, {}) := by
  have hreceive : sampleKnowing.receive .literal sampleForgery 20 =
      sampleKnowing.handle .literal sampleForged sampleForgery.source 20 :=
    receive_of_decode (by decide) decode_sampleForgery
  have hraised : (sampleKnowing.receive .literal sampleForgery 20).1.table.self.incarnation = 8 := by
    rw [hreceive]
    decide +kernel
  have hknown : sampleKnowing.table.peers["n"]? = some ⟨Mesh.sampleSeen, 10, 10⟩ := by decide +kernel
  have hempty : Message.decode? .empty = none := by decide +kernel
  obtain ⟨⟨hself, -⟩, hrange, huntouched, -, -⟩ := datagram_footprint sampleKnowing .literal sampleForgery 20
  obtain ⟨-, -, -, -, hignored⟩ := datagram_footprint sampleKnowing .literal ⟨Mesh.sampleHome true, .empty⟩ 20
  have htold {P : Message → Prop} (h : P sampleForged) :
      ∀ msg, Message.decode? sampleForgery.payload = some msg → P msg := by
    intro msg hdecode
    rw [decode_sampleForgery, Option.some.injEq] at hdecode
    exact hdecode ▸ h
  have hfits := hrange (htold (by decide)) (by decide +kernel)
  have hn := huntouched "n" (htold (by decide))
  rw [hraised] at hself
  exact ⟨decode_sampleForgery, hraised, hself, hfits, hknown, hn.1.trans hknown,
    hignored fun msg hdecode => by rw [hempty] at hdecode; cases hdecode⟩

end Membership

end AgentMesh.Gossip
