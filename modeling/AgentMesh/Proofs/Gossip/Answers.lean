import AgentMesh.Proofs.Gossip.Monitoring
import AgentMesh.Proofs.Json.Size

/-!
# Answers to join requests

A joiner counts nothing but a join ack as an answer. What a node sends back to it is one, with everything that the node
knows, as long as that fits into a datagram; beyond that it is word of the node alone, and the joiner is left to believe
that nobody answered.
-/

namespace AgentMesh.Gossip

/-! ## Sizes -/

def MemberRecord.size (r : MemberRecord) : Nat :=
  r.toJson.size

/-- The size of the ack that tells a joiner all of a table. -/
def Table.ackSize (t : Table) : Nat :=
  t.self.size + (t.payload.map fun r => r.size + 1).sum + 39

namespace Message

def size (m : Message) : Nat :=
  m.toJson.size

theorem fits_iff {m : Message} : m.fits = true ↔ m.size ≤ maxDatagram := by
  rw [fits_eq, decide_eq_true_iff]
  rfl

theorem size_join (s : MemberRecord) : (join s).size = s.size + 23 := by
  have htype : Json.memberSize (some "type", .str "join") = 14 := rfl
  have hfrom : String.utf8Len (Json.printText (some "from")) = 6 := rfl
  simp only [size, toJson, extraFields, typeName, sender, Json.record, List.map_cons, List.map_nil, ne_eq,
    reduceCtorEq, not_false_eq_true, Json.size_object, List.sum_cons, List.sum_nil, htype]
  rw [Json.memberSize, hfrom, MemberRecord.size]
  omega

theorem size_gossip_nil (s : MemberRecord) : (gossip s []).size = s.size + 38 := by
  have htype : Json.memberSize (some "type", .str "gossip") = 16 := rfl
  have hfrom : String.utf8Len (Json.printText (some "from")) = 6 := rfl
  have hmembers : Json.memberSize (some "members", membersJson []) = 13 := rfl
  simp only [size, toJson, extraFields, typeName, sender, Json.record, List.map_cons, List.map_nil, ne_eq,
    reduceCtorEq, not_false_eq_true, Json.size_object, List.sum_cons, List.sum_nil, htype, hmembers]
  rw [Json.memberSize, hfrom, MemberRecord.size]
  omega

theorem size_joinAck (s : MemberRecord) {ms : List MemberRecord} (h : ms ≠ []) :
    (joinAck s ms).size = s.size + (ms.map fun r => r.size + 1).sum + 39 := by
  have htype : Json.memberSize (some "type", .str "join_ack") = 18 := rfl
  have hfrom : String.utf8Len (Json.printText (some "from")) = 6 := rfl
  have hmembers : String.utf8Len (Json.printText (some "members")) = 9 := rfl
  have hlist : (membersJson ms).size = (ms.map fun r => r.size + 1).sum + 1 := by
    rw [membersJson, Json.size_array (by simpa using h), List.map_map]
    rfl
  simp only [size, toJson, extraFields, typeName, sender, Json.record, List.map_cons, List.map_nil, ne_eq,
    reduceCtorEq, not_false_eq_true, Json.size_object, List.sum_cons, List.sum_nil, htype]
  rw [Json.memberSize, Json.memberSize, hfrom, hmembers, hlist, MemberRecord.size]
  omega

end Message

theorem Table.fits_joinAck (t : Table) :
    (Message.joinAck t.self t.payload).fits = true ↔ t.ackSize ≤ Message.maxDatagram := by
  rw [Message.fits_iff, Message.size_joinAck _ (by simp [payload]), ackSize]

theorem Table.trimmed_joinAck (t : Table) : (Message.joinAck t.self t.payload).trimmed =
    if t.ackSize ≤ Message.maxDatagram then .joinAck t.self t.payload else .gossip t.self [] := by
  simp only [Message.trimmed, t.fits_joinAck]
  rfl

/-! ## What a joiner makes of an answer -/

namespace Membership

variable {m j : Membership} {net : Network}

theorem datagrams_handle_join {s : MemberRecord} (hother : s.name ≠ m.config.nodeId) (source : Net.SocketAddr)
    (now : Nat) :
    let t := (m.handle net (.join s) source now).1.table
    (m.handle net (.join s) source now).2.datagrams = send net (.joinAck t.self t.payload) [source] := by
  have hother : (Message.join s).sender.name ≠ m.config.nodeId := hother
  simp only [handle, if_neg hother]
  rfl

theorem joinResult_of_joinAck {s : MemberRecord} (hother : j.config.nodeId ≠ s.name) (ms : List MemberRecord)
    (source : Net.SocketAddr) (now : Nat) {requests : List Datagram} (hasked : requests ≠ []) :
    (j.handle net (.joinAck s ms) source now).1.joinResult requests j.joinAcks =
      .ok (j.handle net (.joinAck s ms) source now).1.table.liveCount := by
  have hother : (Message.joinAck s ms).sender.name ≠ j.config.nodeId := Ne.symm hother
  have hacks : (j.handle net (.joinAck s ms) source now).1.joinAcks = j.joinAcks + 1 := by
    simp only [handle, if_neg hother]
    rfl
  rw [joinResult, if_neg (by simpa using hasked), if_pos (by omega)]

theorem joinResult_of_gossip (j : Membership) (net : Network) (s : MemberRecord) (ms : List MemberRecord)
    (source : Net.SocketAddr) (now : Nat) {requests : List Datagram} (hasked : requests ≠ []) :
    (j.handle net (.gossip s ms) source now).1.joinResult requests j.joinAcks =
      .error (.joinFailed (.noAnswer j.config.joinTimeout)) := by
  have hacks : (j.handle net (.gossip s ms) source now).1.joinAcks = j.joinAcks := by
    simp only [handle]
    split <;> rfl
  rw [joinResult, if_neg (by simpa using hasked), if_neg (by omega), config_handle]

/--
A join request is answered by one datagram. It is a join ack with all that the node knows if that fits into a datagram,
and then the joiner's join succeeds. If it does not, the answer is gossip about the node alone, and to the joiner
nobody has answered.
-/
theorem join_answered (net : Network) (source : Net.SocketAddr) (now : Nat) {payload : ByteArray} {s : MemberRecord}
    (hrunning : m.life.tasks ≠ 0) (hjoin : Message.decode? payload = some (.join s))
    (hother : s.name ≠ m.config.nodeId) (hreach : net.canSend source = true)
    (hown : (Message.gossip (m.receive net ⟨source, payload⟩ now).1.table.self []).fits = true) :
    let t := (m.receive net ⟨source, payload⟩ now).1.table
    ∃ answer, (m.receive net ⟨source, payload⟩ now).2.datagrams = [⟨source, answer⟩] ∧
      answer = (if t.ackSize ≤ Message.maxDatagram then .joinAck t.self t.payload else .gossip t.self []) ∧
      ∀ (j : Membership) (home : Net.SocketAddr) (later : Nat) (requests : List Datagram),
        j.config.nodeId ≠ t.self.name → requests ≠ [] →
          (j.handle net answer home later).1.joinResult requests j.joinAcks =
            if t.ackSize ≤ Message.maxDatagram then .ok (j.handle net answer home later).1.table.liveCount
            else .error (.joinFailed (.noAnswer j.config.joinTimeout)) := by
  rw [receive_of_decode hrunning hjoin] at hown ⊢
  intro t
  have hsent : (m.handle net (.join s) source now).2.datagrams = send net (.joinAck t.self t.payload) [source] :=
    datagrams_handle_join hother source now
  rw [send, t.trimmed_joinAck] at hsent
  by_cases hsize : t.ackSize ≤ Message.maxDatagram
  · rw [if_pos hsize, if_pos (t.fits_joinAck.mpr hsize)] at hsent
    refine ⟨.joinAck t.self t.payload, ?_, (if_pos hsize).symm, fun j home later requests hname hasked => ?_⟩
    · simpa [hreach] using hsent
    · rw [if_pos hsize]
      exact joinResult_of_joinAck hname _ _ _ hasked
  · rw [if_neg hsize, if_pos hown] at hsent
    refine ⟨.gossip t.self [], ?_, (if_neg hsize).symm, fun j home later requests hname hasked => ?_⟩
    · simpa [hreach] using hsent
    · rw [if_neg hsize]
      exact joinResult_of_gossip j net _ _ _ _ hasked

/-- A started node that knows of nobody. -/
def sampleHost : Membership :=
  Monitored.sampleOpened.node

def sampleHosted : Membership × Output :=
  sampleHost.handle .literal Mesh.sampleJoin (Mesh.sampleHome true) 10

theorem tasks_sampleHost : sampleHost.life.tasks ≠ 0 := by
  decide

theorem size_sampleHost : sampleHost.table.self.size = 206 ∧ Mesh.sampleSeen.size = 207 := by
  decide +kernel

theorem fits_sampleHost : (Message.gossip sampleHost.table.self []).fits = true := by
  rw [Message.fits_iff, Message.size_gossip_nil, size_sampleHost.1]
  decide

theorem join_answered_sample :
    Message.decode? Monitored.samplePayload = some Mesh.sampleJoin ∧
    (sampleHost.receive .literal ⟨Mesh.sampleHome true, Monitored.samplePayload⟩ 10).2.datagrams =
      [⟨Mesh.sampleHome true, .joinAck sampleHost.table.self [sampleHost.table.self, Mesh.sampleSeen]⟩] := by
  have hreceive : sampleHost.receive .literal ⟨Mesh.sampleHome true, Monitored.samplePayload⟩ 10 = sampleHosted :=
    receive_of_decode tasks_sampleHost Monitored.decode_samplePayload
  have hother : (Mesh.sampleRecord true).name ≠ sampleHost.config.nodeId := by decide
  have hself : sampleHosted.1.table.self = sampleHost.table.self := rfl
  have hpayload : sampleHosted.1.table.payload = [sampleHost.table.self, Mesh.sampleSeen] := rfl
  have hsize : sampleHosted.1.table.ackSize ≤ Message.maxDatagram := by
    rw [Table.ackSize, hself, hpayload, List.map_cons, List.map_cons, size_sampleHost.1, size_sampleHost.2]
    decide
  have hanswered := join_answered .literal (Mesh.sampleHome true) 10 tasks_sampleHost Monitored.decode_samplePayload
    hother rfl (by rw [hreceive, hself]; exact fits_sampleHost)
  rw [hreceive] at hanswered ⊢
  obtain ⟨answer, hsent, hanswer, -⟩ := hanswered
  rw [if_pos hsize, hself, hpayload] at hanswer
  exact ⟨Monitored.decode_samplePayload, hanswer ▸ hsent⟩

/-! ## A joiner that takes up the ack -/

theorem mem_payload_absorb_join {t : Table} (hw : t.WellFormed) {s : MemberRecord}
    (hunknown : t.standing s.name = .unknown) (hlive : s.state.isLive = true) (hname : s.name ≠ t.self.name)
    (now : Nat) :
    s ∈ (absorb t (.join s) now).1.payload := by
  have htable : (absorb t (.join s) now).1 = ((t.act (.forget s.name)).merge s now).1 := rfl
  have hstanding : (absorb t (.join s) now).1.standing s.name = .listed ⟨s, now, now⟩ := by
    rw [htable, Table.standing_merge (hw.act _), if_pos ⟨rfl, hname⟩, Table.standing_act hw, hunknown]
    simp [Act.onStanding, Standing.pardon, Standing.hear, Standing.first, hlive]
  have hwell : (absorb t (.join s) now).1.WellFormed := by
    rw [htable]
    exact (hw.act (.forget s.name)).apply (.merge s now)
  exact hwell.mem_payload.mpr (Or.inr ⟨s.name, by rw [hstanding]; rfl⟩)

theorem size_le_ackSize {t : Table} {r : MemberRecord} (h : r ∈ t.payload) (hr : r ≠ t.self) :
    t.self.size + t.self.size + r.size + 41 ≤ t.ackSize := by
  obtain ⟨before, after, hrest⟩ : ∃ before after, t.peerRecords ++ t.tombstoneRecords = before ++ r :: after :=
    List.append_of_mem ((List.mem_cons.mp h).resolve_left hr)
  rw [Table.ackSize, Table.payload, hrest]
  simp only [List.map_cons, List.map_append, List.sum_cons, List.sum_append]
  omega

/-- A joiner that the node has not heard of gets no ack if its own record leaves no room for the node's. -/
theorem heavy_joiner_unanswered (hw : m.table.WellFormed) {s : MemberRecord} {source : Net.SocketAddr}
    (hother : s.name ≠ m.config.nodeId) (hname : s.name ≠ m.table.self.name)
    (hunknown : m.table.standing s.name = .unknown) (hlive : s.state.isLive = true)
    (hheavy : Message.maxDatagram < m.table.self.size + m.table.self.size + { s with addr := source }.size + 41)
    (hreach : net.canSend source = true) (hown : (Message.gossip m.table.self []).fits = true) (now : Nat) :
    (m.handle net (.join s) source now).2.datagrams = [⟨source, .gossip m.table.self []⟩] := by
  have htable : (m.handle net (.join s) source now).1.table =
      (absorb m.table (.join { s with addr := source }) now).1 := by
    have hother : (Message.join s).sender.name ≠ m.config.nodeId := hother
    simp only [handle, if_neg hother]
    rfl
  have hself : (m.handle net (.join s) source now).1.table.self = m.table.self := by
    rw [htable]
    exact Table.self_merge_of_ne (t := m.table.forget s.name) (r := { s with addr := source }) hname now
  have hmem : { s with addr := source } ∈ (m.handle net (.join s) source now).1.table.payload := by
    rw [htable]
    exact mem_payload_absorb_join (s := { s with addr := source }) hw hunknown hlive hname now
  have hsize := size_le_ackSize hmem fun h => hname (by rw [← hself, ← h])
  rw [hself] at hsize
  have htrimmed := Table.trimmed_joinAck (m.handle net (.join s) source now).1.table
  rw [if_neg (by omega), hself] at htrimmed
  rw [datagrams_handle_join hother, hself, send, htrimmed, if_pos hown]
  simp [hreach]

/-! ### A joiner with a graphics card of a long name -/

def sampleResources (name : String) : Resources :=
  { gpus := [{ name }] }

def sampleHeavy (name : String) : MemberRecord :=
  { Mesh.sampleSeen with profile := { resources := sampleResources name } }

theorem sampleHeavy_eq (name : String) :
    { sampleHeavy name with addr := Mesh.sampleHome true } = sampleHeavy name := rfl

theorem size_sampleHeavy (name : String) : (sampleHeavy name).size = (Json.str name).size + 240 := by
  have hgpu : (Gpu.toJson { name }).size + (Json.str "").size =
      (Gpu.toJson { name := "" }).size + (Json.str name).size :=
    Json.size_record_set [] _ "name" _ _
  have hgpus : (Json.array [Gpu.toJson { name }]).size + (Gpu.toJson { name := "" }).size =
      (Json.array [Gpu.toJson { name := "" }]).size + (Gpu.toJson { name }).size := by
    rw [Json.size_array (by simp), Json.size_array (by simp)]
    simp only [List.map_cons, List.map_nil, List.sum_cons, List.sum_nil]
    omega
  have hresources : (sampleResources name).toJson.size + (Json.array [Gpu.toJson { name := "" }]).size =
      (sampleResources "").toJson.size + (Json.array [Gpu.toJson { name }]).size :=
    Json.size_record_set [("cpu_cores", _), ("memory_mb", _)] _ "gpus" _ _
  have hprofile : (Profile.toJson { resources := sampleResources name }).size + (sampleResources "").toJson.size =
      (Profile.toJson { resources := sampleResources "" }).size + (sampleResources name).toJson.size :=
    Json.size_record_set [] _ "resources" _ _
  have hrecord : (sampleHeavy name).toJson.size + (Profile.toJson { resources := sampleResources "" }).size =
      (sampleHeavy "").toJson.size + (Profile.toJson { resources := sampleResources name }).size :=
    Json.size_record_set [("name", _), ("addr", _), ("rpc_port", _)] _ "meta" _ _
  have hempty : (sampleHeavy "").toJson.size = 242 := by decide +kernel
  have hquotes : (Json.str "").size = 2 := rfl
  rw [MemberRecord.size]
  omega

/-- A text of so many letters. -/
def sampleText (length : Nat) : String :=
  String.ofList (List.replicate length 'x')

theorem size_sampleText (length : Nat) : (Json.str (sampleText length)).size = length + 2 := by
  have hplain : ∀ c ∈ List.replicate length 'x', Json.escapeChar c = [c] := by
    intro c hc
    rw [List.eq_of_mem_replicate hc]
    rfl
  have hlength (k : Nat) : String.utf8Len (List.replicate k 'x') = k := by
    induction k with
    | zero => rfl
    | succ k ih =>
        rw [List.replicate_succ, String.utf8Len_cons, ih]
        rfl
  rw [sampleText, Json.size_str_of_plain hplain, hlength]

theorem unanswered_sampleHeavy {name : String} (hname : (Json.str name).size = 65244) :
    (Message.join (sampleHeavy name)).fits = true ∧ (sampleHeavy name).name ≠ sampleHost.config.nodeId ∧
    (Message.gossip sampleHost.table.self []).fits = true ∧
    (sampleHost.handle .literal (.join (sampleHeavy name)) (Mesh.sampleHome true) 10).2.datagrams =
      [⟨Mesh.sampleHome true, .gossip sampleHost.table.self []⟩] := by
  have hsize := size_sampleHeavy name
  have hother : (sampleHeavy name).name ≠ sampleHost.config.nodeId := by
    show "n" ≠ sampleHost.config.nodeId
    decide
  have htracks : Monitored.sampleOpened.Tracks :=
    (Monitored.tracks_create (Mesh.create_sampleNodes false) "a").step .literal _ (by simp) (by simp)
  have hwell : sampleHost.table.WellFormed := htracks.wellFormed
  refine ⟨?_, hother, fits_sampleHost, ?_⟩
  · rw [Message.fits_iff, Message.size_join, hsize, hname]
    decide
  · have hunknown : sampleHost.table.standing "n" = .unknown := rfl
    refine heavy_joiner_unanswered hwell hother ?_ hunknown rfl ?_ rfl fits_sampleHost 10
    · show "n" ≠ sampleHost.table.self.name
      decide
    · have hlimit : Message.maxDatagram = 65507 := rfl
      rw [sampleHeavy_eq]
      omega

/-- A request that just fits into a datagram, of a joiner whose record fills it: the answer is no ack. -/
theorem heavy_join_sample :
    (Message.join (sampleHeavy (sampleText 65242))).fits = true ∧
    (sampleHeavy (sampleText 65242)).name ≠ sampleHost.config.nodeId ∧
    (Message.gossip sampleHost.table.self []).fits = true ∧
    (sampleHost.handle .literal (.join (sampleHeavy (sampleText 65242))) (Mesh.sampleHome true) 10).2.datagrams =
      [⟨Mesh.sampleHome true, .gossip sampleHost.table.self []⟩] :=
  unanswered_sampleHeavy (size_sampleText 65242)

end Membership

end AgentMesh.Gossip
