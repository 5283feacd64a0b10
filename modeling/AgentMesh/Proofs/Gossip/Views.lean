import AgentMesh.Proofs.Gossip.Version

/-!
# What a table shows

Every reachable table lists each member once: in one of its two maps, under the member's name, and in a state
that goes with the map. So a payload has one record for each known name, and the live members are listed by name.
-/

namespace AgentMesh.Gossip.Table

variable {t : Table}

/-! ## The two maps -/

/-- The rules that the two maps of a table keep to. -/
structure Coherent (t : Table) : Prop where
  self_not_mem : t.self.name ∉ t.peers ∧ t.self.name ∉ t.tombstones
  disjoint : ∀ n : String, ¬ (n ∈ t.peers ∧ n ∈ t.tombstones)
  peer : ∀ (n : String) (p : Peer), t.peers[n]? = some p →
    p.record.name = n ∧ (p.record.state = .alive ∨ p.record.state = .suspect)
  tombstone : ∀ (n : String) (s : Tombstone), t.tombstones[n]? = some s →
    s.record.name = n ∧ (s.record.state = .dead ∨ s.record.state = .left)

theorem WellFormed.coherent (hw : t.WellFormed) : t.Coherent where
  self_not_mem := by
    rw [hw.mem_peers, hw.mem_tombstones, hw.self_unknown]
    simp
  disjoint n := by
    rw [hw.mem_peers, hw.mem_tombstones]
    rintro ⟨⟨p, hp⟩, s, hs⟩
    rw [hp] at hs
    cases hs
  peer n p hp := by
    have hfits := hw.fits n
    rw [hw.peer_iff.mp hp] at hfits
    obtain ⟨hname, hlive⟩ := hfits
    refine ⟨hname, ?_⟩
    cases hstate : p.record.state <;> simp_all [MemberState.isLive]
  tombstone n s hs := by
    have hfits := hw.fits n
    rw [hw.tombstone_iff.mp hs] at hfits
    obtain ⟨hname, hlive⟩ := hfits
    refine ⟨hname, ?_⟩
    cases hstate : s.record.state <;> simp_all [MemberState.isLive]

/-! ## Records by name -/

/-- Records that are kept under their names come in the order of the names. -/
theorem map_name_toList {α : Type} {m : NameMap α} {record : α → MemberRecord}
    (h : ∀ (n : String) (a : α), m[n]? = some a → (record a).name = n) :
    (m.toList.map fun e => (record e.2).name) = m.keys := by
  rw [← Std.ExtTreeMap.map_fst_toList_eq_keys]
  apply List.map_congr_left
  rintro ⟨n, a⟩ ha
  exact h n a (Std.ExtTreeMap.mem_toList_iff_getElem?_eq_some.mp ha)

theorem names_peerRecords (h : t.Coherent) : t.peerRecords.map (·.name) = t.peers.keys := by
  rw [peerRecords, List.map_map]
  exact map_name_toList fun n p hp => (h.peer n p hp).1

theorem names_tombstoneRecords (h : t.Coherent) : t.tombstoneRecords.map (·.name) = t.tombstones.keys := by
  rw [tombstoneRecords, List.map_map]
  exact map_name_toList fun n s hs => (h.tombstone n s hs).1

theorem names_payload (h : t.Coherent) :
    t.payload.map (·.name) = t.self.name :: (t.peers.keys ++ t.tombstones.keys) := by
  rw [payload, List.map_cons, List.map_append, names_peerRecords h, names_tombstoneRecords h]

theorem keys_sorted {α : Type} (m : NameMap α) : m.keys.Pairwise (· < ·) :=
  m.ordered_keys.imp fun h => compareOfLessAndEq_eq_lt.mp h

theorem keys_nodup {α : Type} (m : NameMap α) : m.keys.Nodup :=
  m.distinct_keys.imp fun h => by simpa using h

theorem nodup_names_payload (h : t.Coherent) : (t.payload.map (·.name)).Nodup := by
  rw [names_payload h, List.nodup_cons, List.nodup_append]
  refine ⟨?_, keys_nodup _, keys_nodup _, ?_⟩
  · rw [List.mem_append, Std.ExtTreeMap.mem_keys, Std.ExtTreeMap.mem_keys]
    rintro (hp | hs)
    · exact h.self_not_mem.1 hp
    · exact h.self_not_mem.2 hs
  · rintro n hp _ hs rfl
    exact h.disjoint n ⟨Std.ExtTreeMap.mem_keys.mp hp, Std.ExtTreeMap.mem_keys.mp hs⟩

theorem mem_names_payload (h : t.Coherent) {n : String} :
    n ∈ t.payload.map (·.name) ↔ n = t.self.name ∨ n ∈ t.peers ∨ n ∈ t.tombstones := by
  rw [names_payload h, List.mem_cons, List.mem_append, Std.ExtTreeMap.mem_keys, Std.ExtTreeMap.mem_keys]

theorem mem_peerRecords {r : MemberRecord} :
    r ∈ t.peerRecords ↔ ∃ (n : String) (p : Peer), t.peers[n]? = some p ∧ p.record = r := by
  simp [peerRecords, Std.ExtTreeMap.mem_toList_iff_getElem?_eq_some]

theorem mem_tombstoneRecords {r : MemberRecord} :
    r ∈ t.tombstoneRecords ↔ ∃ (n : String) (s : Tombstone), t.tombstones[n]? = some s ∧ s.record = r := by
  simp [tombstoneRecords, Std.ExtTreeMap.mem_toList_iff_getElem?_eq_some]

theorem liveCount_eq (t : Table) : t.liveCount = t.liveRecords.length := by
  rw [liveCount, liveRecords, List.length_append, peerRecords, List.length_map, Std.ExtTreeMap.length_toList]
  split
  · exact Nat.add_comm _ _
  · exact (Nat.zero_add _).symm

/-! ## Every member once -/

/--
The two maps of a reachable table are coherent. So its payload begins with the node's own record and has one
record for each known name, and its live members are the node, while it is live, and then all peers, each of them
with a greater name than the one before.
-/
theorem lists_each_member_once (ht : t.Reachable) :
    t.Coherent ∧
    (t.payload.head? = some t.self ∧ (t.payload.map (·.name)).Nodup ∧
      (∀ n, n ∈ t.payload.map (·.name) ↔ n = t.self.name ∨ n ∈ t.peers ∨ n ∈ t.tombstones) ∧
      ∀ r, r ∈ t.payload ↔ r = t.self ∨ (∃ (n : String) (p : Peer), t.peers[n]? = some p ∧ p.record = r) ∨
        ∃ (n : String) (s : Tombstone), t.tombstones[n]? = some s ∧ s.record = r) ∧
    (∃ peers, t.liveRecords = (if t.self.state.isLive then [t.self] else []) ++ peers ∧
      (peers.map (·.name)).Pairwise (· < ·) ∧
      ∀ r, r ∈ peers ↔ ∃ (n : String) (p : Peer), t.peers[n]? = some p ∧ p.record = r) ∧
    t.liveCount = t.liveRecords.length := by
  have h := ht.wellFormed.coherent
  refine ⟨h, ⟨rfl, nodup_names_payload h, fun n => mem_names_payload h, fun r => ?_⟩,
    ⟨t.peerRecords, rfl, ?_, fun r => mem_peerRecords⟩, liveCount_eq t⟩
  · rw [payload, List.mem_cons, List.mem_append, mem_peerRecords, mem_tombstoneRecords]
  · rw [names_peerRecords h]
    exact keys_sorted t.peers

/-- A member that was buried came back, and another one died of silence. -/
def sampleViewed : Table :=
  sample.run [.merge (.brief "b" 3 .alive) 20, .act (.tick 5020 5000 100), .merge (.brief "b" 4 .alive) 5030,
    .act (.tick 5200 5000 100)]

theorem lists_each_member_once_sample : sampleViewed.Reachable ∧ sampleViewed.Coherent ∧
    (sampleViewed.payload.map (·.name)).Nodup ∧ "c" ∈ sampleViewed.payload.map (·.name) ∧
    ("c" ∈ sampleViewed.tombstones ∧ "c" ∉ sampleViewed.peers) ∧
    sampleViewed.liveCount = sampleViewed.liveRecords.length := by
  have hreach : sampleViewed.Reachable := sample_reachable.run _
  obtain ⟨hcoherent, ⟨-, hnodup, hmem, -⟩, -, hcount⟩ := lists_each_member_once hreach
  have hburied : "c" ∈ sampleViewed.tombstones ∧ "c" ∉ sampleViewed.peers := by decide +kernel
  exact ⟨hreach, hcoherent, hnodup, (hmem "c").mpr (Or.inr (Or.inr hburied.1)), hburied, hcount⟩

end AgentMesh.Gossip.Table
