import AgentMesh.Discovery.Registry
import Mathlib.Data.List.Nodup

/-!
# Consistent registries

The three maps of a registry know the same addresses, and an agent is shown as the node of its address. This holds
however agents come and go, and it makes the order of a snapshot strict.
-/

namespace AgentMesh.Discovery

open Std

theorem values_eq {β : Type} (m : AddressMap β) : m.values = m.toList.map Prod.snd := by
  rcases m with ⟨m⟩
  induction m using ExtDTreeMap.inductionOn with
  | _ t =>
      show t.inner.values = (DTreeMap.Internal.Impl.Const.toList t.inner).map Prod.snd
      rw [DTreeMap.Internal.Impl.values_eq_map_snd, DTreeMap.Internal.Impl.Const.toList_eq_toListModel_map,
        List.map_map]
      rfl

/-- The node stands at the place of its address. -/
structure Node.IsAt (n : Node) (address : String) : Prop where
  id : n.id = "agent-" ++ address
  place : (n.address, n.port) = splitHostPort address

theorem isAt_nodeAt (address : String) (resources : Resources) (now : Nat) :
    Node.IsAt (nodeAt address resources now) address :=
  ⟨rfl, rfl⟩

namespace Registry

structure Consistent (r : Registry) : Prop where
  nodes (a : String) : a ∈ r.nodes ↔ a ∈ r.clients
  monitors (a : String) : r.monitors[a]? = r.clients[a]?.map Handle.number
  own {a : String} {c : Handle} : r.clients[a]? = some c → c.address = a
  shown {a : String} {n : Node} : r.nodes[a]? = some n → Node.IsAt n a

theorem consistent_empty : Consistent {} where
  nodes a := by simp
  monitors a := by simp
  own := by simp
  shown := by simp

variable {r : Registry}

theorem Consistent.mem_monitors (h : r.Consistent) (a : String) : a ∈ r.monitors ↔ a ∈ r.clients := by
  rw [ExtTreeMap.mem_iff_isSome_getElem?, ExtTreeMap.mem_iff_isSome_getElem?, h.monitors, Option.isSome_map]

theorem Consistent.register (h : r.Consistent) (client : Handle) {node : Node} (hnode : Node.IsAt node client.address) :
    (r.register client node).Consistent where
  nodes a := by simp [Registry.register, ExtTreeMap.mem_insert, h.nodes]
  monitors a := by
    by_cases ha : client.address = a <;> simp [Registry.register, ExtTreeMap.getElem?_insert, ha, h.monitors]
  own {a c} hc := by
    simp only [Registry.register, ExtTreeMap.getElem?_insert] at hc
    split at hc
    · rename_i ha
      cases hc
      exact LawfulEqCmp.eq_of_compare ha
    · exact h.own hc
  shown {a n} hn := by
    simp only [Registry.register, ExtTreeMap.getElem?_insert] at hn
    split at hn
    · rename_i ha
      cases hn
      rwa [← LawfulEqCmp.eq_of_compare ha]
    · exact h.shown hn

/-- A node may change in all but its place. -/
theorem Consistent.modify (h : r.Consistent) (address : String) {f : Node → Node}
    (hf : ∀ n a, Node.IsAt n a → Node.IsAt (f n) a) :
    Consistent { r with nodes := r.nodes.modify address f } where
  nodes a := by simp [ExtTreeMap.mem_modify, h.nodes]
  monitors := h.monitors
  own := h.own
  shown {a n} hn := by
    simp only [ExtTreeMap.getElem?_modify] at hn
    split at hn
    · rename_i ha
      obtain ⟨m, hm, rfl⟩ := Option.map_eq_some_iff.1 hn
      rw [LawfulEqCmp.eq_of_compare ha] at hm
      exact hf m a (h.shown hm)
    · exact h.shown hn

theorem Consistent.observed (h : r.Consistent) (address : String) (resources : Resources) (now : Nat) :
    (r.observed address resources now).Consistent :=
  h.modify address fun _ _ hn => ⟨hn.id, hn.place⟩

theorem Consistent.missed (h : r.Consistent) (address : String) : (r.missed address).Consistent :=
  h.modify address fun _ _ hn => ⟨hn.id, hn.place⟩

theorem getElem?_strike (address a : String) :
    (r.strike address).1.clients[a]? = if address = a then none else r.clients[a]? := by
  simp [Registry.strike, ExtTreeMap.getElem?_erase]

theorem Consistent.strike (h : r.Consistent) (address : String) : (r.strike address).1.Consistent where
  nodes a := by simp [Registry.strike, ExtTreeMap.mem_erase, h.nodes]
  monitors a := by
    by_cases ha : address = a <;> simp [Registry.strike, ExtTreeMap.getElem?_erase, ha, h.monitors]
  own {a c} hc := by
    rw [getElem?_strike] at hc
    split at hc
    · cases hc
    · exact h.own hc
  shown {a n} hn := by
    simp only [Registry.strike, ExtTreeMap.getElem?_erase] at hn
    split at hn
    · cases hn
    · exact h.shown hn

/-! ## Snapshots -/

theorem Consistent.map_id_values (h : r.Consistent) :
    r.nodes.values.map Node.id = r.nodes.keys.map ("agent-" ++ ·) := by
  rw [values_eq, ← ExtTreeMap.map_fst_toList_eq_keys, List.map_map, List.map_map]
  refine List.map_congr_left fun p hp => ?_
  exact (h.shown (ExtTreeMap.mem_toList_iff_getElem?_eq_some.1 hp)).id

theorem snapshot_perm (r : Registry) : r.snapshot.Perm r.nodes.values :=
  List.mergeSort_perm r.nodes.values fun a b => a.id ≤ b.id

theorem Consistent.nodup_ids (h : r.Consistent) : (r.snapshot.map Node.id).Nodup := by
  refine (r.snapshot_perm.map Node.id).nodup_iff.2 ?_
  rw [h.map_id_values]
  refine ExtTreeMap.nodup_keys.map fun a b hab => ?_
  exact String.append_right_inj "agent-" |>.1 hab

theorem pairwise_le_snapshot (r : Registry) : r.snapshot.Pairwise fun a b => a.id ≤ b.id := by
  have htrans (a b c : Node) (hab : decide (a.id ≤ b.id) = true) (hbc : decide (b.id ≤ c.id) = true) :
      decide (a.id ≤ c.id) = true :=
    decide_eq_true (String.le_trans (of_decide_eq_true hab) (of_decide_eq_true hbc))
  have htotal (a b : Node) : (decide (a.id ≤ b.id) || decide (b.id ≤ a.id)) = true := by
    simpa using String.le_total a.id b.id
  exact (List.pairwise_mergeSort htrans htotal r.nodes.values).imp of_decide_eq_true

/-- A snapshot lists the nodes strictly in the order of their names. -/
theorem Consistent.pairwise_snapshot (h : r.Consistent) : r.snapshot.Pairwise fun a b => a.id < b.id := by
  have hne : r.snapshot.Pairwise fun a b => a.id ≠ b.id := List.pairwise_map.1 h.nodup_ids
  refine ((pairwise_le_snapshot r).and hne).imp fun ⟨hle, hne⟩ => ?_
  exact String.not_le.1 fun hge => hne (String.le_antisymm hle hge)

end Registry

end AgentMesh.Discovery
