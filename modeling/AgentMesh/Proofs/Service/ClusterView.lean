import AgentMesh.Proofs.Gossip.Monitoring
import AgentMesh.Proofs.Gossip.Views
import AgentMesh.Proofs.Service.Capacity
import AgentMesh.Service.DiscoveryCalls
import AgentMesh.Service.NodeCalls

/-!
# The cluster in one list

Every live member is listed once, as gossip knows it. A node that was added to the broadcaster follows unless gossip
knows its name, once for each time that it was added. What is told of the cluster counts every node as often as it is
listed.
-/

namespace AgentMesh

/-! ## The tables behind a view -/

namespace Gossip

theorem Table.nodup_names_liveRecords {t : Table} (h : t.Coherent) : (t.liveRecords.map (·.name)).Nodup := by
  have hpayload := nodup_names_payload h
  rw [payload, ← List.cons_append] at hpayload
  refine List.Nodup.sublist (.map _ ?_) hpayload
  rw [liveRecords]
  split
  · exact List.sublist_append_left _ _
  · exact (List.sublist_cons_self _ _).trans (List.sublist_append_left _ _)

namespace Membership

variable (m : Membership) (net : Network) (now : Nat)

theorem table_receive (a : Arrival) : ∃ ops, (m.receive net a now).1.table = m.table.run ops := by
  simp only [receive]
  split
  · exact ⟨[], rfl⟩
  · split
    · exact ⟨[], rfl⟩
    · exact ⟨_, table_handle_eq_run _ _ _ _ _⟩

theorem table_receiveAll (arrivals : List Arrival) :
    ∃ ops, (m.receiveAll net arrivals now).1.table = m.table.run ops := by
  induction arrivals generalizing m with
  | nil => exact ⟨[], rfl⟩
  | cons a as ih =>
      obtain ⟨ops, hops⟩ := m.table_receive net now a
      obtain ⟨ops', hops'⟩ := ih (m.receive net a now).1
      exact ⟨ops ++ ops', by rw [Table.run_append, ← hops, ← hops']; rfl⟩

theorem table_join (seeds : List String) (arrivals : List Arrival) :
    ∃ ops, (m.join net seeds arrivals now).1.table = m.table.run ops := by
  simp only [join]
  split
  · exact ⟨[], rfl⟩
  · exact m.table_receiveAll net now arrivals

theorem table_start (pick : Sampler) (seeds : List String) (bound : Option Net.SocketAddr) (arrivals : List Arrival) :
    ∃ ops, (m.start net pick seeds bound arrivals now).1.table = m.table.run ops := by
  have hbegun := m.table_perform net (.start bound)
  rcases hb : m.beginStart bound with ⟨m', ⟨e⟩ | ⟨⟩, out⟩
  · simp only [perform, hb] at hbegun
    exact ⟨_, by simpa only [start, hb] using hbegun⟩
  · simp only [perform, hb] at hbegun
    obtain ⟨ops, hops⟩ := (m'.round net pick now).1.table_receiveAll net now arrivals
    have hround := m'.table_perform net (.round pick now)
    refine ⟨(Deed.acts m (.start bound)).map .act ++ ((Deed.acts m' (.round pick now)).map .act ++ ops), ?_⟩
    rw [Table.run_append, Table.run_append, ← hbegun, ← hround]
    simpa only [start, hb, perform, finishStart] using hops

end Membership

namespace Monitored

theorem table_step (s : Monitored) (net : Network) (o : Occasion) :
    ∃ ops, (s.step net o).node.table = s.node.table.run ops := by
  cases o with
  | deed d => exact ⟨_, s.node.table_perform net d⟩
  | arrival a now => exact s.node.table_receive net now a
  | start pick seeds bound arrivals now => exact s.node.table_start net now pick seeds bound arrivals
  | join seeds arrivals now => exact s.node.table_join net now seeds arrivals

theorem reachable_run {s : Monitored} (h : s.node.table.Reachable) (net : Network) (os : List Occasion) :
    (s.run net os).node.table.Reachable := by
  induction os generalizing s with
  | nil => exact h
  | cons o os ih =>
      obtain ⟨ops, hops⟩ := s.table_step net o
      exact ih (hops ▸ h.run ops)

end Monitored

theorem Membership.reachable_of_create {c : Config} {m : Membership} (h : create c = .ok m) : m.table.Reachable :=
  ⟨m.table.self, [], (of_create h).2.1⟩

/-- The members of a node have different names. -/
theorem Membership.nodup_ids_nodes {m : Membership} (h : m.table.Reachable) (now epoch : Nat) :
    ((m.nodes now epoch).map Node.id).Nodup := by
  have hnames := Table.nodup_names_liveRecords h.wellFormed.coherent
  rw [nodes, members]
  split
  · simpa [Function.comp_def, Member.toNode, Member.ofRecord] using hnames
  · exact List.nodup_nil

end Gossip

/-! ## Nodes that were added -/

/-- Adds nodes one after another. -/
def Broadcaster.addNodes (b : Broadcaster) (added : List Node) : Broadcaster :=
  added.foldl (fun b n => (b.addNode n).1) b

theorem Broadcaster.nodes_addNodes (b : Broadcaster) (added : List Node) :
    (b.addNodes added).nodes = b.nodes ++ added := by
  induction added generalizing b with
  | nil => exact (List.append_nil _).symm
  | cons n added ih =>
      have hstep : b.addNodes (n :: added) = (b.addNode n).1.addNodes added := rfl
      rw [hstep, ih, addNode, List.append_assoc, List.singleton_append]

namespace Service

/-! ## The list -/

theorem filter_id_eq_singleton {ns : List Node} (hnodup : (ns.map Node.id).Nodup) {n : Node} (hn : n ∈ ns) :
    ns.filter (·.id = n.id) = [n] := by
  induction ns with
  | nil => cases hn
  | cons n' ns ih =>
      rw [List.map_cons, List.nodup_cons] at hnodup
      have hnone (h : n'.id = n.id) : ns.filter (·.id = n.id) = [] :=
        List.filter_eq_nil_iff.2 fun m hm => by
          simpa using fun hid => hnodup.1 (List.mem_map.2 ⟨m, hm, hid.trans h.symm⟩)
      rcases List.mem_cons.1 hn with rfl | hn
      · rw [List.filter_cons_of_pos (by simp), hnone rfl]
      · have hne : n'.id ≠ n.id := fun h => hnodup.1 (List.mem_map.2 ⟨n, hn, h.symm⟩)
        rw [List.filter_cons_of_neg (by simpa using hne), ih hnodup.2 hn]

theorem count_map_id (ns : List Node) (id : String) : (ns.map Node.id).count id = (ns.filter (·.id = id)).length := by
  rw [List.count, List.countP_map, List.countP_eq_length_filter]
  rfl

namespace View

/-- How often and as what the nodes are listed, given the ones that were added. -/
structure Lists (v : View) (added : List Node) : Prop where
  mem_ids : ∀ id, id ∈ v.nodes.map Node.id ↔ id ∈ v.gossiped.map Node.id ∨ id ∈ added.map Node.id
  /-- What gossip knows is listed once, as gossip knows it. -/
  gossiped : ∀ n ∈ v.gossiped, v.nodes.filter (·.id = n.id) = [n]
  /-- What gossip does not know is listed as often as it was added. -/
  others : ∀ id ∉ v.gossiped.map Node.id, v.nodes.filter (·.id = id) = added.filter (·.id = id)
  nodup : (v.nodes.map Node.id).Nodup ↔ ∀ id ∉ v.gossiped.map Node.id, (added.map Node.id).count id ≤ 1

variable {v : View}

theorem nodes_eq (v : View) :
    v.nodes = v.gossiped ++ v.broadcaster.nodes.filter (·.id ∉ v.gossiped.map Node.id) := by
  have hany (n : Node) : (v.gossiped.any fun g => g.id == n.id) = decide (n.id ∈ v.gossiped.map Node.id) := by
    rw [Bool.eq_iff_iff]
    simp
  simp only [nodes, hany, decide_not]

/-- Among the added nodes that are listed none has a name that gossip knows. -/
theorem filter_nodes_of_gossiped (hnodup : (v.gossiped.map Node.id).Nodup) {n : Node} (hn : n ∈ v.gossiped) :
    v.nodes.filter (·.id = n.id) = [n] := by
  have hid : n.id ∈ v.gossiped.map Node.id := List.mem_map_of_mem hn
  rw [nodes_eq, List.filter_append, filter_id_eq_singleton hnodup hn, List.filter_filter, List.filter_eq_nil_iff.2,
    List.append_nil]
  intro m _
  simp only [Bool.and_eq_true, decide_eq_true_eq, not_and, not_not]
  rintro heq
  exact heq ▸ hid

theorem filter_nodes_of_unknown {id : String} (hid : id ∉ v.gossiped.map Node.id) :
    v.nodes.filter (·.id = id) = v.broadcaster.nodes.filter (·.id = id) := by
  have hnone : v.gossiped.filter (·.id = id) = [] := by
    rw [List.filter_eq_nil_iff]
    intro n hn
    simp only [decide_eq_true_eq]
    rintro rfl
    exact hid (List.mem_map_of_mem hn)
  rw [nodes_eq, List.filter_append, hnone, List.nil_append, List.filter_filter]
  refine List.filter_congr fun n _ => ?_
  by_cases h : n.id = id
  · simp [h, hid]
  · simp [h]

theorem lists (hnodup : (v.gossiped.map Node.id).Nodup) : v.Lists v.broadcaster.nodes where
  mem_ids id := by
    by_cases hid : id ∈ v.gossiped.map Node.id
    · rw [nodes_eq, List.map_append, List.mem_append]
      exact iff_of_true (.inl hid) (.inl hid)
    · rw [← List.count_pos_iff, count_map_id, filter_nodes_of_unknown hid, ← count_map_id, List.count_pos_iff]
      exact (or_iff_right hid).symm
  gossiped _ := filter_nodes_of_gossiped hnodup
  others _ := filter_nodes_of_unknown
  nodup := by
    rw [List.nodup_iff_count_le_one]
    constructor
    · intro h id hid
      have hcount := h id
      rwa [count_map_id, filter_nodes_of_unknown hid, ← count_map_id] at hcount
    · intro h id
      by_cases hid : id ∈ v.gossiped.map Node.id
      · obtain ⟨n, hn, rfl⟩ := List.mem_map.1 hid
        rw [count_map_id, filter_nodes_of_gossiped hnodup hn, List.length_singleton]
      · rw [count_map_id, filter_nodes_of_unknown hid, ← count_map_id]
        exact h id hid

end View

/-! ## What is told of the list -/

/-- What is told of the cluster counts every node as often as it is listed. -/
structure Server.CountsListed (s : Server) : Prop where
  peers : ∀ req, ∃ res, (s.getPeers req).result = .ok res ∧ ∀ id,
    (res.peers.map (·.nodeId)).count id = if id = s.view.localId then 0 else (s.view.nodes.map Node.id).count id
  discovered : ∀ req, ∃ res, (s.discoverNodes req).result = .ok res ∧ ∀ id,
    (res.discoveredNodes.map (·.nodeId)).count id =
      if id ∈ req.knownNodes then 0 else (s.view.nodes.map Node.id).count id
  totals : ∀ req, ∃ res totals, (s.getClusterInfo req).result = .ok res ∧ res.metrics = some totals ∧
    totals.totalNodes = clampInt32 (s.view.nodes.map Node.id).length ∧
    totals.healthyNodes = clampInt32 (s.view.nodes.map fun n => if n.status = .online then 1 else 0).sum ∧
    totals.totalGpus = clampInt32 (s.view.nodes.map fun n => (n.resources.gpus.length : Int)).sum ∧
    totals.totalLayers = clampInt32 (s.view.nodes.map fun n => n.resources.maxLayers.toInt).sum ∧
    totals.allocatedLayers = clampInt32 (s.view.nodes.map fun n => n.resources.usedLayers.toInt).sum ∧
    totals.totalMemoryMb = (s.view.nodes.map fun n => n.resources.memoryMb).foldl addMemory 0

/-- A list of names without some of them. -/
theorem count_filter_ids (ns : List Node) (keep : String → Bool) (id : String) :
    (((ns.filter fun n => keep n.id).map Node.toInfo).map (·.nodeId)).count id =
      if keep id then (ns.map Node.id).count id else 0 := by
  have hids : ((ns.filter fun n => keep n.id).map Node.toInfo).map (·.nodeId) = (ns.map Node.id).filter keep := by
    rw [List.map_map, List.filter_map]
    rfl
  rw [hids]
  split
  · rename_i hkeep
    exact List.count_filter hkeep
  · rename_i hkeep
    exact List.count_eq_zero.2 fun hmem => hkeep (List.mem_filter.1 hmem).2

theorem Server.countsListed (s : Server) : s.CountsListed where
  peers req := by
    refine ⟨_, rfl, fun id => (count_filter_ids s.view.nodes (· != s.view.localId) id).trans ?_⟩
    simp only [bne_iff_ne, ite_not]
  discovered req := by
    refine ⟨_, rfl, fun id => (count_filter_ids s.view.nodes (fun id => !req.knownNodes.contains id) id).trans ?_⟩
    simp only [Bool.not_eq_true', List.contains_eq_mem, decide_eq_false_iff_not, ite_not]
  totals req := by
    have hhealthy : ((s.view.nodes.countP fun n => n.status == .online : Nat) : Int) =
        (s.view.nodes.map fun n => if n.status = .online then 1 else 0).sum := by
      induction s.view.nodes with
      | nil => rfl
      | cons n ns ih => by_cases h : n.status = .online <;> simp [h, ← ih, Int.add_comm]
    refine ⟨_, _, rfl, rfl, ?_⟩
    simp only [clusterMetrics, totalMemory, totalGpus, totalLayers, allocatedLayers, total_eq_sum, hhealthy,
      List.length_map, List.foldl_map, and_self]

/-! ## The list of a node -/

/-- The view of an agent with a node of the gossip layer and some nodes that were added. -/
def viewOf (m : Gossip.Membership) (now epoch : Nat) (r : Resources) (added : List Node) : View where
  localId := m.config.nodeId
  members := m.members now epoch
  broadcaster := ({ resources := r } : Broadcaster).addNodes added

/--
Whatever a node of the gossip layer went through and whichever nodes were added to the broadcaster: the names of the
live members are different, and each member is listed once, as gossip knows it. A node that gossip does not know is
listed once for each time that it was added, and nothing else is listed. So all names are different unless one that
gossip does not know was added twice. Peers, discovered nodes and totals count every node as often as it is listed.
-/
theorem cluster_lists_members_once {c : Gossip.Config} {m : Gossip.Membership}
    (hcreate : Gossip.Membership.create c = .ok m) (collector : Metrics.Collector) (net : Gossip.Network)
    (os : List Gossip.Occasion) (now epoch : Nat) (r : Resources) (added : List Node) (engine : Engine) :
    let node := ((⟨m, collector⟩ : Gossip.Monitored).run net os).node
    let view := viewOf node now epoch r added
    ((node.members now epoch).map (·.name)).Nodup ∧ view.gossiped = node.nodes now epoch ∧ view.Lists added ∧
      (⟨view, engine⟩ : Server).CountsListed := by
  intro node view
  have hreach : node.table.Reachable :=
    Gossip.Monitored.reachable_run (Gossip.Membership.reachable_of_create hcreate) net os
  have hnodup := Gossip.Membership.nodup_ids_nodes hreach now epoch
  have hnames : (node.nodes now epoch).map Node.id = (node.members now epoch).map (·.name) := List.map_map
  have hadded : view.broadcaster.nodes = added := Broadcaster.nodes_addNodes _ _
  exact ⟨hnames ▸ hnodup, rfl, hadded ▸ View.lists hnodup, Server.countsListed _⟩

/-- A started node was itself added, and so was another one. -/
def sampleAdded : List Node := [{ id := "x" }, { id := "a", port := 1 }]

theorem cluster_lists_members_once_sample :
    Gossip.Membership.create (Gossip.Mesh.sampleConfig false) = .ok (Gossip.Mesh.sampleNodes false) ∧
    ((viewOf Gossip.Monitored.sampleOpened.node 10 0 {} sampleAdded).nodes.map Node.id).Nodup ∧
    "x" ∈ (viewOf Gossip.Monitored.sampleOpened.node 10 0 {} sampleAdded).nodes.map Node.id := by
  have hcreate := Gossip.Mesh.create_sampleNodes false
  have hadded : (sampleAdded.map Node.id).Nodup := by decide
  obtain ⟨-, -, hlists, -⟩ := cluster_lists_members_once hcreate { nodeId := "a" } .literal
    [.start .first [] (some Gossip.Mesh.sampleBound) [] 0] 10 0 {} sampleAdded (.greeting "a")
  exact ⟨hcreate, hlists.nodup.2 fun id _ => List.nodup_iff_count_le_one.1 hadded id,
    (hlists.mem_ids "x").2 (.inr (by decide))⟩

/-- An agent that was told twice of a node which gossip does not know. -/
theorem added_twice_listed_twice :
    Gossip.Membership.create (Gossip.Mesh.sampleConfig false) = .ok (Gossip.Mesh.sampleNodes false) ∧
    (viewOf (Gossip.Mesh.sampleNodes false) 0 0 {} [{ id := "x" }, { id := "x" }]).nodes.map Node.id = ["x", "x"] ∧
    ¬ ((viewOf (Gossip.Mesh.sampleNodes false) 0 0 {} [{ id := "x" }, { id := "x" }]).nodes.map Node.id).Nodup := by
  have hids : (viewOf (Gossip.Mesh.sampleNodes false) 0 0 {} [{ id := "x" }, { id := "x" }]).nodes.map Node.id =
      ["x", "x"] := by decide +kernel
  exact ⟨Gossip.Mesh.create_sampleNodes false, hids, by rw [hids]; decide⟩

end Service

end AgentMesh
