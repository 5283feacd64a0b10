import AgentMesh.Proofs.Service.Clamping
import AgentMesh.Proofs.Wire.RoundTrip
import AgentMesh.Service.Client

/-!
# What a client sees

A client gets the nodes that the agent sees, in their order, and the resources that the agent has. All that may differ
is a time of last sight which a signed number cannot hold.
-/

namespace AgentMesh

namespace Node

/-- The node as another agent sees it: the time of its last sight fits into a signed number. -/
def seenAfar (n : Node) : Node :=
  { n with lastSeen := min n.lastSeen (2 ^ 63 - 1) }

theorem ofWire_name (s : NodeStatus) : NodeStatus.ofWire s.name = s := by
  cases s <;> decide

theorem port_ofInfo_toInfo (p : UInt16) : (Int32.ofNat p.toNat).toInt = p.toNat := by
  have := p.toNat_lt
  rw [Int32.toInt_ofNat_of_lt]
  omega

theorem ofInfo_toInfo (n : Node) : ofInfo n.toInfo = n.seenAfar := by
  have hport := n.port.toNat_lt
  have hlast : (max (-2 ^ 63) (min (2 ^ 63 - 1) (n.lastSeen : Int))).toNat = min n.lastSeen (2 ^ 63 - 1) := by omega
  simp only [ofInfo, toInfo, seenAfar, port_ofInfo_toInfo, ofWire_name, clampInt64_toInt, Option.getD_some, hlast]
  rw [if_pos (by omega), Int.toNat_natCast, UInt16.ofNat_toNat]

theorem map_ofInfo_toInfo (ns : List Node) : (ns.map toInfo).map ofInfo = ns.map seenAfar := by
  rw [List.map_map]
  exact List.map_congr_left fun n _ => ofInfo_toInfo n

theorem lastSeen_ofInfo_lt (i : Wire.NodeInfo) : (ofInfo i).lastSeen < 2 ^ 63 := by
  have := i.lastSeen.toInt_lt
  show i.lastSeen.toInt.toNat < 2 ^ 63
  omega

/-- What was read from the wire is the same when it is told and read again. -/
theorem ofInfo_toInfo_ofInfo (i : Wire.NodeInfo) : ofInfo (ofInfo i).toInfo = ofInfo i := by
  have hlast := lastSeen_ofInfo_lt i
  rw [ofInfo_toInfo, seenAfar, Nat.min_eq_left (by omega)]

end Node

namespace Service

open Wire

/-! ## Calls -/

section Calls

variable {α β : Type} [Message α] [Message β]

/-- The lengths of the request and of the response of a call fit. -/
structure Carried (handler : α → Outcome β) (req : α) : Prop where
  request : Fits (Message.encode req)
  response : ∀ res, (handler req).result = .ok res → Fits (Message.encode res)

theorem result_overWire {handler : α → Outcome β} {req : α} {res : β} (hreq : ReadBack req)
    (hres : (handler req).result = .ok res) (hread : ReadBack res) : (overWire handler req).result = .ok res := by
  simp only [overWire, hreq.1, hres, hread.1]

end Calls

namespace Client

variable {c : Client} {s : Server}

theorem result_resources (h : Carried s.getResources { nodeId := c.requester }) :
    (c.resources s).result = .ok s.view.broadcaster.resources := by
  have hreq := readBack_of_complete (by decide) trivial h.request
  have hres := readBack_of_complete (by decide) trivial (h.response _ rfl)
  rw [resources, Answer.map, result_overWire hreq rfl hres]
  rfl

theorem result_nodes (h : Carried s.getNodeList { requesterId := c.requester }) :
    (c.nodes s).result = .ok (s.view.nodes.map Node.seenAfar) := by
  have hreq := readBack_of_complete (by decide) trivial h.request
  -- Metrics are not asked for, so the response holds no fraction.
  have hexact : Message.Complete.Exact ({ nodes := s.view.nodes.map Node.toInfo } : NodeListResponse) := nofun
  have hres := readBack_of_complete (by decide) hexact (h.response _ rfl)
  rw [nodes, Answer.map, result_overWire hreq rfl hres, ← Node.map_ofInfo_toInfo]
  rfl

theorem result_peerNodes (h : Carried s.getPeers { nodeId := c.requester }) :
    (c.peerNodes s).result = .ok ((s.view.nodes.filter fun n => n.id ≠ s.view.localId).map Node.seenAfar) := by
  have hreq := readBack_of_complete (by decide) trivial h.request
  have hres := readBack_of_complete (by decide) trivial (h.response _ rfl)
  have hpeers : s.view.nodes.filter (fun n => n.id ≠ s.view.localId) = s.view.peers :=
    List.filter_congr fun n _ => by simp [bne, Bool.beq_eq_decide_eq]
  rw [peerNodes, Answer.map, result_overWire hreq rfl hres, hpeers, ← Node.map_ofInfo_toInfo]
  rfl

theorem result_peers (h : Carried s.getPeers { nodeId := c.requester }) :
    (c.peers s).result = .ok ((s.view.nodes.filter fun n => n.id ≠ s.view.localId).map Node.endpoint) := by
  rw [peers, Answer.map, result_peerNodes h]
  exact congrArg Except.ok (List.map_map.trans (List.map_congr_left fun n _ => rfl))

theorem result_discover {known : List String}
    (h : Carried s.discoverNodes { requesterId := c.requester, knownNodes := known }) :
    (c.discover s known).result = .ok ((s.view.nodes.filter fun n => n.id ∉ known).map Node.seenAfar) := by
  have hreq := readBack_of_complete (by decide) trivial h.request
  have hres := readBack_of_complete (by decide) trivial (h.response _ rfl)
  have hfound : s.view.nodes.filter (fun n => n.id ∉ known) = s.view.nodes.filter fun n => !known.contains n.id :=
    List.filter_congr fun n _ => by simp
  rw [discover, Answer.map, result_overWire hreq rfl hres, hfound, ← Node.map_ofInfo_toInfo]
  rfl

/--
Over the wire a client gets the resources that the agent has and the nodes that the agent sees: all of them, the
peers, or those that it does not know, always in the agent's order. Only a time of last sight beyond the signed
numbers is cut off, and what was read from the wire once is told again without any loss.
-/
theorem sees_what_agent_sees (c : Client) (s : Server) :
    (Carried s.getNodeList { requesterId := c.requester } →
      (c.nodes s).result = .ok (s.view.nodes.map Node.seenAfar)) ∧
    (Carried s.getResources { nodeId := c.requester } →
      (c.resources s).result = .ok s.view.broadcaster.resources) ∧
    (Carried s.getPeers { nodeId := c.requester } →
      (c.peerNodes s).result = .ok ((s.view.nodes.filter fun n => n.id ≠ s.view.localId).map Node.seenAfar) ∧
      (c.peers s).result = .ok ((s.view.nodes.filter fun n => n.id ≠ s.view.localId).map Node.endpoint)) ∧
    (∀ known, Carried s.discoverNodes { requesterId := c.requester, knownNodes := known } →
      (c.discover s known).result = .ok ((s.view.nodes.filter fun n => n.id ∉ known).map Node.seenAfar)) ∧
    ∀ i : NodeInfo, Node.ofInfo (Node.ofInfo i).toInfo = Node.ofInfo i :=
  ⟨result_nodes, result_resources, fun h => ⟨result_peerNodes h, result_peers h⟩, fun _ h => result_discover h,
    Node.ofInfo_toInfo_ofInfo⟩

/-- An agent that was told of itself and of a busy node which it saw at the end of all time. -/
def sampleAgent : Server where
  view.localId := "a"
  view.broadcaster.nodes := [{ id := "a" }, { id := "b", port := 65535, status := .busy, lastSeen := 2 ^ 64 - 1 }]
  view.broadcaster.resources.gpus := [{ uuid := "g" }]
  engine := .greeting "a"

theorem sees_what_agent_sees_sample :
    (({} : Client).nodes sampleAgent).result = .ok (sampleAgent.view.nodes.map Node.seenAfar) ∧
    (({} : Client).resources sampleAgent).result = .ok sampleAgent.view.broadcaster.resources ∧
    (({} : Client).peerNodes sampleAgent).result =
      .ok [{ id := "b", port := 65535, status := .busy, lastSeen := 2 ^ 63 - 1 }] ∧
    (({} : Client).discover sampleAgent ["b"]).result = .ok [{ id := "a" }] := by
  obtain ⟨hnodes, hresources, hpeers, hdiscover, -⟩ := sees_what_agent_sees {} sampleAgent
  refine ⟨hnodes ⟨by decide +kernel, ?_⟩, hresources ⟨by decide +kernel, ?_⟩,
    (hpeers ⟨by decide +kernel, ?_⟩).1.trans (congrArg _ (by decide +kernel)),
    (hdiscover ["b"] ⟨by decide +kernel, ?_⟩).trans (congrArg _ (by decide +kernel))⟩
  all_goals
    rintro _ ⟨⟩
    decide +kernel

end Client

end Service

end AgentMesh
