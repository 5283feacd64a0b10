import AgentMesh.Gossip.Record
import AgentMesh.Proofs.Discovery.Overlap
import AgentMesh.Proofs.Net.Spelling
import AgentMesh.Proofs.Service.RemoteView

/-!
# Endpoints that are told to others

An agent tells the endpoints of its peers, and whoever reads one takes it apart at the last colon. Host and port come
out as they were put in, unless the host ends in a colon itself: then no port is seen, and all of the endpoint is
taken for the host. Such hosts are the addresses whose closing zeros are left out.
-/

namespace AgentMesh

namespace Text

theorem splitLast_append {c : Char} {after : List Char} (h : c ∉ after) (before : List Char) :
    splitLast c (before ++ c :: after) = some (before, after) := by
  induction before with
  | nil =>
      have hnone : splitLast c after = none := by
        induction after with
        | nil => rfl
        | cons x r ih =>
            rw [List.mem_cons, not_or] at h
            rw [splitLast, ih h.2, if_neg (Ne.symm h.1)]
      rw [List.nil_append, splitLast, hnone, if_pos rfl]
  | cons x before ih => rw [List.cons_append, splitLast, ih]

theorem readPort?_toDigits (port : UInt16) : readPort? (Nat.toDigits 10 port.toNat) = some port := by
  have hread := readNat?_toDigits port.toNat
  have hunsigned : readUnsigned? (Nat.toDigits 10 port.toNat) = some port.toNat := by
    obtain ⟨d, r, hd, hcons⟩ := exists_toDigits_eq_cons port.toNat
    rw [hcons] at hread ⊢
    rw [readUnsigned?, hread]
    -- A numeral has no sign in front.
    rintro rest heq
    have hplus : digit? (Nat.digitChar d) = none := by
      rw [(List.cons.inj heq).1]
      rfl
    rw [digit?_digitChar d hd] at hplus
    cases hplus
  have hport := port.toNat_lt
  simp only [readPort?, hunsigned, Option.bind_eq_bind, Option.bind_some, if_pos hport, UInt16.ofNat_toNat]

end Text

namespace Discovery

open Text

/-! ## Taking an endpoint apart -/

theorem stripBrackets_eq {host : List Char} (h : Net.Spelled host) : stripBrackets host = host := by
  have hopening : host.dropWhile (· == '[') = host := by
    rw [List.dropWhile_eq_self_iff]
    intro hpos hbracket
    have := h _ (List.getElem_mem hpos)
    rw [eq_of_beq hbracket] at this
    exact absurd this (by decide)
  have hclosing : host.reverse.dropWhile (· == ']') = host.reverse := by
    rw [List.dropWhile_eq_self_iff]
    intro hpos hbracket
    have := h _ (List.mem_reverse.1 (List.getElem_mem hpos))
    rw [eq_of_beq hbracket] at this
    exact absurd this (by decide)
  rw [stripBrackets, hopening, hclosing, List.reverse_reverse]

theorem toList_endpoint (n : Node) :
    n.endpoint.toList = n.address.toList ++ ':' :: Nat.toDigits 10 n.port.toNat := by
  simp [Node.endpoint]

theorem splitHostPort_endpoint {n : Node} (hhost : Net.Spelled n.address.toList) (hne : n.address.toList ≠ []) :
    splitHostPort n.endpoint =
      if n.address.toList.getLast? = some ':' then (n.endpoint, defaultPort) else (n.address, n.port) := by
  have hdigits : ':' ∉ Nat.toDigits 10 n.port.toNat := fun hcolon => Net.digit?_of_mem_toDigits hcolon rfl
  have hsplit : splitLast ':' n.endpoint.toList = some (n.address.toList, Nat.toDigits 10 n.port.toNat) := by
    rw [toList_endpoint, splitLast_append hdigits]
  have hwhole : Net.Spelled n.endpoint.toList := by
    rw [toList_endpoint]
    exact hhost.append (.cons (.inr rfl) (Net.spelled_toDigits _))
  have hfull : n.address.toList.isEmpty = false := List.isEmpty_eq_false_iff.2 hne
  simp only [splitHostPort, hsplit, hfull, Bool.false_or, beq_iff_eq]
  split
  · rw [stripBrackets_eq hwhole, String.ofList_toList]
  · rw [stripBrackets_eq hhost, readPort?_toDigits, Option.getD_some, String.ofList_toList]

theorem endpoint_ne_address (n : Node) : n.endpoint ≠ n.address := by
  intro heq
  have hlength := congrArg List.length (congrArg String.toList heq)
  rw [toList_endpoint, List.length_append, List.length_cons] at hlength
  omega

/-- What becomes of the endpoint of a member. -/
theorem splitHostPort_toNode (m : Gossip.Member) :
    splitHostPort m.toNode.endpoint =
      if m.addr.ip.TrailsOff then (m.toNode.endpoint, defaultPort) else (m.toNode.address, m.toNode.port) := by
  rw [splitHostPort_endpoint (n := m.toNode) m.addr.ip.spelled_text m.addr.ip.text_ne_nil]
  exact if_congr m.addr.ip.getLast?_text_eq_colon_iff rfl rfl

theorem splitHostPort_toNode_eq_iff (m : Gossip.Member) :
    splitHostPort m.toNode.endpoint = (m.toNode.address, m.toNode.port) ↔ ¬ m.addr.ip.TrailsOff := by
  rw [splitHostPort_toNode]
  split
  · rename_i htrails
    exact iff_of_false (fun heq => endpoint_ne_address _ (congrArg Prod.fst heq)) (not_not_intro htrails)
  · exact iff_of_true rfl ‹_›

/-! ## From one agent's peers to the registry of another -/

open Service in
theorem endpoint_mem_peers {m : Gossip.Member} {c : Client} {s : Server} (hm : m ∈ s.view.members)
    (hname : m.name ≠ s.view.localId) (hcarried : Carried s.getPeers { nodeId := c.requester }) :
    ∃ peers, (c.peers s).result = .ok peers ∧ m.toNode.endpoint ∈ peers := by
  have hnode : m.toNode ∈ s.view.nodes := List.mem_append_left _ (List.mem_map_of_mem hm)
  have hid : m.toNode.id ≠ s.view.localId := hname
  exact ⟨_, Client.result_peers hcarried, List.mem_map_of_mem (List.mem_filter.2 ⟨hnode, by simpa using hid⟩)⟩

open Service in
/--
Whatever address and port a member has: an agent that knows the member tells its endpoint to whoever asks for its
peers. The endpoint is read as that address and that port exactly if the address does not trail off, and so is it
shown wherever an agent is registered at this endpoint, whatever happened there. Of an address that trails off the
endpoint is taken for a host without a port.
-/
theorem advertised_endpoints_read_back {ι : Type} [DecidableEq ι] (m : Gossip.Member) :
    let n := m.toNode
    (∀ (c : Client) (s : Server), m ∈ s.view.members → m.name ≠ s.view.localId →
      Carried s.getPeers { nodeId := c.requester } →
      ∃ peers, (c.peers s).result = .ok peers ∧ n.endpoint ∈ peers) ∧
    (splitHostPort n.endpoint = (n.address, n.port) ↔ ¬ m.addr.ip.TrailsOff) ∧
    (∀ room (addresses : ι → String) threshold ts,
      ∀ shown, ((Session.fresh room addresses).run threshold ts).directory.registry.nodes[n.endpoint]? = some shown →
        ((shown.address, shown.port) = (n.address, n.port) ↔ ¬ m.addr.ip.TrailsOff)) ∧
    (m.addr.ip.TrailsOff → splitHostPort n.endpoint = (n.endpoint, defaultPort)) := by
  intro n
  refine ⟨fun c s hm hname hcarried => endpoint_mem_peers hm hname hcarried, splitHostPort_toNode_eq_iff m,
    fun room addresses threshold ts shown hshown => ?_, fun htrails => ?_⟩
  · have hsound := (Session.sound_fresh room addresses).run threshold ts
    rw [(hsound.consistent.shown hshown).place]
    exact splitHostPort_toNode_eq_iff m
  · rw [splitHostPort_toNode, if_pos htrails]

/-- A member with an address of these groups. -/
def sampleMember (groups : Vector UInt16 8) : Gossip.Member where
  name := "b"
  addr := .v6 ⟨groups⟩ 0 7946
  rpcPort := 9000
  profile := {}
  state := .alive
  incarnation := 0
  lastSeen := 0

/-- Of two runs of zeros the longer one is left out. -/
def sampleAdvertised : Gossip.Member :=
  sampleMember #v[0x2001, 0xdb8, 0, 0, 0, 1, 0, 0]

def sampleAdvertiser : Service.Server where
  view.localId := "a"
  view.members := [sampleAdvertised]
  engine := .greeting "a"

/-- The agent is connected to at the endpoint that was told. -/
def sampleVisit : List (Session.Turn Unit) :=
  [.advance () 0, .advance () 0, .dialled () true, .answered () (some {}), .advance () 0]

theorem advertised_endpoints_read_back_sample :
    sampleAdvertised.toNode.endpoint = "2001:db8::1:0:0:9000" ∧
    (∃ peers, (({} : Service.Client).peers sampleAdvertiser).result = .ok peers ∧ "2001:db8::1:0:0:9000" ∈ peers) ∧
    splitHostPort "2001:db8::1:0:0:9000" = ("2001:db8::1:0:0", 9000) ∧
    ∃ shown, ((Session.fresh none fun _ => "2001:db8::1:0:0:9000").run 1 sampleVisit).directory.registry.nodes[
      "2001:db8::1:0:0:9000"]? = some shown ∧ (shown.address, shown.port) = ("2001:db8::1:0:0", 9000) := by
  obtain ⟨htold, hread, hshown, -⟩ := @advertised_endpoints_read_back Unit _ sampleAdvertised
  have hendpoint : sampleAdvertised.toNode.endpoint = "2001:db8::1:0:0:9000" := by decide +kernel
  have hplace : (sampleAdvertised.toNode.address, sampleAdvertised.toNode.port) = ("2001:db8::1:0:0", 9000) := by
    decide +kernel
  have hgroups : ¬ sampleAdvertised.addr.ip.TrailsOff := by decide +kernel
  rw [hendpoint] at htold hread hshown
  rw [hplace] at hread hshown
  refine ⟨hendpoint, htold _ _ (by decide +kernel) (by decide +kernel) ⟨by decide +kernel, ?_⟩, hread.2 hgroups, ?_⟩
  · rintro _ ⟨⟩
    decide +kernel
  · have hregistered : (((Session.fresh none fun _ => "2001:db8::1:0:0:9000").run 1
        sampleVisit).directory.registry.nodes["2001:db8::1:0:0:9000"]?).isSome = true := by decide +kernel
    obtain ⟨shown, hnode⟩ := Option.isSome_iff_exists.1 hregistered
    exact ⟨shown, hnode, (hshown none _ 1 sampleVisit shown hnode).2 hgroups⟩

/-- The port of an address that trails off is not seen, and a colon and the port are taken for a part of the host. -/
theorem trailing_zeros_hide_port :
    let n := (sampleMember #v[0x2001, 0xdb8, 0, 0, 0, 0, 0, 0]).toNode
    n.endpoint = "2001:db8:::9000" ∧ (n.address, n.port) = ("2001:db8::", 9000) ∧
    splitHostPort n.endpoint = ("2001:db8:::9000", 8080) ∧
    ((Session.fresh none fun _ => n.endpoint).run 1 sampleVisit).directory.registry.nodes[n.endpoint]? =
      some { id := "agent-2001:db8:::9000", address := "2001:db8:::9000", port := 8080 } := by
  decide +kernel

end Discovery

end AgentMesh
