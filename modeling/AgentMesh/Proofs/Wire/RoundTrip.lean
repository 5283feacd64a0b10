import AgentMesh.Proofs.Wire.Faithful
import AgentMesh.Wire.Schema

/-!
# Reading back the messages of the services

Every message of the services is read back from its encoding, also when fields that it does not have follow. What is
lost is the sign of a zero, which counts as left out. The fields that follow may hold groups; a field inside some
groups is one level deeper than they are, and bytes with more levels than are read make the whole unreadable.
-/

namespace AgentMesh.Wire

/-! ## Shared messages -/

instance : Message.Complete Gpu where
  height := 1
  completes _ _ := .scalar <| .scalar <| .scalar .done

instance : Message.Complete Resources where
  height := 2
  completes _ _ := .scalar <| .scalar <| .messages <| .scalar <| .scalar .done

instance : Message.Complete NodeInfo where
  height := 3
  completes _ _ := .scalar <| .scalar <| .scalar <| .message <| .scalar <| .scalar .done

instance : Message.Complete ModelInfo where
  height := 1
  completes _ _ := .scalar <| .scalar <| .scalar <| .scalar <| .scalar <| .scalar <| .scalars .done

instance : Message.Complete ClusterMetrics where
  height := 1
  Exact m := m.clusterUtilization ≠ .negativeZero
  completes _ h := .scalar <| .scalar <| .scalar <| .scalar <| .scalar <| .scalar <| .scalar <| .scalar .done h

instance : Message.Complete NodeMetrics where
  height := 1
  completes _ _ :=
    .scalar <| .scalar <| .scalar <| .scalar <| .scalar <| .scalar <| .scalar <| .scalar <| .scalar <| .scalar <|
      .scalar <| .scalar .done

/-! ## The node service -/

instance : Message.Complete RegisterNodeRequest where
  height := 3
  completes _ _ := .scalar <| .scalar <| .scalar <| .message .done

instance : Message.Complete RegisterNodeResponse where
  height := 1
  completes _ _ := .scalar <| .scalar .done

instance : Message.Complete GetResourcesRequest where
  height := 1
  completes _ _ := .scalar .done

instance : Message.Complete GetResourcesResponse where
  height := 3
  completes _ _ := .message <| .scalar .done

instance : Message.Complete InferenceRequest where
  height := 1
  completes _ _ := .scalar <| .scalar <| .scalar <| .scalar .done

instance : Message.Complete InferenceResponse where
  height := 1
  completes _ _ := .scalar <| .scalar <| .scalar <| .scalar <| .scalar .done

instance : Message.Complete HealthCheckRequest where
  height := 1
  completes _ _ := .scalar .done

instance : Message.Complete HealthCheckResponse where
  height := 1
  completes _ _ := .scalar <| .scalar <| .scalar .done

instance : Message.Complete GetPeersRequest where
  height := 1
  completes _ _ := .scalar .done

instance : Message.Complete GetPeersResponse where
  height := 4
  completes _ _ := .messages .done

instance : Message.Complete GetMetricsRequest where
  height := 1
  completes _ _ := .scalar .done

instance : Message.Complete GetMetricsResponse where
  height := 2
  completes _ _ := .message .done

instance : Message.Complete StreamMetricsRequest where
  height := 1
  completes _ _ := .scalar <| .scalar .done

/-! ## The discovery service -/

instance : Message.Complete DiscoveryRequest where
  height := 1
  completes _ _ := .scalar <| .scalars .done

instance : Message.Complete DiscoveryResponse where
  height := 4
  completes _ _ := .messages <| .scalar <| .scalar .done

instance : Message.Complete ClusterJoinRequest where
  height := 3
  completes _ _ := .scalar <| .scalar <| .scalar <| .message <| .scalars .done

instance : Message.Complete ClusterJoinResponse where
  height := 4
  completes _ _ := .scalar <| .scalar <| .messages <| .scalar .done

instance : Message.Complete ClusterLeaveRequest where
  height := 1
  completes _ _ := .scalar <| .scalar .done

instance : Message.Complete ClusterLeaveResponse where
  height := 1
  completes _ _ := .scalar <| .scalar .done

instance : Message.Complete ClusterInfoRequest where
  height := 1
  completes _ _ := .scalar .done

instance : Message.Complete ClusterInfoResponse where
  height := 4
  Exact m := ∀ c, m.metrics = some c → c.clusterUtilization ≠ .negativeZero
  completes _ h := .scalar <| .messages <| .messages <| .message .done h

/-! ## The console service -/

instance : Message.Complete NodeListRequest where
  height := 1
  completes _ _ := .scalar <| .scalar .done

instance : Message.Complete NodeListResponse where
  height := 4
  Exact m := ∀ c, m.clusterMetrics = some c → c.clusterUtilization ≠ .negativeZero
  completes _ h := .messages <| .message .done h

instance : Message.Complete ModelListRequest where
  height := 1
  completes _ _ := .scalar .done

instance : Message.Complete ModelListResponse where
  height := 2
  completes _ _ := .messages .done

instance : Message.Complete UpdateStreamRequest where
  height := 1
  completes _ _ := .scalar <| .scalars <| .scalar .done

instance : Message.Complete ClusterUpdate where
  height := 4
  Exact m := ∀ c, m.metrics = some c → c.clusterUtilization ≠ .negativeZero
  completes _ h := .scalar <| .scalar <| .messages <| .messages <| .message .done h

instance : Message.Complete CommandRequest where
  height := 1
  completes _ _ := .scalar <| .scalar <| .scalars .done

instance : Message.Complete CommandResponse where
  height := 1
  completes _ _ := .scalar <| .scalar <| .scalar <| .scalar .done

/-! ## All messages -/

/-- The bytes spell fields that messages of the type do not declare, with no more levels than are read. -/
def Foreign (M : Type) [Message M] (b : Bytes) : Prop :=
  ∃ rs, Spelled Message.maxDepth rs b ∧ ∀ r ∈ rs, ∀ f ∈ Message.fields (M := M), f.number ≠ r.number

/--
The message is what is read from its encoding, alone and with foreign fields after it. Nothing is read if what follows
it is no well-formed sequence of fields, or has more levels than are read.
-/
structure ReadBack {M : Type} [Message M] (m : M) : Prop where
  alone : Message.decode? (Message.encode m) = some m
  followed : ∀ b, Foreign M b → Message.decode? (Message.encode m ++ b) = some m
  refused : ∀ b, (∀ rs, ¬Spelled Message.maxDepth rs b) → Message.decode? (M := M) (Message.encode m ++ b) = none

theorem readBack_of_complete {M : Type} [Message M] [Message.Complete M]
    (hheight : Message.Complete.height M ≤ Message.maxDepth) {m : M} (hexact : Message.Complete.Exact m)
    (hfits : Fits (Message.encode m)) : ReadBack m := by
  have hcomplete := Message.Complete.completes m hexact
  have hnumbered := Message.Complete.numbered (M := M)
  have hpos := Message.Complete.pos (M := M)
  exact {
    alone := Message.Faithful.mergeBytes_encode m hexact hfits _ hheight
    followed := fun b ⟨_, hb, hforeign⟩ => hcomplete.mergeBytes_append hnumbered hfits hpos hheight hb hforeign
    refused := fun b hb => hcomplete.mergeBytes_append_eq_none hnumbered hfits hpos hheight hb }

/-- The types of messages that hold a single-precision number, themselves or in a submessage. -/
def typesWithSingle : List String :=
  ["ClusterMetrics", "ClusterInfoResponse", "NodeListResponse", "ClusterUpdate"]

theorem readBack_of_messageType? {name : String} {t : MessageType} (ht : messageType? name = some t)
    (hname : name ∉ typesWithSingle) (m : t.M) (hfits : Fits (Message.encode m)) : ReadBack m := by
  unfold messageType? at ht
  split at ht <;> cases ht
  case h_5 => exact absurd (by decide) hname
  case h_27 => exact absurd (by decide) hname
  case h_29 => exact absurd (by decide) hname
  case h_33 => exact absurd (by decide) hname
  all_goals exact readBack_of_complete (by decide) trivial hfits

/--
Every message is read back from its encoding, also if well-formed fields follow that it does not declare, as long as
they have no more levels than are read; otherwise nothing is read. A single-precision number in it must not be the zero
with a sign.
-/
theorem messages_read_back :
    (∀ name t, messageType? name = some t → name ∉ typesWithSingle → ∀ m : t.M, Fits (Message.encode m) → ReadBack m) ∧
    (∀ m : ClusterMetrics, m.clusterUtilization ≠ .negativeZero → Fits (Message.encode m) → ReadBack m) ∧
    (∀ m : ClusterInfoResponse, (∀ c, m.metrics = some c → c.clusterUtilization ≠ .negativeZero) →
      Fits (Message.encode m) → ReadBack m) ∧
    (∀ m : NodeListResponse, (∀ c, m.clusterMetrics = some c → c.clusterUtilization ≠ .negativeZero) →
      Fits (Message.encode m) → ReadBack m) ∧
    ∀ m : ClusterUpdate, (∀ c, m.metrics = some c → c.clusterUtilization ≠ .negativeZero) →
      Fits (Message.encode m) → ReadBack m := by
  refine ⟨fun name t ht hname m => readBack_of_messageType? ht hname m, ?_, ?_, ?_, ?_⟩
  all_goals exact fun m hexact hfits => readBack_of_complete (by decide) hexact hfits

/-- Groups of the second field, one inside the other, around some bytes. -/
def nestedGroups (core : Bytes) : Nat → Bytes
  | 0 => core
  | n + 1 => [0x13] ++ (nestedGroups core n ++ ([0x14] ++ []))

/-- The second field with the number zero. -/
def plainField : Bytes := [0x10, 0x00]

theorem keyOf_byte {number : Nat} {type : WireType} {b : UInt8} (hpos : 0 < number) (hsmall : b.toNat < 128)
    (hb : number * 8 + type.code = b.toNat) : KeyOf number type [b] where
  pos := hpos
  lt := by omega
  spells := hb ▸ Varint.spells_byte hsmall

theorem spelled_plainField : Spelled 1 [⟨2, .varint 0⟩] plainField := by
  have hkey : KeyOf 2 .varint [0x10] := keyOf_byte (by decide) (by decide) (by decide)
  have hzero : PayloadOf .varint (.varint 0) [0x00] := .varint (Varint.spells_byte (b := 0) (by decide))
  exact .plain hkey hzero .nil

/-- Each group takes a level more than what it stands around. -/
theorem spelled_nestedGroups {depth : Nat} {rs : List Record} {core : Bytes} (h : Spelled depth rs core) (n : Nat) :
    Spelled (depth + n + 1) [⟨2, .group⟩] (nestedGroups core (n + 1)) := by
  have hopening : KeyOf 2 .groupStart [0x13] := keyOf_byte (by decide) (by decide) (by decide)
  have hclosing : KeyOf 2 .groupEnd [0x14] := keyOf_byte (by decide) (by decide) (by decide)
  induction n with
  | zero => exact .group hopening h hclosing .nil
  | succ n ih => exact .group hopening ih hclosing .nil

/-- A list of one node with a negative port, default resources and no status, and metrics that are nearly all zero. -/
def sampleList : NodeListResponse :=
  { nodes := [{ nodeId := "n", port := -1, resources := some {}, lastSeen := Int64.minValue }],
    clusterMetrics := some { clusterUtilization := ⟨0x42480000⟩ } }

theorem messages_read_back_sample :
    ReadBack sampleList ∧
    Message.decode? (Message.encode ({ nodeId := "n" } : GetPeersRequest) ++ nestedGroups plainField 99) =
      some ({ nodeId := "n" } : GetPeersRequest) := by
  obtain ⟨hplain, -, -, hlist, -⟩ := messages_read_back
  have hlistFits : Fits (Message.encode sampleList) := by decide +kernel
  have hrequestFits : Fits (Message.encode ({ nodeId := "n" } : GetPeersRequest)) := by decide +kernel
  have hmetrics : ∀ c, sampleList.clusterMetrics = some c → c.clusterUtilization ≠ .negativeZero := by
    rintro c ⟨⟩
    decide
  have hforeign : Foreign GetPeersRequest (nestedGroups plainField 99) :=
    ⟨_, spelled_nestedGroups spelled_plainField 98, by decide⟩
  have hrequest := hplain "GetPeersRequest" { M := GetPeersRequest } rfl (by decide) { nodeId := "n" } hrequestFits
  exact ⟨hlist sampleList hmetrics hlistFits, hrequest.followed _ hforeign⟩

/-- One level too many, be it an empty group or a plain field in as many groups as are read, and nothing is read. -/
theorem deep_groups_refused :
    (∀ f ∈ Message.fields (M := GetPeersRequest), f.number ≠ 2) ∧
    Spelled (Message.maxDepth + 1) [⟨2, .group⟩] (nestedGroups [] (Message.maxDepth + 1)) ∧
    Message.decode? (M := GetPeersRequest) (Message.encode ({} : GetPeersRequest) ++
      nestedGroups [] (Message.maxDepth + 1)) = none ∧
    Spelled (Message.maxDepth + 1) [⟨2, .group⟩] (nestedGroups plainField Message.maxDepth) ∧
    Message.decode? (M := GetPeersRequest) (Message.encode ({} : GetPeersRequest) ++
      nestedGroups plainField Message.maxDepth) = none := by
  refine ⟨by decide, ?_, by decide +kernel, spelled_nestedGroups spelled_plainField 99, by decide +kernel⟩
  exact spelled_nestedGroups (.nil : Spelled 0 [] []) 100

end AgentMesh.Wire
