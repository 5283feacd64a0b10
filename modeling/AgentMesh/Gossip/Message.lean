import AgentMesh.Gossip.Record
import AgentMesh.Json.Magnitude
import AgentMesh.Json.Printer
import AgentMesh.Json.Reader
import AgentMesh.Json.Records

/-!
# Gossip messages

A message is one datagram: a JSON document with a member `type` that names its kind. Every kind carries the
record of its sender. A document is taken up as a whole before its kind is known, so its nesting is
bounded, every text in it must be well formed, and no number may be too large to be converted to a double.
-/

namespace AgentMesh.Gossip

inductive Message
  | ping (sender : MemberRecord) (seq : Nat)
  | ack (sender : MemberRecord) (seq : Nat)
  | join (sender : MemberRecord)
  | joinAck (sender : MemberRecord) (members : List MemberRecord)
  | gossip (sender : MemberRecord) (members : List MemberRecord)
deriving Repr, DecidableEq, Inhabited

namespace Message

def sender : Message → MemberRecord
  | ping s _ => s
  | ack s _ => s
  | join s => s
  | joinAck s _ => s
  | gossip s _ => s

/-- The records that a message tells about besides its sender's. -/
def members : Message → List MemberRecord
  | joinAck _ ms => ms
  | gossip _ ms => ms
  | _ => []

/-- The same message from a sender at another address. -/
def withSenderAddr (addr : Net.SocketAddr) : Message → Message
  | ping s seq => ping { s with addr } seq
  | ack s seq => ack { s with addr } seq
  | join s => join { s with addr }
  | joinAck s ms => joinAck { s with addr } ms
  | gossip s ms => gossip { s with addr } ms

/-- The kind as it is named outside of documents. -/
def kind : Message → String
  | ping _ _ => "ping"
  | ack _ _ => "ack"
  | join _ => "join_request"
  | joinAck _ _ => "join_ack"
  | gossip _ _ => "gossip"

end Message

/-! ## Records as documents -/

namespace MemberState

def toJson (s : MemberState) : Json := .str s.name

def ofJson? (v : Json) : Option MemberState := do
  ofName? (← v.asMark)

end MemberState

namespace Profile

def toJson (m : Profile) : Json :=
  .record [("resources", m.resources.toJson), ("status", m.status.toJson)]

def ofJson? (v : Json) : Option Profile := do
  match ← Json.fields ["resources", "status"] v with
  | [resources, status] =>
      return { resources := ← Resources.ofJson? resources, status := ← NodeStatus.ofJson? status }
  | _ => none

end Profile

namespace MemberRecord

def fieldNames : List String :=
  ["name", "addr", "rpc_port", "meta", "incarnation", "heartbeat", "state"]

def toJson (r : MemberRecord) : Json :=
  .record [("name", .str r.name), ("addr", .str r.addr.text), ("rpc_port", .nat r.rpcPort.toNat),
    ("meta", r.profile.toJson), ("incarnation", .nat r.incarnation), ("heartbeat", .nat r.heartbeat),
    ("state", r.state.toJson)]

def ofJson? (v : Json) : Option MemberRecord := do
  match ← Json.fields fieldNames v with
  | [name, addr, rpcPort, profile, incarnation, heartbeat, state] =>
      return { name := ← name.asString, addr := ← Net.SocketAddr.parse? (← addr.asString),
               rpcPort := ← rpcPort.asUInt16, profile := ← Profile.ofJson? profile,
               incarnation := ← incarnation.asCount, heartbeat := ← heartbeat.asCount,
               state := ← MemberState.ofJson? state }
  | _ => none

end MemberRecord

/-! ## Messages as documents -/

namespace Message

def typeName : Message → String
  | ping _ _ => "ping"
  | ack _ _ => "ack"
  | join _ => "join"
  | joinAck _ _ => "join_ack"
  | gossip _ _ => "gossip"

def membersJson (ms : List MemberRecord) : Json :=
  .array (ms.map MemberRecord.toJson)

def extraFields : Message → List (String × Json)
  | ping _ seq => [("seq", .nat seq)]
  | ack _ seq => [("seq", .nat seq)]
  | join _ => []
  | joinAck _ ms => [("members", membersJson ms)]
  | gossip _ ms => [("members", membersJson ms)]

def toJson (m : Message) : Json :=
  .record (("type", .str m.typeName) :: ("from", m.sender.toJson) :: m.extraFields)

def ofFields? (type : String) (rest : Json) : Option Message :=
  match type with
  | "ping" => do
      match ← Json.fields ["from", "seq"] rest with
      | [sender, seq] => return .ping (← MemberRecord.ofJson? sender) (← seq.asCount)
      | _ => none
  | "ack" => do
      match ← Json.fields ["from", "seq"] rest with
      | [sender, seq] => return .ack (← MemberRecord.ofJson? sender) (← seq.asCount)
      | _ => none
  | "join" => do
      match ← Json.fields ["from"] rest with
      | [sender] => return .join (← MemberRecord.ofJson? sender)
      | _ => none
  | "join_ack" => do
      match ← Json.fields ["from", "members"] rest with
      | [sender, ms] =>
          return .joinAck (← MemberRecord.ofJson? sender) (← ms.asList MemberRecord.ofJson?)
      | _ => none
  | "gossip" => do
      match ← Json.fields ["from", "members"] rest with
      | [sender, ms] =>
          return .gossip (← MemberRecord.ofJson? sender) (← ms.asList MemberRecord.ofJson?)
      | _ => none
  | _ => none

/-- The type, which is the member of that name or the first item, and the rest of the document. -/
def splitType : Json → Option (String × Json)
  | .array (.string (some type) :: items) => some (type, .array items)
  | .object members =>
      match members.filter fun m => m.1 == some "type" with
      | [(_, .string (some type))] =>
          some (type, .object (members.filter fun m => m.1 != some "type"))
      | _ => none
  | _ => none

def maxDepth : Nat := 127

/-- A document that can be taken up without knowing what it is about. -/
def bufferable (v : Json) : Bool :=
  v.depth ≤ maxDepth && v.wellFormed fun n => !n.overflows

def ofJson? (v : Json) : Option Message := do
  if bufferable v then
    let (type, rest) ← splitType v.emptyAsNull
    ofFields? type rest
  else
    none

def encode (m : Message) : String :=
  m.toJson.compact

def decode? (bytes : ByteArray) : Option Message := do
  ofJson? (← Json.ofUtf8? bytes)

/-! ## Size -/

def maxDatagram : Nat := 65507

def fits (m : Message) : Bool :=
  m.encode.utf8ByteSize ≤ maxDatagram

/-- The message, or word of its sender alone if the message is too large. -/
def trimmed (m : Message) : Message :=
  if m.fits then m else .gossip m.sender []

end Message

end AgentMesh.Gossip
