import AgentMesh.Json.Decode
import AgentMesh.Wire.Record

/-!
# Messages and their fields

A message type is an empty message and a list of fields. A field knows its number, how its value is written,
and how a payload with its number changes the message. A value that equals the default is not written. When
a message is read, the last payload of a plain field counts, a list collects all payloads, and the payloads
of a submessage are merged. Records without a field are skipped.

A field has a name as well, under which its value stands when the message is shown as a document.
-/

namespace AgentMesh.Wire

/-! ## Plain values -/

/-- A type of values that fit into one payload. -/
structure Scalar (α : Type) where
  type : WireType
  isDefault : α → Bool
  /-- The payload, with its length if it has one. -/
  put : α → Bytes
  take : Payload → Option α
  toJson : α → Json
  ofJson? : Json → Option α

def twosComplement (i : Int) : Nat :=
  (i % 18446744073709551616).toNat

def withLength (b : Bytes) : Bytes :=
  Varint.encode b.length ++ b

def littleEndian (n : UInt32) : Bytes :=
  [UInt8.ofNat n.toNat, UInt8.ofNat (n.toNat / 256), UInt8.ofNat (n.toNat / 65536),
    UInt8.ofNat (n.toNat / 16777216)]

def ofLittleEndian : Bytes → Nat
  | [] => 0
  | b :: r => b.toNat + 256 * ofLittleEndian r

/-- A single-precision number, given by its bits. -/
structure Single where
  bits : UInt32 := 0
deriving Repr, DecidableEq, Inhabited

def Single.isZero (x : Single) : Bool :=
  x.bits == 0 || x.bits == 0x80000000

namespace Scalar

/-- Only the low 32 bits count. -/
def int32 : Scalar Int32 where
  type := .varint
  isDefault i := i == 0
  put i := Varint.encode (twosComplement i.toInt)
  take
    | .varint n => some (Int32.ofNat n)
    | _ => none
  toJson i := .int i.toInt
  ofJson? := Json.asInt32

def int64 : Scalar Int64 where
  type := .varint
  isDefault i := i == 0
  put i := Varint.encode (twosComplement i.toInt)
  take
    | .varint n => some (Int64.ofNat n)
    | _ => none
  toJson i := .int i.toInt
  ofJson? := Json.asInt64

def bool : Scalar Bool where
  type := .varint
  isDefault b := !b
  put b := Varint.encode b.toNat
  take
    | .varint n => some (n != 0)
    | _ => none
  toJson := .bool
  ofJson?
    | .bool b => some b
    | _ => none

def string : Scalar String where
  type := .delimited
  isDefault s := s.isEmpty
  put s := withLength s.toUTF8.toList
  take
    | .delimited b => String.fromUTF8? ⟨b.toArray⟩
    | _ => none
  toJson := .str
  ofJson? := Json.asString

/-- In a document the bits stand as a whole number. -/
def single : Scalar Single where
  type := .fixed32
  isDefault x := x.isZero
  put x := littleEndian x.bits
  take
    | .fixed32 b => some ⟨UInt32.ofNat (ofLittleEndian b)⟩
    | _ => none
  toJson x := .nat x.bits.toNat
  ofJson? v := (v.asInt 0 4294967295).map fun i => ⟨UInt32.ofNat i.toNat⟩

end Scalar

/-! ## Fields -/

structure Field (M : Type) where
  number : Nat
  name : String
  encode : M → Bytes
  /-- Takes a payload, inside which groups may be nested up to a depth. -/
  merge : Nat → Payload → M → Option M
  toJson : M → Json
  /-- Takes the value that a document gives. -/
  ofJson? : Json → M → Option M

class Message (M : Type) where
  empty : M
  fields : List (Field M)

namespace Message

variable {M : Type} [Message M]

def encode (m : M) : Bytes :=
  (fields (M := M)).flatMap fun f => f.encode m

def mergeRecord (depth : Nat) (m : M) (r : Record) : Option M :=
  match (fields (M := M)).find? fun f => f.number == r.number with
  | none => some m
  | some f => f.merge depth r.payload m

/-- Takes all records of an encoded message, on top of what is there. -/
def mergeBytes (depth : Nat) (b : Bytes) (m : M) : Option M := do
  (← decodeRecords depth b).foldlM (mergeRecord depth) m

def maxDepth : Nat := 100

def decode? (b : Bytes) : Option M :=
  mergeBytes maxDepth b empty

/-- The message as a document, every field included. -/
def toJson (m : M) : Json :=
  .record ((fields (M := M)).map fun f => (f.name, f.toJson m))

/-- Takes one field from a document, in which it may be missing or null. -/
def takeField (members : List (Option String × Json)) (m : M) (f : Field M) : Option M :=
  match members.find? fun member => member.1 == some f.name with
  | none => some m
  | some (_, .null) => some m
  | some (_, v) => f.ofJson? v m

def ofJson? : Json → Option M
  | .object members => (fields (M := M)).foldlM (takeField members) empty
  | _ => none

end Message

namespace Field

variable {M : Type}

/-- One plain value; the last payload counts. -/
def scalar {α : Type} (s : Scalar α) (number : Nat) (name : String) (get : M → α) (set : α → M → M) :
    Field M where
  number
  name
  encode m := if s.isDefault (get m) then [] else encodeKey number s.type ++ s.put (get m)
  merge _ p m := (s.take p).map fun v => set v m
  toJson m := s.toJson (get m)
  ofJson? v m := (s.ofJson? v).map fun a => set a m

/-- Plain values in order, each in its own record. -/
def scalars {α : Type} (s : Scalar α) (number : Nat) (name : String) (get : M → List α)
    (set : List α → M → M) : Field M where
  number
  name
  encode m := (get m).flatMap fun v => encodeKey number s.type ++ s.put v
  merge _ p m := (s.take p).map fun v => set (get m ++ [v]) m
  toJson m := .array ((get m).map s.toJson)
  ofJson? v m := (v.asList s.ofJson?).map fun vs => set vs m

/-- Reads a submessage on top of what is there. -/
def mergeSub {N : Type} [Message N] (depth : Nat) (p : Payload) (n : N) : Option N :=
  match p with
  | .delimited b => if depth = 0 then none else Message.mergeBytes (depth - 1) b n
  | _ => none

def message {N : Type} [Message N] (number : Nat) (name : String) (get : M → Option N)
    (set : Option N → M → M) : Field M where
  number
  name
  encode m := match get m with
    | none => []
    | some n => encodeKey number .delimited ++ withLength (Message.encode n)
  merge depth p m := (mergeSub depth p ((get m).getD Message.empty)).map fun n => set (some n) m
  toJson m := match get m with
    | none => .null
    | some n => Message.toJson n
  ofJson? v m := (Message.ofJson? v).map fun n => set (some n) m

/-- Submessages in order, each in its own record. -/
def messages {N : Type} [Message N] (number : Nat) (name : String) (get : M → List N)
    (set : List N → M → M) : Field M where
  number
  name
  encode m := (get m).flatMap fun n => encodeKey number .delimited ++ withLength (Message.encode n)
  merge depth p m := (mergeSub depth p Message.empty).map fun n => set (get m ++ [n]) m
  toJson m := .array ((get m).map Message.toJson)
  ofJson? v m := (v.asList Message.ofJson?).map fun ns => set ns m

end Field

end AgentMesh.Wire
