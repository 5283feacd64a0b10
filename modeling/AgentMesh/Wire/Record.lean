import AgentMesh.Wire.Varint

/-!
# Wire records

An encoded message is a sequence of records. Each has a key, which holds the number of a field and the form
of the payload, and a payload of that form. A group is a sequence of records between two keys of one number;
groups may be nested up to a bound, and nothing of them is kept.
-/

namespace AgentMesh.Wire

inductive WireType
  | varint
  | fixed64
  | delimited
  | groupStart
  | groupEnd
  | fixed32
deriving Repr, DecidableEq, Inhabited

namespace WireType

def code : WireType → Nat
  | varint => 0
  | fixed64 => 1
  | delimited => 2
  | groupStart => 3
  | groupEnd => 4
  | fixed32 => 5

def ofCode? : Nat → Option WireType
  | 0 => some varint
  | 1 => some fixed64
  | 2 => some delimited
  | 3 => some groupStart
  | 4 => some groupEnd
  | 5 => some fixed32
  | _ => none

end WireType

inductive Payload
  | varint (n : Nat)
  | fixed64 (bytes : Bytes)
  | delimited (bytes : Bytes)
  | group
  | fixed32 (bytes : Bytes)
deriving Repr, DecidableEq, Inhabited

structure Record where
  number : Nat
  payload : Payload
deriving Repr, DecidableEq, Inhabited

/-! ## Keys and payloads -/

def encodeKey (number : Nat) (type : WireType) : Bytes :=
  Varint.encode (number * 8 + type.code)

/-- A key of at most 32 bits with a field number other than zero. -/
def decodeKey (b : Bytes) : Option (Nat × WireType × Bytes) := do
  let (key, rest) ← Varint.decode b
  let type ← WireType.ofCode? (key % 8)
  if key < 4294967296 ∧ key / 8 ≠ 0 then some (key / 8, type, rest) else none

/-- The first `n` bytes and the rest, if there are so many. -/
def splitBytes (n : Nat) (b : Bytes) : Option (Bytes × Bytes) :=
  if n ≤ b.length then some (b.take n, b.drop n) else none

/-- The payload of a record that is no group. -/
def decodePayload (type : WireType) (b : Bytes) : Option (Payload × Bytes) :=
  match type with
  | .varint => (Varint.decode b).map fun (n, rest) => (.varint n, rest)
  | .fixed64 => (splitBytes 8 b).map fun (v, rest) => (.fixed64 v, rest)
  | .fixed32 => (splitBytes 4 b).map fun (v, rest) => (.fixed32 v, rest)
  | .delimited => do
      let (n, rest) ← Varint.decode b
      let (v, rest) ← splitBytes n rest
      return (.delimited v, rest)
  | .groupStart => none
  | .groupEnd => none

/--
Skips to the end of the outermost open group. Nothing may stand inside `depth` open groups. Each record takes
one unit of fuel.
-/
def skipGroups : Nat → Nat → List Nat → Bytes → Option Bytes
  | _, _, [], b => some b
  | 0, _, _ :: _, _ => none
  | fuel + 1, depth, number :: outer, b => do
      let (k, type, rest) ← decodeKey b
      match type with
      | .groupEnd => if k = number then skipGroups fuel depth outer rest else none
      | .groupStart =>
          if depth ≤ outer.length + 1 then none else skipGroups fuel depth (k :: number :: outer) rest
      | type =>
          if depth ≤ outer.length + 1 then none
          else do
            let (_, rest) ← decodePayload type rest
            skipGroups fuel depth (number :: outer) rest

/-! ## Records -/

/-- All records of a message. Each takes one unit of fuel. -/
def readRecords : Nat → Nat → Bytes → Option (List Record)
  | _, _, [] => some []
  | 0, _, _ :: _ => none
  | fuel + 1, depth, b@(_ :: _) => do
      let (number, type, rest) ← decodeKey b
      match type with
      | .groupEnd => none
      | .groupStart =>
          if depth = 0 then none
          else do
            let rest ← skipGroups rest.length depth [number] rest
            return ⟨number, .group⟩ :: (← readRecords fuel depth rest)
      | type => do
          let (payload, rest) ← decodePayload type rest
          return ⟨number, payload⟩ :: (← readRecords fuel depth rest)

def decodeRecords (depth : Nat) (b : Bytes) : Option (List Record) :=
  readRecords b.length depth b

end AgentMesh.Wire
