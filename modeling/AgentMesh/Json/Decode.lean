import AgentMesh.Json.Value

/-!
# Typed readings of documents

How a document stands for a value of a type: integers within their range, texts, lists, marks without a
payload, and records. A record is written as an object, whose unknown members do not count, or as the
list of its fields in order.
-/

namespace AgentMesh.Json

def asString : Json → Option String
  | .string t => t
  | _ => none

def asInt (low high : Int) : Json → Option Int
  | .number n => do
      let i ← n.int?
      if low ≤ i ∧ i ≤ high then some i else none
  | _ => none

def asInt32 (v : Json) : Option Int32 :=
  (asInt (-2147483648) 2147483647 v).map Int32.ofInt

def asInt64 (v : Json) : Option Int64 :=
  (asInt (-9223372036854775808) 9223372036854775807 v).map Int64.ofInt

def asUInt16 (v : Json) : Option UInt16 :=
  (asInt 0 65535 v).map fun i => UInt16.ofNat i.toNat

def asCount (v : Json) : Option Nat :=
  (asInt 0 18446744073709551615 v).map Int.toNat

def asList {α : Type} (item : Json → Option α) : Json → Option (List α)
  | .array items => items.mapM item
  | _ => none

def asOption {α : Type} (item : Json → Option α) : Json → Option (Option α)
  | .null => some none
  | v => (item v).map some

/-- A mark is its name, or an object with the name as its only member and null as the value. -/
def asMark : Json → Option String
  | .string t => t
  | .object [(k, .null)] => k
  | _ => none

/-- The value of the member `name`, if any; more than one is refused. -/
def member? (members : List (Option String × Json)) (name : String) : Option (Option Json) :=
  match members.filter fun m => m.1 == some name with
  | [] => some none
  | [(_, v)] => some (some v)
  | _ => none

/-- The fields that are given, in the order of their names. A list may end early. -/
def givenFields (names : List String) : Json → Option (List (Option Json))
  | .array items =>
      if items.length ≤ names.length then
        some (items.map some ++ List.replicate (names.length - items.length) none)
      else none
  | .object members =>
      if members.all fun m => m.1.isSome then names.mapM (member? members) else none
  | _ => none

/-- All the fields, in the order of their names. -/
def fields (names : List String) (v : Json) : Option (List Json) := do
  (← givenFields names v).mapM id

def orElse {α : Type} (default : α) (item : Json → Option α) : Option Json → Option α
  | none => some default
  | some v => item v

end AgentMesh.Json
