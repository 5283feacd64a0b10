/-!
# JSON documents

The tree that a JSON text stands for. A string is kept as the text that it stands for; one whose escapes
leave a surrogate unpaired is grammatical but stands for no text. A number keeps its decimal form, so
that an integer literal and a fraction of the same value stay apart.
-/

namespace AgentMesh

/-- A decimal literal: sign, whole part, digits of the fraction, and exponent if written. -/
structure Json.Number where
  negative : Bool := false
  whole : Nat := 0
  fraction : List Nat := []
  exponent : Option Int := none
deriving Repr, DecidableEq, Inhabited

/-- A document. `none` stands for a string that no text matches. -/
inductive Json
  | null
  | bool (b : Bool)
  | number (n : Json.Number)
  | string (text : Option String)
  | array (items : List Json)
  | object (members : List (Option String × Json))
deriving Repr, Inhabited

namespace Json

def str (s : String) : Json := .string (some s)

def int (i : Int) : Json := .number { negative := i < 0, whole := i.natAbs }

def nat (n : Nat) : Json := .number { whole := n }

/-- An object whose member names are all texts. -/
def record (members : List (String × Json)) : Json :=
  .object (members.map fun (k, v) => (some k, v))

/-- The value of an integer literal; minus zero is not one. -/
def Number.int? (n : Number) : Option Int :=
  if n.fraction = [] ∧ n.exponent = none ∧ ¬(n.negative ∧ n.whole = 0) then
    some (if n.negative then -(n.whole : Int) else n.whole)
  else
    none

/-! ## What a buffered document must satisfy -/

mutual

/-- How many arrays and objects lie around the innermost value, at most. -/
def depth : Json → Nat
  | .array items => depthItems items + 1
  | .object members => depthMembers members + 1
  | _ => 0

def depthItems : List Json → Nat
  | [] => 0
  | v :: r => max (depth v) (depthItems r)

def depthMembers : List (Option String × Json) → Nat
  | [] => 0
  | (_, v) :: r => max (depth v) (depthMembers r)

end

mutual

/-- Every string and member name stands for a text, and every number satisfies `p`. -/
def wellFormed (p : Number → Bool) : Json → Bool
  | .null => true
  | .bool _ => true
  | .number n => p n
  | .string t => t.isSome
  | .array items => wellFormedItems p items
  | .object members => wellFormedMembers p members

def wellFormedItems (p : Number → Bool) : List Json → Bool
  | [] => true
  | v :: r => wellFormed p v && wellFormedItems p r

def wellFormedMembers (p : Number → Bool) : List (Option String × Json) → Bool
  | [] => true
  | (k, v) :: r => k.isSome && wellFormed p v && wellFormedMembers p r

end

mutual

/-- The document with every empty object replaced by null. -/
def emptyAsNull : Json → Json
  | .array items => .array (emptyAsNullItems items)
  | .object [] => .null
  | .object (m :: ms) => .object (emptyAsNullMembers (m :: ms))
  | v => v

def emptyAsNullItems : List Json → List Json
  | [] => []
  | v :: r => emptyAsNull v :: emptyAsNullItems r

def emptyAsNullMembers : List (Option String × Json) → List (Option String × Json)
  | [] => []
  | (k, v) :: r => (k, emptyAsNull v) :: emptyAsNullMembers r

end

end Json

end AgentMesh
