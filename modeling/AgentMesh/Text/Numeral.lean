/-!
# Decimal numerals

A numeral is read with a bound on its value. Three grammars occur: bare digits, digits after an optional
plus sign, and digits after an optional sign of either kind. Leading zeros are allowed everywhere.
-/

namespace AgentMesh.Text

def digit? (c : Char) : Option Nat :=
  if '0' ≤ c ∧ c ≤ '9' then some (c.toNat - '0'.toNat) else none

def hexDigit? (c : Char) : Option Nat :=
  if '0' ≤ c ∧ c ≤ '9' then some (c.toNat - '0'.toNat)
  else if 'a' ≤ c ∧ c ≤ 'f' then some (c.toNat - 'a'.toNat + 10)
  else if 'A' ≤ c ∧ c ≤ 'F' then some (c.toNat - 'A'.toNat + 10)
  else none

/-- The value of a run of digits in a base, read from the left onto `acc`. -/
def readDigits (digit : Char → Option Nat) (base : Nat) : Nat → List Char → Option Nat
  | acc, [] => some acc
  | acc, c :: r => do
      let d ← digit c
      readDigits digit base (acc * base + d) r

/-- A non-empty run of decimal digits. -/
def readNat? (s : List Char) : Option Nat :=
  if s.isEmpty then none else readDigits digit? 10 0 s

/-- Digits after an optional plus sign. -/
def readUnsigned? : List Char → Option Nat
  | '+' :: r => readNat? r
  | s => readNat? s

/-- Digits after an optional sign. -/
def readSigned? : List Char → Option Int
  | '-' :: r => (readNat? r).map fun n => -(n : Int)
  | s => (readUnsigned? s).map fun n => (n : Int)

/-- A port number as typed by a user: digits after an optional plus sign, at most 65535. -/
def readPort? (s : List Char) : Option UInt16 := do
  let n ← readUnsigned? s
  if n < 65536 then some (UInt16.ofNat n) else none

end AgentMesh.Text
