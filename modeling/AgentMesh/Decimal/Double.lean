/-!
# Doubles as exact fractions

A finite double is `significand * 2 ^ exponent` but for its sign. Decimal texts are computed from this form in exact
arithmetic.
-/

namespace AgentMesh.Decimal

/-- A value `significand * 2 ^ exponent`. -/
structure Binary where
  significand : Nat
  exponent : Int
deriving Repr, DecidableEq, Inhabited

namespace Binary

def ofDouble (x : Float) : Binary :=
  let bits : Nat := x.toBits.toNat
  let field : Nat := bits / 4503599627370496 % 2048
  let fraction : Nat := bits % 4503599627370496
  if field = 0 then ⟨fraction, -1074⟩ else ⟨fraction + 4503599627370496, (field : Int) - 1075⟩

/-- The value as a fraction of two natural numbers. -/
def num (b : Binary) : Nat := b.significand <<< b.exponent.toNat

def den (b : Binary) : Nat := 1 <<< (-b.exponent).toNat

end Binary

/-- Whether the sign bit is set. -/
def isNegative (x : Float) : Bool :=
  9223372036854775808 ≤ x.toBits.toNat

def tenTo (n : Nat) : Nat := Nat.pow 10 n

/-- The quotient rounded to the nearest number, a tie to the even one. -/
def roundDiv (num den : Nat) : Nat :=
  let q := num / den
  let r := num % den
  if r * 2 < den ∨ (r * 2 = den ∧ q % 2 = 0) then q else q + 1

end AgentMesh.Decimal
