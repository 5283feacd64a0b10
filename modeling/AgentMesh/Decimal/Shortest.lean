import AgentMesh.Decimal.Double

/-!
# Shortest decimals

The shortest decimal of a double is the one with the fewest digits that is read back as the same double,
and among those the nearest. A decimal is read back as the double in whose rounding interval it lies.
-/

namespace AgentMesh.Decimal

/-- A value `digits * 10 ^ exponent`. -/
structure Scientific where
  digits : Nat
  exponent : Int
deriving Repr, DecidableEq, Inhabited

namespace Binary

/-- The smallest significand of a normal double, whose lower neighbour is only half as far away. -/
def isBoundary (b : Binary) : Bool :=
  b.significand == 4503599627370496 && b.exponent != -1074

/--
Whether the double nearest to `n / d` is this one. In quarters of the last binary place, the interval
reaches two quarters up, and two quarters down or one at a boundary; it holds its ends if the significand
is even.
-/
def rounds (b : Binary) (n d : Nat) : Bool :=
  let value := n * 4 * b.den
  let unit := d <<< b.exponent.toNat
  let low := unit * (b.significand * 4 - if b.isBoundary then 1 else 2)
  let high := unit * (b.significand * 4 + 2)
  if b.significand % 2 = 0 then low ≤ value && value ≤ high else low < value && value < high

/-- The decimal with this exponent that is nearest to the value, and is read back as it. -/
def nearestOn? (b : Binary) (exponent : Int) : Option Nat :=
  let scaleUp := tenTo (-exponent).toNat
  let scaleDown := tenTo exponent.toNat
  let num := b.num * scaleUp
  let den := b.den * scaleDown
  let low := num / den
  let hits := [low, low + 1].filter fun n => b.rounds (n * scaleDown) scaleUp
  match hits with
  | [n] => some n
  | _ :: _ => some (roundDiv num den)
  | [] => none

/-- The first grid, from coarse to fine, that holds a decimal which is read back as the value. -/
def search (b : Binary) : Nat → Int → Scientific
  | 0, e => ⟨roundDiv (b.num * tenTo (-e).toNat) (b.den * tenTo e.toNat), e⟩
  | fuel + 1, e =>
      match b.nearestOn? e with
      | some n => if n = 0 then search b fuel (e - 1) else ⟨n, e⟩
      | none => search b fuel (e - 1)

end Binary

/-- How many decimal digits the whole part of `num / den` has. -/
def wholeDigits (num den : Nat) : Nat :=
  if num / den = 0 then 0 else (Nat.toDigits 10 (num / den)).length

/-- The shortest decimal of a positive finite double. -/
def shortest (x : Float) : Scientific :=
  let b := Binary.ofDouble x
  b.search 400 (wholeDigits b.num b.den)

def Scientific.normal (s : Scientific) : Scientific :=
  if h : s.digits ≠ 0 ∧ s.digits % 10 = 0 then Scientific.normal ⟨s.digits / 10, s.exponent + 1⟩ else s
termination_by s.digits
decreasing_by omega

end AgentMesh.Decimal
