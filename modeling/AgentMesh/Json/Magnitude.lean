import AgentMesh.Json.Double

/-!
# Numbers too large for a double

A number that no field asks for is converted to a double all the same. The double is the product of two
others: the digits that fit into 64 bits, and a power of ten. Where this product is infinite the number cannot
be taken up, also if a double is near to what is written.
-/

namespace AgentMesh.Json

/-- The nearest number with a significand of 53 bits, ties to the even one. -/
def roundToDouble (n : Nat) : Nat :=
  let e := n.log2 + 1 - 53
  let unit := 1 <<< e
  let q := n / unit
  let r := n % unit
  if r * 2 < unit ∨ (r * 2 = unit ∧ q % 2 = 0) then q * unit else (q + 1) * unit

/-- The least number that rounds to infinity. -/
def doubleLimit : Nat := (1 <<< 1024) - (1 <<< 970)

structure Scaled where
  significand : Nat
  scale : Int

/-- Whether a further digit still fits into 64 bits. -/
def fits (significand digit : Nat) : Bool :=
  significand * 10 + digit < 18446744073709551616

/-- Takes up digits of the whole part while they fit; each further one only scales. -/
def takeWhole : Nat → List Nat → Scaled
  | n, [] => ⟨n, 0⟩
  | n, d :: r => if fits n d then takeWhole (n * 10 + d) r else ⟨n, r.length + 1⟩

/-- Takes up digits of the fraction while they fit, and drops the others. -/
def takeFraction : Scaled → List Nat → Scaled
  | v, [] => v
  | v, d :: r =>
      if fits v.significand d then takeFraction ⟨v.significand * 10 + d, v.scale - 1⟩ r else v

/-- Whether the conversion to a double fails, for a scale out of range or an infinite product. -/
def Number.overflows (n : Number) : Bool :=
  let v := takeFraction (takeWhole 0 (digitsOf n.whole)) n.fraction
  let e := n.exponent.getD 0
  if v.significand = 0 then false
  else if 2147483647 < e then true
  else if e < -2147483647 then false
  else
    let scale := v.scale + e
    if scale < 0 then false
    else if 308 < scale then true
    else doubleLimit ≤ roundToDouble v.significand * roundToDouble (Decimal.tenTo scale.toNat)

end AgentMesh.Json
