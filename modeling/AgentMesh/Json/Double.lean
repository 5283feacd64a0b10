import AgentMesh.Decimal.Shortest
import AgentMesh.Json.Value

/-!
# Doubles in documents

A double is written with the fewest digits that read back as it. Magnitudes from 10^-5 up to 10^16 are
written with a point and at least one digit on both sides of it. Beyond, one digit stands before the point,
which is left out if no digit follows it, and then comes an exponent. What is not finite is written as null.
-/

namespace AgentMesh.Json

/-- The decimal digits of a number, most significant first. -/
def digitsOf (n : Nat) : List Nat :=
  (Nat.toDigits 10 n).map fun c => c.toNat - '0'.toNat

/-- The literal of a decimal whose digits do not end in zero. -/
def Number.ofScientific (negative : Bool) (s : Decimal.Scientific) : Number :=
  let ds := digitsOf s.digits
  let point : Int := ds.length + s.exponent
  if 0 ≤ s.exponent ∧ point ≤ 16 then
    { negative, whole := s.digits * Decimal.tenTo s.exponent.toNat, fraction := [0] }
  else if -5 < point ∧ point ≤ 16 then
    let places := (-s.exponent).toNat
    { negative, whole := s.digits / Decimal.tenTo places,
      fraction := (List.replicate (places - ds.length) 0 ++ ds).drop ((List.length ds) - places) }
  else
    { negative, whole := ds.headD 0, fraction := ds.drop 1, exponent := some (point - 1) }

def ofDouble (x : Float) : Json :=
  let negative := Decimal.isNegative x
  if !x.isFinite then .null
  else if x.toBits.toNat % 9223372036854775808 = 0 then .number { negative, whole := 0, fraction := [0] }
  else .number (.ofScientific negative (Decimal.shortest x).normal)

end AgentMesh.Json
