import AgentMesh.Decimal.Double

/-!
# Fixed-point text

A value is rounded to a given number of decimal places, a tie to the even neighbour. A negative value has a sign, and
so has a negative zero. What is not finite is named.
-/

namespace AgentMesh.Decimal

/-- A number of `places + 1` or more digits with a point before the last `places`. -/
def pointed (places n : Nat) : String :=
  let digits := Nat.toDigits 10 n
  let padded := List.replicate (places + 1 - digits.length) '0' ++ digits
  let whole := padded.take (padded.length - places)
  let fraction := padded.drop (padded.length - places)
  String.ofList (whole ++ '.' :: fraction)

def magnitude (places : Nat) (x : Float) : String :=
  if x.isInf then "inf"
  else
    let b := Binary.ofDouble x
    pointed places (roundDiv (b.num * tenTo places) b.den)

def fixed (places : Nat) (x : Float) : String :=
  if x.isNaN then "NaN" else if isNegative x then "-" ++ magnitude places x else magnitude places x

end AgentMesh.Decimal
