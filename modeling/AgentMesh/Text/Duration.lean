/-!
# Durations as text

A duration is written in whole milliseconds below a second, and otherwise in seconds with as many places as
it needs. No time at all is written in nanoseconds.
-/

namespace AgentMesh.Text

/-- The digits of a fraction of a second, without trailing zeros. -/
def secondFraction (ms : Nat) : List Char :=
  let digits := [ms / 100 % 10, ms / 10 % 10, ms % 10]
  let kept := (digits.reverse.dropWhile (· == 0)).reverse
  if kept.isEmpty then [] else '.' :: kept.flatMap (Nat.toDigits 10)

def duration (ms : Nat) : String :=
  if ms = 0 then "0ns"
  else if ms < 1000 then toString ms ++ "ms"
  else toString (ms / 1000) ++ String.ofList (secondFraction (ms % 1000)) ++ "s"

end AgentMesh.Text
