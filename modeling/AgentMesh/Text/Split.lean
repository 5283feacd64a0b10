/-!
# Cutting a text in two
-/

namespace AgentMesh.Text

/-- The parts before and after the last occurrence of a character. -/
def splitLast (c : Char) : List Char → Option (List Char × List Char)
  | [] => none
  | x :: r =>
      match splitLast c r with
      | some (before, after) => some (x :: before, after)
      | none => if x = c then some ([], r) else none

end AgentMesh.Text
