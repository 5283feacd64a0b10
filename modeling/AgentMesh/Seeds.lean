import AgentMesh.Text.Blank

/-!
# Seed lists

Seeds are written as one text with commas between them. White space around an entry and entries that hold
nothing else do not count.
-/

namespace AgentMesh.Seeds

/-- The parts of a text between commas; always one more than there are commas. -/
def splitCommas : List Char → List (List Char)
  | [] => [[]]
  | ',' :: r => [] :: splitCommas r
  | c :: r =>
      match splitCommas r with
      | [] => [[c]]
      | part :: parts => (c :: part) :: parts

def entries (s : List Char) : List (List Char) :=
  ((splitCommas s).map Text.trim).filter (!·.isEmpty)

def parse (s : String) : List String :=
  (entries s.toList).map String.ofList

end AgentMesh.Seeds
