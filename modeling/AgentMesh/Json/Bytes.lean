import AgentMesh.Json.Reader

/-!
# Documents in bytes

A string that no field asks for may hold any bytes. The document is read twice, with a byte that belongs to no
character taken for one character and then for another: a string that the two readings do not share stands for
no text.
-/

namespace AgentMesh.Json

/-! ## Characters -/

/-- The characters from a position on, with the filler for each byte that belongs to none. -/
def charsFrom (filler : Char) (bytes : ByteArray) (i : Nat) : List Char :=
  if i < bytes.size then
    match bytes.utf8DecodeChar? i with
    | some c => c :: charsFrom filler bytes (i + c.utf8Size)
    | none => filler :: charsFrom filler bytes (i + 1)
  else []
termination_by bytes.size - i
decreasing_by
  · have := c.utf8Size_pos
    omega
  · omega

/-! ## What two readings share -/

/-- The text that two readings agree on. -/
def sharedText (s t : Option String) : Option String :=
  if s = t then s else none

mutual

/-- A document as two readings of it agree on it. -/
def shared : Json → Json → Json
  | .string s, .string t => .string (sharedText s t)
  | .array xs, .array ys => .array (sharedItems xs ys)
  | .object ms, .object ns => .object (sharedMembers ms ns)
  | v, _ => v

def sharedItems : List Json → List Json → List Json
  | v :: xs, w :: ys => shared v w :: sharedItems xs ys
  | _, _ => []

def sharedMembers :
    List (Option String × Json) → List (Option String × Json) → List (Option String × Json)
  | (k, v) :: ms, (l, w) :: ns => (sharedText k l, shared v w) :: sharedMembers ms ns
  | _, _ => []

end

def ofBytes? (bytes : ByteArray) : Option Json := do
  let v ← parse (charsFrom '\ufffd' bytes 0)
  let w ← parse (charsFrom '\ufffc' bytes 0)
  return shared v w

end AgentMesh.Json
