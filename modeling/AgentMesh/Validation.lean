/-!
# Names and ports

A node is named by a non-empty text without control characters. A service port lies between 1 and 65535,
and the two ports of one node differ.
-/

namespace AgentMesh

inductive ValidationError
  | emptyNodeId
  | controlCharacter
  | portOutOfRange (label : String) (port : Nat)
  | samePorts (port : UInt16)
  | negativeLayers (max used : Int32)
  | overCapacity (used max : Int32)
  | negativeMaxLayers (max : Int32)
  | stated (reason : String)
deriving Repr, DecidableEq, Inhabited

/-- What is wrong, without the words that say it is a validation error. -/
def ValidationError.reason : ValidationError → String
  | emptyNodeId => "node ID cannot be empty"
  | controlCharacter => "node ID cannot contain newlines, tabs, or other control characters"
  | portOutOfRange label port => "invalid " ++ label ++ " port: " ++ toString port
  | samePorts port => "bind port and gossip port cannot be the same: " ++ toString port.toNat
  | negativeLayers max used =>
      "layer counts must be non-negative (max=" ++ toString max.toInt ++ ", used=" ++
        toString used.toInt ++ ")"
  | overCapacity used max =>
      "used layers " ++ toString used.toInt ++ " exceed capacity " ++ toString max.toInt
  | negativeMaxLayers max => "max_layers must be non-negative, got " ++ toString max.toInt
  | stated reason => reason

def ValidationError.message (e : ValidationError) : String :=
  "validation error: " ++ e.reason

/-! ## Names -/

/-- A character of the general category `Cc`. -/
def isControl (c : Char) : Bool :=
  c.toNat < 0x20 || (0x7F ≤ c.toNat && c.toNat < 0xA0)

/-- A name under which a node may appear. -/
structure ValidNodeId (id : String) : Prop where
  nonempty : id.toList ≠ []
  noControl : ∀ c ∈ id.toList, isControl c = false

def validateNodeId (id : String) : Except ValidationError Unit :=
  if id.toList.isEmpty then .error .emptyNodeId
  else if id.toList.any isControl then .error .controlCharacter
  else .ok ()

theorem validateNodeId_eq_ok_iff {id : String} : validateNodeId id = .ok () ↔ ValidNodeId id := by
  unfold validateNodeId
  constructor
  · intro h
    split at h
    · cases h
    · split at h
      · cases h
      · exact ⟨by simp_all, by simp_all⟩
  · rintro ⟨h, hc⟩
    rw [if_neg (by simpa using h), if_neg (by simpa using hc)]

/-! ## Ports -/

def validatePort (label : String) (port : Nat) : Except ValidationError UInt16 :=
  if port = 0 ∨ 65535 < port then .error (.portOutOfRange label port) else .ok (UInt16.ofNat port)

def validatePortPair (bind gossip : Nat) : Except ValidationError (UInt16 × UInt16) := do
  let b ← validatePort "bind" bind
  let g ← validatePort "gossip" gossip
  if b = g then .error (.samePorts b) else .ok (b, g)

end AgentMesh
