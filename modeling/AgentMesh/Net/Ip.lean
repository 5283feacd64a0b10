import AgentMesh.Text.Numeral

/-!
# Internet addresses

Addresses of both families, their canonical text, and readers of their text. The canonical text of the
longer family writes the first longest run of at least two zero groups as `::`, and ends a mapped
address in the dotted form.
-/

namespace AgentMesh.Net

structure Ipv4 where
  a : UInt8
  b : UInt8
  c : UInt8
  d : UInt8
deriving Repr, DecidableEq, Inhabited

structure Ipv6 where
  groups : Vector UInt16 8
deriving Repr, DecidableEq

instance : Inhabited Ipv6 := ⟨⟨Vector.replicate 8 0⟩⟩

inductive Ip
  | v4 (ip : Ipv4)
  | v6 (ip : Ipv6)
deriving Repr, DecidableEq, Inhabited

/-- A reader takes a text from the front and returns the value with the rest. -/
abbrev Reader (α : Type) := List Char → Option (α × List Char)

/-! ## Numbers in addresses -/

/-- At most `limit` digits from the front, and the rest. -/
def takeDigits (digit : Char → Option Nat) : Nat → List Char → List Nat × List Char
  | 0, s => ([], s)
  | _ + 1, [] => ([], [])
  | limit + 1, c :: r =>
      match digit c with
      | none => ([], c :: r)
      | some d =>
          let (ds, rest) := takeDigits digit limit r
          (d :: ds, rest)

/-- The value of a list of digits, most significant first. -/
def ofDigits (base : Nat) (ds : List Nat) : Nat :=
  ds.foldl (fun n d => n * base + d) 0

/--
A number below `bound` of one to `limit` digits which no further digit follows. Unless `padded`, the first
of several digits is not zero.
-/
def readNumber (digit : Char → Option Nat) (base limit bound : Nat) (padded : Bool) : Reader Nat :=
  fun s =>
    let (ds, rest) := takeDigits digit limit s
    let n := ofDigits base ds
    let more := match rest with
      | [] => false
      | c :: _ => (digit c).isSome
    if ds.isEmpty || more || bound ≤ n || (!padded && ds.head? == some 0 && ds.length != 1) then none
    else some (n, rest)

def readChar (c : Char) (s : List Char) : Option (List Char) :=
  match s with
  | [] => none
  | x :: r => if x = c then some r else none

/-! ## Text of the shorter family -/

def readOctet : Reader Nat :=
  readNumber Text.digit? 10 3 256 false

namespace Ipv4

def read : Reader Ipv4 := fun s => do
  let (a, s) ← readOctet s
  let (b, s) ← readOctet (← readChar '.' s)
  let (c, s) ← readOctet (← readChar '.' s)
  let (d, s) ← readOctet (← readChar '.' s)
  return (⟨UInt8.ofNat a, UInt8.ofNat b, UInt8.ofNat c, UInt8.ofNat d⟩, s)

def text (ip : Ipv4) : String :=
  toString ip.a.toNat ++ "." ++ toString ip.b.toNat ++ "." ++ toString ip.c.toNat ++ "." ++
    toString ip.d.toNat

/-- The two groups that stand for this address at the end of a longer one. -/
def groups (ip : Ipv4) : List UInt16 :=
  [UInt16.ofNat (ip.a.toNat * 256 + ip.b.toNat), UInt16.ofNat (ip.c.toNat * 256 + ip.d.toNat)]

/-- The address in the last two groups of a longer one. -/
def ofGroups (hi lo : UInt16) : Ipv4 :=
  ⟨UInt8.ofNat (hi.toNat / 256), UInt8.ofNat (hi.toNat % 256), UInt8.ofNat (lo.toNat / 256),
    UInt8.ofNat (lo.toNat % 256)⟩

end Ipv4

/-! ## Text of the longer family -/

namespace Ipv6

/--
Up to `room` groups with colons between them; `first` says that no colon precedes the next one. A dotted
address stands for two groups and ends the list. The flag says whether it did.
-/
def readGroups (first : Bool) : Nat → List Char → List UInt16 × Bool × List Char
  | 0, s => ([], false, s)
  | room + 1, s =>
      match (if first then some s else readChar ':' s) with
      | none => ([], false, s)
      | some r =>
          match (if 0 < room then Ipv4.read r else none) with
          | some (ip, rest) => (ip.groups, true, rest)
          | none =>
              match readNumber Text.hexDigit? 16 4 65536 true r with
              | none => ([], false, s)
              | some (g, rest) =>
                  let (gs, dotted, rest) := readGroups false room rest
                  (UInt16.ofNat g :: gs, dotted, rest)

def ofList? (gs : List UInt16) : Option Ipv6 :=
  if h : gs.length = 8 then some ⟨⟨gs.toArray, by simpa using h⟩⟩ else none

/-- Eight groups, or fewer around one `::` that stands for at least one zero group. -/
def read : Reader Ipv6 := fun s => do
  let (head, dotted, rest) := readGroups true 8 s
  if head.length = 8 then
    return (← ofList? head, rest)
  else if dotted then
    none
  else
    let rest ← readChar ':' (← readChar ':' rest)
    let (tail, _, rest) := readGroups true (7 - head.length) rest
    let zeros := List.replicate (8 - head.length - tail.length) 0
    return (← ofList? (head ++ zeros ++ tail), rest)

/-- Where a run of zero groups starts and how long it is. -/
structure Run where
  start : Nat := 0
  length : Nat := 0
deriving Repr, DecidableEq, Inhabited

/-- What is known after some groups: the longest run so far, the run that they end in, and their number. -/
structure ZeroScan where
  best : Run := {}
  current : Run := {}
  seen : Nat := 0
deriving Repr, DecidableEq, Inhabited

def ZeroScan.step (s : ZeroScan) (g : UInt16) : ZeroScan :=
  if g = 0 then
    let current : Run := ⟨if s.current.length = 0 then s.seen else s.current.start, s.current.length + 1⟩
    ⟨if s.best.length < current.length then current else s.best, current, s.seen + 1⟩
  else
    ⟨s.best, {}, s.seen + 1⟩

def longestZeros (gs : List UInt16) : Run :=
  (gs.foldl ZeroScan.step {}).best

/-- Groups in lower-case hexadecimal without leading zeros, colons between them. -/
def joinGroups (gs : List UInt16) : String :=
  String.intercalate ":" (gs.map fun g => String.ofList (Nat.toDigits 16 g.toNat))

/-- The shorter address that this one maps, if any. -/
def mapped? (ip : Ipv6) : Option Ipv4 :=
  match ip.groups.toList with
  | [0, 0, 0, 0, 0, 0xFFFF, hi, lo] => some (Ipv4.ofGroups hi lo)
  | _ => none

def text (ip : Ipv6) : String :=
  match ip.mapped? with
  | some v4 => "::ffff:" ++ v4.text
  | none =>
      let gs := ip.groups.toList
      let run := longestZeros gs
      if 1 < run.length then
        joinGroups (gs.take run.start) ++ "::" ++ joinGroups (gs.drop (run.start + run.length))
      else
        joinGroups gs

end Ipv6

def Ip.text : Ip → String
  | v4 ip => ip.text
  | v6 ip => ip.text

end AgentMesh.Net
