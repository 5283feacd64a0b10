import AgentMesh.Json.Magnitude
import AgentMesh.Text.Numeral

/-!
# Numbers and dates in TOML

Integers of 64 bits in four bases, fractions, and dates and times of day. Underscores may stand between
digits.
-/

namespace AgentMesh.Toml

/-! ## Digits -/

/-- The digits at the front, with single underscores between them. -/
def readDigits (digit : Char → Option Nat) : List Char → List Nat × List Char
  | [] => ([], [])
  | ['_'] => ([], ['_'])
  | '_' :: c :: r =>
      match digit c with
      | none => ([], '_' :: c :: r)
      | some d =>
          let (ds, rest) := readDigits digit r
          (d :: ds, rest)
  | c :: r =>
      match digit c with
      | none => ([], c :: r)
      | some d =>
          let (ds, rest) := readDigits digit r
          (d :: ds, rest)

/-- At least one digit, of which the first has no underscore before it. -/
def readRun (digit : Char → Option Nat) (s : List Char) : Option (List Nat × List Char) :=
  match s with
  | [] => none
  | c :: _ => if (digit c).isSome then some (readDigits digit s) else none

def ofDigits (base : Nat) (ds : List Nat) : Nat :=
  ds.foldl (fun n d => n * base + d) 0

def readSign : List Char → Bool × List Char
  | '-' :: r => (true, r)
  | '+' :: r => (false, r)
  | s => (false, s)

/-- A decimal integer without its sign and without leading zeros. -/
def readDecimal (s : List Char) : Option (List Nat × List Char) :=
  match s with
  | '0' :: r => some ([0], r)
  | s => readRun Text.digit? s

/-! ## Integers -/

def inRange (i : Int) : Bool :=
  -9223372036854775808 ≤ i && i ≤ 9223372036854775807

def octalDigit? (c : Char) : Option Nat :=
  (Text.digit? c).filter (· < 8)

def binaryDigit? (c : Char) : Option Nat :=
  (Text.digit? c).filter (· < 2)

def readBased (base : Nat) (digit : Char → Option Nat) (s : List Char) : Option (Int × List Char) := do
  let (ds, rest) ← readRun digit s
  return (ofDigits base ds, rest)

def readInteger (s : List Char) : Option (Int × List Char) := do
  let (i, rest) ← match s with
    | '0' :: 'x' :: r => readBased 16 Text.hexDigit? r
    | '0' :: 'o' :: r => readBased 8 octalDigit? r
    | '0' :: 'b' :: r => readBased 2 binaryDigit? r
    | s => do
        let (negative, r) := readSign s
        let (ds, rest) ← readDecimal r
        let n : Int := ofDigits 10 ds
        some (if negative then -n else n, rest)
  if inRange i then some (i, rest) else none

/-! ## Fractions -/

/-- Whether digits with a power of ten stand for a number beyond the greatest double. -/
def tooLarge (digits : List Nat) (scale : Int) : Bool :=
  let n := ofDigits 10 digits
  let size := (Json.digitsOf n).length + scale
  if n = 0 then false
  else if 310 < size then true
  else if size < 300 then false
  else if 0 ≤ scale then Json.doubleLimit ≤ n * Decimal.tenTo scale.toNat
  else Json.doubleLimit * Decimal.tenTo (-scale).toNat ≤ n

def readExponent (s : List Char) : Option (Int × List Char) :=
  match s with
  | [] => none
  | c :: r =>
      if c = 'e' ∨ c = 'E' then do
        let (negative, r) := readSign r
        let (ds, rest) ← readRun Text.digit? r
        let n : Int := ofDigits 10 ds
        some (if negative then -n else n, rest)
      else none

/-- A number with a fraction, an exponent or both, which must not be too large. -/
def readPointed (s : List Char) : Option (List Char) := do
  let (negative, r) := readSign s
  let (whole, r) ← readDecimal r
  let (fraction, r) ← match r with
    | '.' :: r => readRun Text.digit? r
    | r => if (readExponent r).isSome then some ([], r) else none
  let (exponent, rest) := (readExponent r).getD (0, r)
  if !negative && tooLarge (whole ++ fraction) (exponent - fraction.length) then none else some rest

/-- A fraction, infinity, or no number at all; gives what follows. -/
def readFloat (s : List Char) : Option (List Char) :=
  match (readSign s).2 with
  | 'i' :: 'n' :: 'f' :: r => some r
  | 'n' :: 'a' :: 'n' :: r => some r
  | _ => readPointed s

/-! ## Dates and times -/

def readPlaces : Nat → Nat → List Char → Option (Nat × List Char)
  | 0, n, s => some (n, s)
  | _ + 1, _, [] => none
  | places + 1, n, c :: r => do
      let d ← Text.digit? c
      readPlaces places (10 * n + d) r

def readTwo (low high : Nat) (s : List Char) : Option (Nat × List Char) := do
  let (n, rest) ← readPlaces 2 0 s
  if low ≤ n ∧ n ≤ high then some (n, rest) else none

def readChar (c : Char) : List Char → Option (List Char)
  | x :: r => if x = c then some r else none
  | [] => none

def daysIn (year month : Nat) : Nat :=
  match month with
  | 2 => if year % 4 = 0 ∧ (year % 100 ≠ 0 ∨ year % 400 = 0) then 29 else 28
  | 4 => 30
  | 6 => 30
  | 9 => 30
  | 11 => 30
  | _ => 31

def readDay (s : List Char) : Option (List Char) := do
  let (year, r) ← readPlaces 4 0 s
  let (month, r) ← readTwo 1 12 (← readChar '-' r)
  let (_, rest) ← readTwo 1 (daysIn year month) (← readChar '-' r)
  return rest

/-- Hours, minutes, seconds, which may be a leap second, and a fraction. -/
def readTime (s : List Char) : Option (List Char) := do
  let (_, r) ← readTwo 0 23 s
  let (_, r) ← readTwo 0 59 (← readChar ':' r)
  let (_, r) ← readTwo 0 60 (← readChar ':' r)
  match r with
  | '.' :: d :: f => if (Text.digit? d).isSome then some (f.dropWhile (·.isDigit)) else some r
  | r => some r

def readOffset (s : List Char) : Option (List Char) :=
  match s with
  | [] => none
  | c :: r =>
      if c = 'Z' ∨ c = 'z' then some r
      else if c = '+' ∨ c = '-' then do
        let (_, r) ← readTwo 0 23 r
        let (_, rest) ← readTwo 0 59 (← readChar ':' r)
        some rest
      else none

/-- A date, a time of day, or both with an offset; gives what follows. -/
def readDate (s : List Char) : Option (List Char) :=
  match readDay s with
  | none => readTime s
  | some [] => some []
  | some (c :: r) =>
      if c = 'T' ∨ c = 't' ∨ c = ' ' then
        match readTime r with
        | none => some (c :: r)
        | some rest => some ((readOffset rest).getD rest)
      else some (c :: r)

end AgentMesh.Toml
