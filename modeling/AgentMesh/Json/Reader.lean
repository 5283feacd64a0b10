import AgentMesh.Json.Value
import AgentMesh.Text.Numeral

/-!
# Reading JSON

Readers take a text from the front and return what they read with the rest. Blanks are space, tab,
line feed and carriage return. Nothing but blanks may follow the document.
-/

namespace AgentMesh.Json

def isBlank (c : Char) : Bool :=
  c == ' ' || c == '\n' || c == '\t' || c == '\r'

def skipBlanks (s : List Char) : List Char :=
  s.dropWhile isBlank

/-! ## Strings -/

/-- What stands between the quotes: characters, and code units written as escapes. -/
inductive Piece
  | char (c : Char)
  | unit (u : Nat)
deriving Repr, DecidableEq

def escape? : Char → Option Char
  | '"' => some '"'
  | '\\' => some '\\'
  | '/' => some '/'
  | 'b' => some '\x08'
  | 'f' => some '\x0c'
  | 'n' => some '\n'
  | 'r' => some '\r'
  | 't' => some '\t'
  | _ => none

/-- The pieces up to the closing quote, and what follows it. -/
def readPieces : List Char → Option (List Piece × List Char)
  | [] => none
  | '"' :: r => some ([], r)
  | '\\' :: 'u' :: a :: b :: c :: d :: r => do
      let u ← Text.readDigits Text.hexDigit? 16 0 [a, b, c, d]
      let (ps, rest) ← readPieces r
      return (.unit u :: ps, rest)
  | '\\' :: e :: r => do
      let c ← escape? e
      let (ps, rest) ← readPieces r
      return (.char c :: ps, rest)
  | c :: r =>
      if c = '\\' ∨ c.toNat < 0x20 then none
      else do
        let (ps, rest) ← readPieces r
        return (.char c :: ps, rest)

def isHighSurrogate (u : Nat) : Bool := 0xD800 ≤ u && u < 0xDC00

def isLowSurrogate (u : Nat) : Bool := 0xDC00 ≤ u && u < 0xE000

/-- The characters that pieces stand for, if each high surrogate is followed by a low one. -/
def joinPieces : List Piece → Option (List Char)
  | [] => some []
  | .char c :: r => (joinPieces r).map (c :: ·)
  | .unit u :: r =>
      if isHighSurrogate u then
        match r with
        | .unit v :: r' =>
            if isLowSurrogate v then
              (joinPieces r').map (Char.ofNat (0x10000 + (u - 0xD800) * 0x400 + (v - 0xDC00)) :: ·)
            else none
        | _ => none
      else if isLowSurrogate u then none
      else (joinPieces r).map (Char.ofNat u :: ·)

/-- A string whose opening quote has been read. -/
def readString (s : List Char) : Option (Option String × List Char) := do
  let (ps, rest) ← readPieces s
  return ((joinPieces ps).map String.ofList, rest)

/-! ## Numbers -/

def readDigits : List Char → List Nat × List Char
  | [] => ([], [])
  | c :: r =>
      match Text.digit? c with
      | none => ([], c :: r)
      | some d =>
          let (ds, rest) := readDigits r
          (d :: ds, rest)

def ofDigits (ds : List Nat) : Nat :=
  ds.foldl (fun n d => n * 10 + d) 0

/-- A point and at least one digit, or nothing. -/
def readFraction : List Char → Option (List Nat × List Char)
  | '.' :: r =>
      let (ds, rest) := readDigits r
      if ds.isEmpty then none else some (ds, rest)
  | s => some ([], s)

/-- The digits of an exponent, at least one. -/
def readExponentDigits (negative : Bool) (s : List Char) : Option (Option Int × List Char) :=
  let (ds, rest) := readDigits s
  if ds.isEmpty then none
  else some (some (if negative then -(ofDigits ds : Int) else ofDigits ds), rest)

def readExponent : List Char → Option (Option Int × List Char)
  | c :: r =>
      if c = 'e' ∨ c = 'E' then
        match r with
        | '+' :: r => readExponentDigits false r
        | '-' :: r => readExponentDigits true r
        | r => readExponentDigits false r
      else some (none, c :: r)
  | [] => some (none, [])

/-- A number without its sign. The whole part has no leading zero. -/
def readMagnitude (negative : Bool) (s : List Char) : Option (Number × List Char) :=
  let (ds, rest) := readDigits s
  if ds.isEmpty || (ds.head? == some 0 && ds.length != 1) then none
  else do
    let (fraction, rest) ← readFraction rest
    let (exponent, rest) ← readExponent rest
    return ({ negative, whole := ofDigits ds, fraction, exponent }, rest)

def readNumber : List Char → Option (Number × List Char)
  | '-' :: r => readMagnitude true r
  | s => readMagnitude false s

/-! ## Values -/

mutual

/-- A value after blanks. Each step of the recursion takes one unit of fuel. -/
def readValue : Nat → List Char → Option (Json × List Char)
  | 0, _ => none
  | fuel + 1, s =>
      match skipBlanks s with
      | [] => none
      | 'n' :: 'u' :: 'l' :: 'l' :: r => some (.null, r)
      | 't' :: 'r' :: 'u' :: 'e' :: r => some (.bool true, r)
      | 'f' :: 'a' :: 'l' :: 's' :: 'e' :: r => some (.bool false, r)
      | '"' :: r => (readString r).map fun (t, rest) => (.string t, rest)
      | '[' :: r =>
          match skipBlanks r with
          | ']' :: rest => some (.array [], rest)
          | _ => (readItems fuel r).map fun (xs, rest) => (.array xs, rest)
      | '{' :: r =>
          match skipBlanks r with
          | '}' :: rest => some (.object [], rest)
          | _ => (readMembers fuel r).map fun (ms, rest) => (.object ms, rest)
      | c :: r => (readNumber (c :: r)).map fun (n, rest) => (.number n, rest)

/-- At least one value, commas between them, and the closing bracket. -/
def readItems : Nat → List Char → Option (List Json × List Char)
  | 0, _ => none
  | fuel + 1, s => do
      let (v, rest) ← readValue fuel s
      match skipBlanks rest with
      | ',' :: r =>
          let (vs, rest) ← readItems fuel r
          return (v :: vs, rest)
      | ']' :: r => return ([v], r)
      | _ => none

/-- At least one member, commas between them, and the closing brace. -/
def readMembers : Nat → List Char → Option (List (Option String × Json) × List Char)
  | 0, _ => none
  | fuel + 1, s =>
      match skipBlanks s with
      | '"' :: r => do
          let (k, rest) ← readString r
          match skipBlanks rest with
          | ':' :: r =>
              let (v, rest) ← readValue fuel r
              match skipBlanks rest with
              | ',' :: r =>
                  let (ms, rest) ← readMembers fuel r
                  return ((k, v) :: ms, rest)
              | '}' :: r => return ([(k, v)], r)
              | _ => none
          | _ => none
      | _ => none

end

def parse (s : List Char) : Option Json := do
  let (v, rest) ← readValue (2 * s.length + 2) s
  if (skipBlanks rest).isEmpty then some v else none

/-- The document in a run of bytes, which must be well-formed UTF-8. -/
def ofUtf8? (bytes : ByteArray) : Option Json := do
  let text ← String.fromUTF8? bytes
  parse text.toList

end AgentMesh.Json
