import AgentMesh.Text.Numeral

/-!
# Strings, keys and blanks in TOML

Strings are written between quotes with escapes or between apostrophes without, on one line or, with three
quotes, on several. A line break is a line feed, with or without a carriage return before it, and stands for a
line feed.
-/

namespace AgentMesh.Toml

/-! ## Blanks and comments -/

def isBlank (c : Char) : Bool :=
  c == ' ' || c == '\t'

def skipBlanks (s : List Char) : List Char :=
  s.dropWhile isBlank

/-- A character that may stand in a comment or a string: all but control characters other than tab. -/
def isPlain (c : Char) : Bool :=
  c == '\t' || (0x20 ≤ c.toNat && c.toNat != 0x7F)

/-- What follows a line break at the front, if there is one. -/
def lineBreak? : List Char → Option (List Char)
  | '\n' :: r => some r
  | '\r' :: '\n' :: r => some r
  | _ => none

/-- What follows the current line, of which only blanks and a comment may be left. -/
def endLine (s : List Char) : Option (List Char) :=
  let r := match skipBlanks s with
    | '#' :: r => r.dropWhile isPlain
    | r => r
  if r.isEmpty then some [] else lineBreak? r

/-- Skips blanks, line breaks and comments; `inComment` tells whether a comment has begun. -/
def skipLines (inComment : Bool) : List Char → List Char
  | [] => []
  | '\n' :: r => skipLines false r
  | '\r' :: '\n' :: r => skipLines false r
  | c :: r =>
      if inComment then
        if isPlain c then skipLines true r else c :: r
      else if c = '#' then skipLines true r
      else if isBlank c then skipLines false r
      else c :: r

/-! ## Escapes -/

def escape? : Char → Option Char
  | 'b' => some '\x08'
  | 't' => some '\t'
  | 'n' => some '\n'
  | 'f' => some '\x0c'
  | 'r' => some '\r'
  | '"' => some '"'
  | '\\' => some '\\'
  | _ => none

/-- The character of a hexadecimal number, which must not be a surrogate. -/
def scalar? (digits : List Char) : Option Char := do
  let n ← Text.readDigits Text.hexDigit? 16 0 digits
  if n < 0xD800 ∨ (0xDFFF < n ∧ n < 0x110000) then some (Char.ofNat n) else none

/-! ## Strings on one line -/

/-- A string with escapes up to the closing quote, and what follows. -/
def readBasic : List Char → Option (List Char × List Char)
  | [] => none
  | '"' :: r => some ([], r)
  | '\\' :: 'u' :: a :: b :: c :: d :: r => do
      let x ← scalar? [a, b, c, d]
      let (xs, rest) ← readBasic r
      return (x :: xs, rest)
  | '\\' :: 'U' :: a :: b :: c :: d :: e :: f :: g :: h :: r => do
      let x ← scalar? [a, b, c, d, e, f, g, h]
      let (xs, rest) ← readBasic r
      return (x :: xs, rest)
  | '\\' :: e :: r => do
      let x ← escape? e
      let (xs, rest) ← readBasic r
      return (x :: xs, rest)
  | c :: r =>
      if c != '\\' && isPlain c then do
        let (xs, rest) ← readBasic r
        return (c :: xs, rest)
      else none

/-- A string without escapes up to the closing apostrophe, and what follows. -/
def readLiteral : List Char → Option (List Char × List Char)
  | [] => none
  | c :: r =>
      if c = '\'' then some ([], r)
      else if isPlain c then do
        let (xs, rest) ← readLiteral r
        return (c :: xs, rest)
      else none

/-! ## Strings on several lines -/

/-- What is left after the three closing quotes: up to two quotes before them belong to the string. -/
def closeLines (quote : Char) : List Char → List Char × List Char
  | a :: b :: r =>
      if a = quote ∧ b = quote then ([quote, quote], r)
      else if a = quote then ([quote], b :: r)
      else ([], a :: b :: r)
  | [a] => if a = quote then ([quote], []) else ([], [a])
  | [] => ([], [])

/-- Skips blanks and line breaks, as after a backslash at the end of a line. -/
def skipBreaks : List Char → List Char
  | '\n' :: r => skipBreaks r
  | '\r' :: '\n' :: r => skipBreaks r
  | c :: r => if isBlank c then skipBreaks r else c :: r
  | [] => []

theorem length_skipBreaks_le (s : List Char) : (skipBreaks s).length ≤ s.length := by
  fun_induction skipBreaks s <;> simp_all <;> omega

/-- What follows the blanks and the line break after a backslash, if there is a line break. -/
def continued? (s : List Char) : Option (List Char) :=
  (lineBreak? (skipBlanks s)).map fun _ => skipBreaks s

theorem length_continued?_le {s r : List Char} (h : continued? s = some r) : r.length ≤ s.length := by
  simp only [continued?, Option.map_eq_some_iff] at h
  obtain ⟨_, _, rfl⟩ := h
  exact length_skipBreaks_le s

/-- A string with escapes up to three closing quotes, and what follows. -/
def readBasicLines (s : List Char) : Option (List Char × List Char) :=
  match s with
  | [] => none
  | '"' :: '"' :: '"' :: r => some (closeLines '"' r)
  | '\\' :: 'u' :: a :: b :: c :: d :: r => do
      let x ← scalar? [a, b, c, d]
      let (xs, rest) ← readBasicLines r
      return (x :: xs, rest)
  | '\\' :: 'U' :: a :: b :: c :: d :: e :: f :: g :: h :: r => do
      let x ← scalar? [a, b, c, d, e, f, g, h]
      let (xs, rest) ← readBasicLines r
      return (x :: xs, rest)
  | '\\' :: e :: r =>
      match escape? e with
      | some x => do
          let (xs, rest) ← readBasicLines r
          return (x :: xs, rest)
      | none =>
          match _h : continued? (e :: r) with
          | some rest => readBasicLines rest
          | none => none
  | '\r' :: '\n' :: r => do
      let (xs, rest) ← readBasicLines r
      return ('\n' :: xs, rest)
  | c :: r =>
      if c != '\\' && (isPlain c || c == '\n') then do
        let (xs, rest) ← readBasicLines r
        return (c :: xs, rest)
      else none
  termination_by s.length
  decreasing_by
    all_goals simp_wf
    all_goals try omega
    have := length_continued?_le _h
    simp only [List.length_cons] at this
    omega

/-- A string without escapes up to three closing apostrophes, and what follows. -/
def readLiteralLines : List Char → Option (List Char × List Char)
  | [] => none
  | '\'' :: '\'' :: '\'' :: r => some (closeLines '\'' r)
  | '\r' :: '\n' :: r => do
      let (xs, rest) ← readLiteralLines r
      return ('\n' :: xs, rest)
  | c :: r =>
      if isPlain c || c == '\n' then do
        let (xs, rest) ← readLiteralLines r
        return (c :: xs, rest)
      else none

/-- A line break right after the opening quotes does not belong to the string. -/
def afterOpening (s : List Char) : List Char :=
  (lineBreak? s).getD s

def readString? : List Char → Option (Option (List Char × List Char))
  | '"' :: '"' :: '"' :: r => some (readBasicLines (afterOpening r))
  | '"' :: r => some (readBasic r)
  | '\'' :: '\'' :: '\'' :: r => some (readLiteralLines (afterOpening r))
  | '\'' :: r => some (readLiteral r)
  | _ => none

/-! ## Keys -/

def isBare (c : Char) : Bool :=
  c.isAlphanum || c == '_' || c == '-'

/-- One part of a key: a bare word, or a string on one line. -/
def readPart (s : List Char) : Option (String × List Char) :=
  match s with
  | '"' :: r => (readBasic r).map fun (k, rest) => (String.ofList k, rest)
  | '\'' :: r => (readLiteral r).map fun (k, rest) => (String.ofList k, rest)
  | s =>
      let word := s.takeWhile isBare
      if word.isEmpty then none else some (String.ofList word, s.dropWhile isBare)

/-- Parts with points between them, and blanks around each. -/
def readParts : Nat → List Char → Option (List String × List Char)
  | 0, _ => none
  | fuel + 1, s => do
      let (part, rest) ← readPart (skipBlanks s)
      match skipBlanks rest with
      | '.' :: r =>
          let (parts, rest) ← readParts fuel r
          return (part :: parts, rest)
      | r => return ([part], r)

/-- How deep values may be nested, and how many parts a key may have: less than this. -/
def depthLimit : Nat := 80

def readKey (s : List Char) : Option ((List String × String) × List Char) := do
  let (parts, rest) ← readParts (s.length + 1) s
  match parts.getLast? with
  | some last => if parts.length < depthLimit then some ((parts.dropLast, last), rest) else none
  | none => none

end AgentMesh.Toml
