import AgentMesh.Json.Value

/-!
# Writing JSON

The compact text of a document: no blanks, and escapes only where the grammar asks for them. A string
that stands for no text is written as null.
-/

namespace AgentMesh.Json

def hexDigit (n : Nat) : Char :=
  (Nat.toDigits 16 n).headD '0'

def escapeChar (c : Char) : List Char :=
  if c = '"' then ['\\', '"']
  else if c = '\\' then ['\\', '\\']
  else if c = '\x08' then ['\\', 'b']
  else if c = '\x0c' then ['\\', 'f']
  else if c = '\n' then ['\\', 'n']
  else if c = '\r' then ['\\', 'r']
  else if c = '\t' then ['\\', 't']
  else if c.toNat < 0x20 then ['\\', 'u', '0', '0', hexDigit (c.toNat / 16), hexDigit (c.toNat % 16)]
  else [c]

def quote (s : String) : List Char :=
  '"' :: s.toList.flatMap escapeChar ++ ['"']

def printText : Option String → List Char
  | some s => quote s
  | none => ['n', 'u', 'l', 'l']

def printNat (n : Nat) : List Char :=
  Nat.toDigits 10 n

/-- An exponent is written with its sign. -/
def printNumber (n : Number) : List Char :=
  (if n.negative then ['-'] else []) ++ printNat n.whole ++
    (if n.fraction = [] then [] else '.' :: n.fraction.flatMap printNat) ++
    (match n.exponent with
      | none => []
      | some e => 'e' :: (if e < 0 then '-' else '+') :: printNat e.natAbs)

mutual

def print : Json → List Char
  | .null => ['n', 'u', 'l', 'l']
  | .bool true => ['t', 'r', 'u', 'e']
  | .bool false => ['f', 'a', 'l', 's', 'e']
  | .number n => printNumber n
  | .string t => printText t
  | .array [] => ['[', ']']
  | .array (v :: r) => '[' :: (print v ++ (printItems r ++ [']']))
  | .object [] => ['\x7b', '\x7d']
  | .object ((k, v) :: r) =>
      '\x7b' :: (printText k ++ (':' :: (print v ++ (printMembers r ++ ['\x7d']))))

/-- The values after the first, each behind its comma. -/
def printItems : List Json → List Char
  | [] => []
  | v :: r => ',' :: (print v ++ printItems r)

/-- The members after the first, each behind its comma. -/
def printMembers : List (Option String × Json) → List Char
  | [] => []
  | (k, v) :: r => ',' :: (printText k ++ (':' :: (print v ++ printMembers r)))

end

def compact (v : Json) : String :=
  String.ofList (print v)

end AgentMesh.Json
