import AgentMesh.Toml.Text
import AgentMesh.Toml.Value

/-!
# Writing TOML

Strings are written between quotes, with escapes for quotes, backslashes and control characters, and keys
without quotes where that is allowed. A list and a table inside another table are written on one line, and
every table of the root gets a header.
-/

namespace AgentMesh.Toml

def hexDigit (n : Nat) : Char :=
  if n < 10 then Char.ofNat ('0'.toNat + n) else Char.ofNat ('A'.toNat + (n - 10))

def escapeChar (c : Char) : List Char :=
  if c = '"' ∨ c = '\\' then ['\\', c]
  else if c.toNat < 0x20 ∨ c.toNat = 0x7F then
    ['\\', 'u', '0', '0', hexDigit (c.toNat / 16), hexDigit (c.toNat % 16)]
  else [c]

def quote (s : String) : List Char :=
  '"' :: (s.toList.flatMap escapeChar ++ ['"'])

def printKey (k : String) : List Char :=
  if k.toList.all isBare && !k.isEmpty then k.toList else quote k

mutual

/-- A value on one line. Values that are not kept are written as the least one of their kind. -/
def print : Toml → List Char
  | .string s => quote s
  | .integer i => (toString i).toList
  | .float => ['0', '.', '0']
  | .bool b => (toString b).toList
  | .date => "1970-01-01".toList
  | .array items => '[' :: (printItems items ++ [']'])
  | .table _ entries => '{' :: (printEntries entries ++ ['}'])
  | .tables elements => '[' :: (printTables elements ++ [']'])

def printItems : List Toml → List Char
  | [] => []
  | [v] => print v
  | v :: r => print v ++ ',' :: ' ' :: printItems r

def printEntries : List (String × Toml) → List Char
  | [] => []
  | [(k, v)] => printKey k ++ [' ', '=', ' '] ++ print v
  | (k, v) :: r => printKey k ++ [' ', '=', ' '] ++ print v ++ ',' :: ' ' :: printEntries r

def printTables : List (List (String × Toml)) → List Char
  | [] => []
  | [es] => '{' :: (printEntries es ++ ['}'])
  | es :: r => '{' :: (printEntries es ++ '}' :: ',' :: ' ' :: printTables r)

end

def printLine (entry : String × Toml) : List Char :=
  printKey entry.1 ++ [' ', '=', ' '] ++ print entry.2 ++ ['\n']

/-- A table of the root below its header, or an entry of the root. -/
def printSection (entry : String × Toml) : List Char :=
  match entry with
  | (name, .table _ entries) => '[' :: (printKey name ++ [']', '\n']) ++ entries.flatMap printLine
  | entry => printLine entry

/-- A document whose root holds tables only after other entries. -/
def printDocument (root : Entries) : String :=
  String.ofList (root.flatMap printSection)

end AgentMesh.Toml
