import AgentMesh.Toml.Assembly
import AgentMesh.Toml.Number
import AgentMesh.Toml.Text

/-!
# Reading TOML

A document is read line by line; a value may take up several lines.
-/

namespace AgentMesh.Toml

/-! ## Values -/

def readScalar (s : List Char) : Option (Toml × List Char) :=
  match readDate s with
  | some rest => some (.date, rest)
  | none =>
      match readFloat s with
      | some rest => some (.float, rest)
      | none => (readInteger s).map fun (i, rest) => (.integer i, rest)

mutual

/-- A value at the front. Each step of the recursion takes one unit of fuel, each bracket one of depth. -/
def readValue : Nat → Nat → List Char → Option (Toml × List Char)
  | 0, _, _ => none
  | fuel + 1, depth, s =>
      match readString? s with
      | some read => read.map fun (t, rest) => (.string (String.ofList t), rest)
      | none =>
          match s, depth with
          | '[' :: r, depth + 1 => (readItems fuel depth r).map fun (vs, rest) => (.array vs, rest)
          | '[' :: _, 0 => none
          | '{' :: r, depth + 1 => do
              let (es, rest) ← match skipBlanks r with
                | '}' :: rest => some ([], rest)
                | r => readEntries fuel depth r
              return (.table .inline (← Entries.putAll [] es), rest)
          | '{' :: _, 0 => none
          | 't' :: 'r' :: 'u' :: 'e' :: r, _ => some (.bool true, r)
          | 'f' :: 'a' :: 'l' :: 's' :: 'e' :: r, _ => some (.bool false, r)
          | s, _ => readScalar s

/-- Values with commas between them, which may also follow the last one, and the closing bracket. -/
def readItems : Nat → Nat → List Char → Option (List Toml × List Char)
  | 0, _, _ => none
  | fuel + 1, depth, s =>
      match skipLines false s with
      | ']' :: r => some ([], r)
      | r => do
          let (v, rest) ← readValue fuel depth r
          match skipLines false rest with
          | ',' :: r =>
              let (vs, rest) ← readItems fuel depth r
              return (v :: vs, rest)
          | ']' :: r => return ([v], r)
          | _ => none

/-- At least one entry, commas between them, and the closing brace, all on one line. -/
def readEntries : Nat → Nat → List Char →
    Option (List ((List String × String) × Toml) × List Char)
  | 0, _, _ => none
  | fuel + 1, depth, s => do
      let (key, rest) ← readKey s
      match rest with
      | '=' :: r =>
          let (v, rest) ← readValue fuel depth (skipBlanks r)
          match skipBlanks rest with
          | ',' :: r =>
              let (es, rest) ← readEntries fuel depth r
              return ((key, v) :: es, rest)
          | '}' :: r => return ([(key, v)], r)
          | _ => none
      | _ => none

end

/-! ## Lines -/

/-- One line that is neither blank nor a comment, and what follows it on the line. -/
def readLine (s : List Char) : Option (Line × List Char) :=
  match s with
  | '[' :: '[' :: r => do
      let ((path, last), rest) ← readKey r
      match rest with
      | ']' :: ']' :: rest => some (.element path last, rest)
      | _ => none
  | '[' :: r => do
      let ((path, last), rest) ← readKey r
      match rest with
      | ']' :: rest => some (.header path last, rest)
      | _ => none
  | s => do
      let ((path, last), rest) ← readKey s
      match rest with
      | '=' :: r =>
          let (v, rest) ← readValue (2 * s.length + 2) (depthLimit - 1) (skipBlanks r)
          some (.entry path last v, rest)
      | _ => none

/-- All lines. Each line takes one unit of fuel. -/
def readLines : Nat → List Char → Option (List Line)
  | 0, _ => none
  | fuel + 1, s =>
      match skipBlanks s with
      | [] => some []
      | c :: r =>
          if c = '#' ∨ c = '\n' ∨ c = '\r' then do
            readLines fuel (← endLine (c :: r))
          else do
            let (line, rest) ← readLine (c :: r)
            return line :: (← readLines fuel (← endLine rest))

def withoutMark : List Char → List Char
  | '\uFEFF' :: r => r
  | s => s

def parse (s : List Char) : Option Entries := do
  let s := withoutMark s
  Entries.ofLines? (← readLines (s.length + 1) s)

end AgentMesh.Toml
