import AgentMesh.Toml.Value

/-!
# Assembling tables

The lines of a document, put together. A table may have one header only, a header or a dotted key may pass
through tables that were not written as a whole, and no entry is given twice.
-/

namespace AgentMesh.Toml

/-- What a line says. A key is given by its path and its last part. -/
inductive Line
  | header (path : List String) (last : String)
  | element (path : List String) (last : String)
  | entry (path : List String) (last : String) (value : Toml)
deriving Repr, Inhabited

namespace Entries

def get? (es : Entries) (key : String) : Option Toml :=
  (es.find? fun e => e.1 == key).map (·.2)

def set (es : Entries) (key : String) (value : Toml) : Entries :=
  es.map fun e => if e.1 == key then (key, value) else e

def erase (es : Entries) (key : String) : Entries :=
  es.filter fun e => e.1 != key

/--
Changes the table at a path. Missing tables are made, of the given origin; of a list of tables the last one
is meant. A dotted key does not pass through a table that has a header of its own.
-/
def changeAt {α : Type} (made : Origin) (change : Origin → Entries → Option (α × Entries)) :
    List String → Origin → Entries → Option (α × Entries)
  | [], origin, es => change origin es
  | key :: path, _, es =>
      match es.get? key with
      | none => do
          let (a, sub) ← changeAt made change path made []
          return (a, es ++ [(key, .table made sub)])
      | some (.table origin sub) =>
          if origin = .inline ∨ (made = .dotted ∧ origin = .header) then none
          else do
            let (a, sub) ← changeAt made change path origin sub
            return (a, es.set key (.table origin sub))
      | some (.tables elements) =>
          match elements.getLast? with
          | none => none
          | some last => do
              let (a, last) ← changeAt made change path .header last
              return (a, es.set key (.tables (elements.dropLast ++ [last])))
      | some _ => none

/-- Adds an entry; with a path, it belongs to a table that dotted keys have made. -/
def put (es : Entries) (path : List String) (last : String) (value : Toml) (origin : Origin) :
    Option Entries := do
  let add (origin : Origin) (es : Entries) : Option (Unit × Entries) :=
    if (origin == .dotted) == path.isEmpty || (es.get? last).isSome then none
    else some ((), es ++ [(last, value)])
  let (_, es) ← changeAt .dotted add path origin es
  return es

def putAll (es : Entries) : List ((List String × String) × Toml) → Option Entries
  | [] => some es
  | ((path, last), value) :: rest => do
      let es ← es.put path last value .inline
      putAll es rest

end Entries

/-- The table whose lines are being read, apart from the finished ones. -/
structure Assembly where
  root : Entries := []
  current : Entries := []
  /-- The path and last part of the header; the root has none. -/
  header : Option (List String × String) := none
  /-- Whether the current table is one of a list. -/
  isElement : Bool := false

namespace Assembly

def close (a : Assembly) : Option Entries :=
  match a.header with
  | none => some a.current
  | some (path, last) => do
      let place (_ : Origin) (es : Entries) : Option (Unit × Entries) :=
        if a.isElement then
          match es.get? last with
          | some (.tables elements) => some ((), es.set last (.tables (elements ++ [a.current])))
          | _ => none
        else some ((), es ++ [(last, .table .header a.current)])
      let (_, root) ← Entries.changeAt .implied place path .header a.root
      return root

/-- Begins a table, of which only tables below it may be there already. -/
def openTable (a : Assembly) (path : List String) (last : String) : Option Assembly := do
  let take (_ : Origin) (es : Entries) : Option (Entries × Entries) :=
    match es.get? last with
    | none => some ([], es)
    | some (.table .implied sub) => some (sub, es.erase last)
    | some _ => none
  let (current, root) ← Entries.changeAt .implied take path .header (← a.close)
  return { root, current, header := some (path, last) }

def openElement (a : Assembly) (path : List String) (last : String) : Option Assembly := do
  let prepare (_ : Origin) (es : Entries) : Option (Unit × Entries) :=
    match es.get? last with
    | none => some ((), es ++ [(last, .tables [])])
    | some (.tables _) => some ((), es)
    | some _ => none
  let (_, root) ← Entries.changeAt .implied prepare path .header (← a.close)
  return { root, header := some (path, last), isElement := true }

def add (a : Assembly) : Line → Option Assembly
  | .header path last => a.openTable path last
  | .element path last => a.openElement path last
  | .entry path last value => do
      let current ← a.current.put path last value .header
      return { a with current }

end Assembly

def Entries.ofLines? (lines : List Line) : Option Entries := do
  (← lines.foldlM Assembly.add {}).close

end AgentMesh.Toml
