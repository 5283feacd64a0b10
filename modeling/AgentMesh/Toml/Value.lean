/-!
# TOML documents

The tree that a settings file stands for. Tables remember how they were written, since that decides whether
later lines may add to them. No setting is a fraction or a date, so their values are not kept.
-/

namespace AgentMesh

/-- How a table came to be. -/
inductive Toml.Origin
  /-- It has a header of its own. -/
  | header
  /-- The header of a table below it names it. -/
  | implied
  /-- A dotted key names an entry below it. -/
  | dotted
  /-- It is written between braces. -/
  | inline
deriving Repr, DecidableEq, Inhabited

inductive Toml
  | string (text : String)
  | integer (i : Int)
  | float
  | bool (b : Bool)
  | date
  | array (items : List Toml)
  | table (origin : Toml.Origin) (entries : List (String × Toml))
  /-- Tables with repeated headers. -/
  | tables (elements : List (List (String × Toml)))
deriving Repr, Inhabited

/-- The entries of a table in the order in which they were written. -/
abbrev Toml.Entries := List (String × Toml)

end AgentMesh
