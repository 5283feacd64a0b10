/-!
# URIs

A URI is a scheme, an authority that is not empty, and a path and query that need no further escapes. One that
begins with a slash is a path and query only. What follows a hash sign does not count.
-/

namespace AgentMesh.Text.Uri

/-! ## Characters -/

def isOneOf (chars : String) (c : Char) : Bool :=
  chars.toList.contains c

def isSchemeChar (c : Char) : Bool :=
  c.isAlphanum || isOneOf "+-.~" c

def isAuthorityChar (c : Char) : Bool :=
  c.isAlphanum || isOneOf "!$&'()*+,-.;=_~" c

/-- Neither a blank nor a control character of ASCII. -/
def isVisible (c : Char) : Bool :=
  0x20 < c.toNat && c.toNat != 0x7F

def isPathChar (c : Char) : Bool :=
  isVisible c && !isOneOf "<>`" c

def isQueryChar (c : Char) : Bool :=
  isVisible c && !isOneOf "\"<>" c

/-! ## Parts -/

def maxScheme : Nat := 64

/-- What follows `scheme://`, if the URI starts so and the scheme is not too long. -/
def afterScheme? (uri : List Char) : Option (List Char) :=
  let scheme := uri.takeWhile isSchemeChar
  match uri.drop scheme.length with
  | ':' :: '/' :: '/' :: rest => if scheme.length ≤ maxScheme then some rest else none
  | _ => none

structure Seen where
  colons : Nat := 0
  opened : Bool := false
  closed : Bool := false
  percent : Bool := false
  /-- Whether the last character was an at sign. -/
  afterAt : Bool := false

def maxColons : Nat := 8

/--
Scans an authority; returns what follows it. What stands before an at sign or a closing bracket is a user or
an address, whose colons and percent signs do not count.
-/
def scanAuthority (seen : Seen) : List Char → Option (Seen × List Char)
  | [] => some (seen, [])
  | c :: r =>
      if isOneOf "/?#" c then some (seen, c :: r)
      else if c = ':' then
        if maxColons ≤ seen.colons then none
        else scanAuthority { seen with colons := seen.colons + 1, afterAt := false } r
      else if c = '[' then
        if seen.percent || seen.opened then none
        else scanAuthority { seen with opened := true, afterAt := false } r
      else if c = ']' then
        if !seen.opened || seen.closed then none
        else scanAuthority { seen with closed := true, colons := 0, percent := false, afterAt := false } r
      else if c = '@' then
        scanAuthority { seen with colons := 0, percent := false, afterAt := true } r
      else if c = '%' then scanAuthority { seen with percent := true, afterAt := false } r
      else if isAuthorityChar c then scanAuthority { seen with afterAt := false } r
      else none

/-- What follows a valid authority, which is not empty. -/
def afterAuthority? (uri : List Char) : Option (List Char) := do
  let (seen, rest) ← scanAuthority {} uri
  if seen.opened != seen.closed || 1 < seen.colons || seen.afterAt || seen.percent ||
      rest.length == uri.length then none
  else some rest

/-- The path at the front, if it is valid and so is the query after it. -/
def pathOf? (uri : List Char) : Option (List Char) :=
  let path := uri.takeWhile fun c => !isOneOf "?#" c
  let query := (uri.drop path.length).takeWhile (· != '#')
  if path.all isPathChar && query.all isQueryChar then some path else none

/-! ## URIs -/

def maxLength : Nat := 65534

def path? (uri : String) : Option String :=
  if maxLength < uri.utf8ByteSize then none
  else
    let chars := uri.toList
    let rest := if chars.head? = some '/' then some chars else (afterScheme? chars).bind afterAuthority?
    (rest.bind pathOf?).map String.ofList

end AgentMesh.Text.Uri
