import SeriesPivot.Text.Basic

/-!
# Targets of requests

The target of a request is a path with an optional query, the same behind a scheme and an authority, an
authority alone, or a star. `Target.read?` accepts each of these and keeps path and query; an authority
alone has the empty path. A fragment does not count.
-/

namespace SeriesPivot.Http

/-- The path and the query of a request. -/
structure Target where
  path : String
  query : String
  deriving DecidableEq, Repr

namespace Target

/-- A character of a path. -/
def isPathChar (c : Char) : Bool :=
  let n := c.toNat
  n == 0x21 || (0x24 ≤ n && n ≤ 0x3B) || n == 0x3D || (0x40 ≤ n && n ≤ 0x5F) ||
    (0x61 ≤ n && n ≤ 0x7A) || n == 0x7C || 0x7E ≤ n || c == '"' || c == '\x7b' || c == '\x7d'

/-- A character of a query. -/
def isQueryChar (c : Char) : Bool :=
  let n := c.toNat
  n == 0x21 || (0x24 ≤ n && n ≤ 0x3B) || n == 0x3D || 0x3F ≤ n

/-- A path and a query, up to a fragment. -/
def pathAndQuery (cs : List Char) : Option Target :=
  let whole := cs.takeWhile (· != '#')
  let path := whole.takeWhile (· != '?')
  let query := (whole.dropWhile (· != '?')).drop 1
  if path.all isPathChar ∧ query.all isQueryChar then
    some ⟨String.ofList path, String.ofList query⟩
  else none

/-- A character of an authority that has no role of its own. -/
def isPlain (c : Char) : Bool :=
  c.isAlphanum || "!$&'()*+,-.;=_~".toList.contains c

/-- What was seen of an authority so far. -/
structure Scan where
  colons : Nat
  opened : Bool
  closed : Bool
  percent : Bool
  /-- Whether the last character was an at sign. -/
  atEnd : Bool

/-- One more character of an authority; `none` if it cannot stand there. Colons and per cent signs before
an at sign or within brackets do not count in the end. -/
def Scan.step (s : Scan) (c : Char) : Option Scan :=
  let s := { s with atEnd := false }
  if c = ':' then if 8 ≤ s.colons then none else some { s with colons := s.colons + 1 }
  else if c = '[' then if s.percent ∨ s.opened then none else some { s with opened := true }
  else if c = ']' then
    if !s.opened ∨ s.closed then none
    else some { s with closed := true, colons := 0, percent := false }
  else if c = '@' then some { s with colons := 0, percent := false, atEnd := true }
  else if c = '%' then some { s with percent := true }
  else if isPlain c then some s
  else none

/-- Whether the text is an authority. -/
def isAuthority (cs : List Char) : Bool :=
  match cs.foldlM Scan.step ⟨0, false, false, false, false⟩ with
  | some s => s.opened == s.closed && s.colons ≤ 1 && !s.percent && !s.atEnd
  | none => false

/-- A character of a scheme. -/
def isSchemeChar (c : Char) : Bool :=
  c.isAlphanum || c == '+' || c == '-' || c == '.' || c == '~'

/-- The scheme, which is not longer than 64 characters, and the text behind `://`. -/
def scheme? (cs : List Char) : Option (List Char × List Char) :=
  match cs.dropWhile isSchemeChar with
  | ':' :: '/' :: '/' :: rest => some (cs.takeWhile isSchemeChar, rest)
  | _ => none

/-- Where an authority ends. -/
def endsAuthority (c : Char) : Bool :=
  c == '/' || c == '?' || c == '#'

/-- A path and query, where the empty path is the root. -/
def rooted (t : Target) : Target :=
  if t.path.isEmpty then { t with path := "/" } else t

/-- The number of bytes that is too many for a target. -/
def sizeLimit : Nat := 65535

/-- The path and the query of a target. -/
def read? (text : String) : Option Target :=
  if sizeLimit ≤ text.utf8ByteSize then none
  else
    match text.toList with
    | [] => none
    | ['*'] => some ⟨"*", ""⟩
    | '/' :: cs => pathAndQuery ('/' :: cs)
    | cs =>
      match scheme? cs with
      | none => if isAuthority cs then some ⟨"", ""⟩ else none
      | some (scheme, rest) =>
        let authority := rest.takeWhile fun c => !endsAuthority c
        if 64 < scheme.length ∨ authority.isEmpty ∨ !isAuthority authority then none
        else (pathAndQuery (rest.dropWhile fun c => !endsAuthority c)).map rooted

end Target

end SeriesPivot.Http
