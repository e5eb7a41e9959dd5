import SeriesPivot.Text.Basic

/-!
# Headers of requests

Names of headers and methods are tokens, and values have no control characters but tabs. Names are told
apart without regard to case, and of two headers with one name the first counts.

`isJson` says whether a media type is that of JSON: `application/json`, or another type of `application`
whose name ends in `+json`. Parameters have to be well formed.
-/

namespace SeriesPivot.Http

/-- A character of a token. -/
def isToken (c : Char) : Bool :=
  c.isAlphanum || "!#$%&'*+-.^_\x60|~".toList.contains c

/-- Whether the text is a token. -/
def isName (s : String) : Bool :=
  !s.isEmpty && s.toList.all isToken

/-- Whether the text may be the value of a header. -/
def isValue (s : String) : Bool :=
  s.toList.all fun c => c == '\t' || (0x20 ≤ c.toNat && c.toNat != 0x7F)

/-- Whether the text has printable characters of ASCII and tabs only. -/
def isVisible (s : String) : Bool :=
  s.toList.all fun c => c == '\t' || (0x20 ≤ c.toNat && c.toNat < 0x7F)

/-- Headers in order. -/
abbrev Headers := List (String × String)

/-- The value of the first header of a name, which is given in lower case. -/
def header? (name : String) (headers : Headers) : Option String :=
  (headers.find? fun h => Text.lowerAscii h.1 == name).map (·.2)

/-! ## Media types -/

/-- A character between quotes. -/
def isQuotable (c : Char) : Bool :=
  0x20 ≤ c.toNat && c.toNat != 0x7F

/-- The text behind a value in quotes, from behind the opening quote. The value is not empty. -/
def skipQuoted : List Char → Option (List Char)
  | [] => none
  | c :: cs =>
    let value := c :: cs.takeWhile (· != '"')
    match cs.dropWhile (· != '"') with
    | _ :: rest => if value.all isQuotable then some rest else none
    | [] => none

/-- Whether the text is a list of parameters. `fuel` is at least its length. -/
def isParameters : (fuel : Nat) → List Char → Bool
  | _, [] => true
  | 0, _ => false
  | fuel + 1, ' ' :: cs => isParameters fuel cs
  | fuel + 1, cs =>
    let name := cs.takeWhile isToken
    match cs.dropWhile isToken with
    | '=' :: '"' :: rest =>
      match skipQuoted rest with
      | none => false
      | some rest =>
        match rest.dropWhile (· == ' ') with
        | [] => !name.isEmpty
        | ';' :: rest => !name.isEmpty && isParameters fuel rest
        | _ => false
    | '=' :: rest =>
      let value := rest.takeWhile isToken
      match rest.dropWhile isToken with
      | [] => !name.isEmpty
      | ';' :: rest => !name.isEmpty && !value.isEmpty && isParameters fuel rest
      | _ => false
    | _ => false

/-- Whether the name of a type, behind its slash, is JSON: the name before its last plus sign, or what
follows that sign. A plus sign at the front is part of the name. -/
def isJsonSubtype (cs : List Char) : Bool :=
  let behind := cs.reverse.takeWhile (· != '+')
  let before := cs.reverse.drop (behind.length + 1)
  let json := "json".toList
  if before.isEmpty then (cs.map Char.toLower) == json
  else (before.reverse.map Char.toLower) == json || (behind.reverse.map Char.toLower) == json

/-- Whether a media type is that of JSON. -/
def isJson (s : String) : Bool :=
  isVisible s &&
    let cs := s.toList
    let kind := cs.takeWhile isToken
    match cs.dropWhile isToken with
    | '/' :: rest =>
      let name := rest.takeWhile isToken
      (kind.map Char.toLower) == "application".toList && isJsonSubtype name &&
        match rest.dropWhile isToken with
        | [] => true
        | ';' :: parameters => isParameters parameters.length parameters
        | _ => false
    | _ => false

end SeriesPivot.Http
