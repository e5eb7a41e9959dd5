import SeriesPivot.Toml.Scalar
import SeriesPivot.Toml.Strings

/-!
# Reading TOML

`Toml.read?` reads a document line by line: headers, values under keys and comments. A byte order mark at
the front does not count. Arrays may go over several lines and end in a comma; inline tables do neither.
Arrays and inline tables are nested less than `nestingLimit` levels deep.
-/

namespace SeriesPivot.Toml

/-- The number of levels of arrays and inline tables that is too many. -/
def nestingLimit : Nat := 80

/-- The text behind a comment without the line end, when there is a comment. -/
def skipComment : List Char → List Char
  | '#' :: rest => rest.dropWhile isPrintable
  | cs => cs

/-- The text behind the end of a line, before which blanks and a comment may stand. -/
def finishLine (cs : List Char) : Option (List Char) :=
  match skipComment (skipSpaces cs) with
  | [] => some []
  | rest => lineEnd? rest

/-- Drop blanks, comments and line ends within an array. A comment needs its line end. -/
def skipLines : (fuel : Nat) → List Char → List Char
  | 0, cs => cs
  | fuel + 1, cs =>
    let cs := skipSpaces cs
    match lineEnd? (skipComment cs) with
    | some rest => skipLines fuel rest
    | none => cs

mutual

/-- A value, and the text behind it. `level` counts the arrays and inline tables around it. -/
def readValue (level : Nat) : (fuel : Nat) → List Char → Option (Node × List Char)
  | 0, _ => none
  | fuel + 1, cs =>
    match cs with
    | '"' :: _ => (readString cs).map fun (s, rest) => (.string s, rest)
    | '\'' :: _ => (readString cs).map fun (s, rest) => (.string s, rest)
    | '[' :: rest =>
      if nestingLimit ≤ level + 1 then none
      else (readItems (level + 1) fuel rest).map fun (items, rest) => (.array items, rest)
    | '\x7b' :: rest =>
      if nestingLimit ≤ level + 1 then none
      else
        match skipSpaces rest with
        | '\x7d' :: rest => some (.inlineTable [], rest)
        | rest => (readPairs (level + 1) [] fuel rest).map fun (entries, rest) =>
            (.inlineTable entries, rest)
    | _ => readScalar cs

/-- The items of an array up to its closing bracket. -/
def readItems (level : Nat) : (fuel : Nat) → List Char → Option (List Node × List Char)
  | 0, _ => none
  | fuel + 1, cs =>
    match skipLines cs.length cs with
    | ']' :: rest => some ([], rest)
    | cs => do
      let (item, rest) ← readValue level fuel cs
      match skipLines rest.length rest with
      | ']' :: rest => return ([item], rest)
      | ',' :: rest => do
        let (items, rest) ← readItems level fuel rest
        return (item :: items, rest)
      | _ => none

/-- The entries of an inline table up to its closing brace, added to those read so far. -/
def readPairs (level : Nat) (entries : Entries) :
    (fuel : Nat) → List Char → Option (Entries × List Char)
  | 0, _ => none
  | fuel + 1, cs => do
    let (key, rest) ← readKey cs
    match rest with
    | '=' :: rest => do
      let (node, rest) ← readValue level fuel (skipSpaces rest)
      let entries ← insertInline key node entries
      match skipSpaces rest with
      | '\x7d' :: rest => return (entries, rest)
      | ',' :: rest => readPairs level entries fuel rest
      | _ => none
    | _ => none

end

/-- A document in the making: its tables and the path of the last header. -/
structure Draft where
  document : Table
  header : List String

/-- A header of a table, up to its closing bracket. -/
def readHeader (d : Draft) (cs : List Char) : Option (Draft × List Char) := do
  let (key, rest) ← readKey cs
  match rest with
  | ']' :: rest => return (⟨← d.document.enter key, key⟩, rest)
  | _ => none

/-- A header of the next table of a list, up to its closing brackets. -/
def readListHeader (d : Draft) (cs : List Char) : Option (Draft × List Char) := do
  let (key, rest) ← readKey cs
  match rest with
  | ']' :: ']' :: rest => return (⟨← d.document.enterNext key, key⟩, rest)
  | _ => none

/-- A value under a key. -/
def readEntry (d : Draft) (cs : List Char) : Option (Draft × List Char) := do
  let (key, rest) ← readKey cs
  match rest with
  | '=' :: rest => do
    let (node, rest) ← readValue 0 (rest.length + 1) (skipSpaces rest)
    return ({ d with document := ← d.document.insertAt d.header key node }, rest)
  | _ => none

/-- What a line holds, without its end. -/
def readContent (d : Draft) (cs : List Char) : Option (Draft × List Char) :=
  match skipSpaces cs with
  | '[' :: '[' :: rest => readListHeader d rest
  | '[' :: rest => readHeader d rest
  | rest =>
    if rest.isEmpty ∨ rest.head? = some '#' ∨ (lineEnd? rest).isSome then some (d, rest)
    else readEntry d rest

/-- The lines of a document. -/
def readLines (d : Draft) : (fuel : Nat) → List Char → Option Table
  | 0, cs => if cs.isEmpty then some d.document else none
  | fuel + 1, cs =>
    if cs.isEmpty then some d.document
    else do
      let (d, rest) ← readContent d cs
      readLines d fuel (← finishLine rest)

/-- The document that a text is. -/
def read? (text : String) : Option Table :=
  let cs := match text.toList with
    | '\uFEFF' :: rest => rest
    | cs => cs
  readLines ⟨.empty, []⟩ cs.length cs

end SeriesPivot.Toml
