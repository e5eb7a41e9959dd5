import SeriesPivot.Json.Basic
import SeriesPivot.Binary64.Shortest
import SeriesPivot.Text.Basic

/-!
# JSON text

`Json.compress` writes a value without blanks, `Json.pretty` with one item a line and two blanks for
each level. Both write fields in the order in which the object lists them.

In strings, `"` and `\` and the control characters below U+0020 are escaped, five of these by a letter
and the others as `\u00xx`; every other character stands for itself. Doubles are written by
`Binary64.toExponential`.
-/

namespace SeriesPivot.Json

/-- A hexadecimal digit in lower case. -/
def hexChar (n : Nat) : Char :=
  if n < 10 then Char.ofNat ('0'.toNat + n) else Char.ofNat ('a'.toNat + (n - 10))

/-- The written form of one character of a string. -/
def escapeChar (c : Char) : List Char :=
  if c = '"' then ['\\', '"']
  else if c = '\\' then ['\\', '\\']
  else if c = '\n' then ['\\', 'n']
  else if c = '\r' then ['\\', 'r']
  else if c = '\t' then ['\\', 't']
  else if c = '\x08' then ['\\', 'b']
  else if c = '\x0c' then ['\\', 'f']
  else if c.toNat < 0x20 then
    ['\\', 'u', '0', '0', hexChar (c.toNat / 16), hexChar (c.toNat % 16)]
  else [c]

/-- A string with its quotes. -/
def quote (s : String) : String :=
  "\"" ++ Text.expand escapeChar s ++ "\""

/-- The text of a number. -/
def Number.render : Number → String
  | .int n => toString n
  | .float x => x.toExponential

mutual

/-- The text of a value without blanks. -/
def compress : Json → String
  | .null => "null"
  | .bool b => if b then "true" else "false"
  | .number n => n.render
  | .string s => quote s
  | .array items => "[" ++ compressItems items ++ "]"
  | .object fields => "\x7b" ++ compressFields fields ++ "\x7d"

/-- Items with commas between them. -/
def compressItems : List Json → String
  | [] => ""
  | [j] => compress j
  | j :: rest => compress j ++ "," ++ compressItems rest

/-- Fields with commas between them. -/
def compressFields : List (String × Json) → String
  | [] => ""
  | [(k, j)] => quote k ++ ":" ++ compress j
  | (k, j) :: rest => quote k ++ ":" ++ compress j ++ "," ++ compressFields rest

end

/-- Two blanks for each level. -/
def indentation (level : Nat) : String :=
  String.ofList (List.replicate (2 * level) ' ')

mutual

/-- The text of a value at a level, one item a line. -/
def prettyAt (level : Nat) : Json → String
  | .array [] => "[]"
  | .object [] => "\x7b\x7d"
  | .array items => "[\n" ++ prettyItems (level + 1) items ++ "\n" ++ indentation level ++ "]"
  | .object fields =>
    "\x7b\n" ++ prettyFields (level + 1) fields ++ "\n" ++ indentation level ++ "\x7d"
  | .null => "null"
  | .bool b => if b then "true" else "false"
  | .number n => n.render
  | .string s => quote s

/-- Items on lines of their own. -/
def prettyItems (level : Nat) : List Json → String
  | [] => ""
  | [j] => indentation level ++ prettyAt level j
  | j :: rest => indentation level ++ prettyAt level j ++ ",\n" ++ prettyItems level rest

/-- Fields on lines of their own. -/
def prettyFields (level : Nat) : List (String × Json) → String
  | [] => ""
  | [(k, j)] => indentation level ++ quote k ++ ": " ++ prettyAt level j
  | (k, j) :: rest =>
    indentation level ++ quote k ++ ": " ++ prettyAt level j ++ ",\n" ++ prettyFields level rest

end

/-- The text of a value with one item a line. -/
def pretty (j : Json) : String :=
  prettyAt 0 j

end SeriesPivot.Json
