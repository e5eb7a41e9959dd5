import SeriesPivot.Text.Basic

/-!
# Names of files in messages

`quotePath` writes the name of a file in double quotes. Quotes and backslashes get a backslash, and a
character that does not show by itself (a control, a blank other than the space, a mark that joins the
character before it, an invisible format character) is written by its letter or its number in
hexadecimal.
-/

namespace SeriesPivot.Text

/-- Whether a character does not show by itself. -/
def isHidden (c : Char) : Bool :=
  let n := c.toNat
  (isBlank c && c != ' ') || n < 0x20 || (0x7F ≤ n && n < 0xA0) || n == 0xAD ||
    (0x300 ≤ n && n < 0x370) || (0x200B ≤ n && n < 0x2010) || (0x202A ≤ n && n < 0x202F) ||
    (0x2060 ≤ n && n < 0x2070) || (0xE000 ≤ n && n < 0xF900) || (0xFE00 ≤ n && n < 0xFE10) ||
    n == 0xFEFF || (0xFFF0 ≤ n && n < 0xFFFC)

/-- A number in hexadecimal, in lower case. -/
def hexText (n : Nat) : List Char :=
  Nat.toDigits 16 n

/-- A character of the name of a file. -/
def pathChar (c : Char) : List Char :=
  if c = '"' then ['\\', '"']
  else if c = '\\' then ['\\', '\\']
  else if c = '\n' then ['\\', 'n']
  else if c = '\r' then ['\\', 'r']
  else if c = '\t' then ['\\', 't']
  else if c.toNat = 0 then ['\\', '0']
  else if isHidden c then ['\\', 'u', '\x7b'] ++ hexText c.toNat ++ ['\x7d']
  else [c]

/-- The name of a file in quotes. -/
def quotePath (path : String) : String :=
  "\"" ++ expand pathChar path ++ "\""

end SeriesPivot.Text
