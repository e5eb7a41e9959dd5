import SeriesPivot.Text.Basic

/-!
# Strings and keys of TOML

Four kinds of strings: basic ones in `"` with escapes and literal ones in `'` without, either on one line or
between triple quotes on several.

* Between triple quotes a line end right behind the opening does not count, every line end is read as a
  line feed, and one or two quotes may stand before the closing.
* In a basic string on several lines, a backslash at the end of a line drops the line end and all blanks and
  line ends behind it.
* A key is a dotted list of bare words and strings on one line.

Every reader returns what it read and the text behind it.
-/

namespace SeriesPivot.Toml

/-- A blank within a line. -/
def isSpace (c : Char) : Bool :=
  c == ' ' || c == '\t'

/-- Drop blanks within a line. -/
def skipSpaces (cs : List Char) : List Char :=
  cs.dropWhile isSpace

/-- A character that may stand in a comment. -/
def isPrintable (c : Char) : Bool :=
  c == '\t' || (0x20 ≤ c.toNat && c.toNat != 0x7F)

/-- The text behind a line end. -/
def lineEnd? : List Char → Option (List Char)
  | '\n' :: rest => some rest
  | '\r' :: '\n' :: rest => some rest
  | _ => none

/-- The text behind a line end, or all of it. -/
def dropLineEnd (cs : List Char) : List Char :=
  (lineEnd? cs).getD cs

/-- The character of a one-letter escape. -/
def escapeLetter? (c : Char) : Option Char :=
  if c = 'b' then some '\x08'
  else if c = 't' then some '\t'
  else if c = 'n' then some '\n'
  else if c = 'f' then some '\x0c'
  else if c = 'r' then some '\r'
  else if c = '"' then some '"'
  else if c = '\\' then some '\\'
  else none

/-- The character of a list of hexadecimal digits. -/
def hexChar? (digits : List Char) : Option Char := do
  let ds ← digits.mapM Text.hexDigit?
  let n := ds.foldl (fun n d => n * 16 + d) 0
  if n < 0xD800 ∨ (0xE000 ≤ n ∧ n < 0x110000) then some (Char.ofNat n) else none

/-- A character in front of what was read. -/
def cons (c : Char) : Option (List Char × List Char) → Option (List Char × List Char) :=
  Option.map fun (cs, rest) => (c :: cs, rest)

/-- The rest of a basic string on one line. -/
def basicLine : List Char → Option (List Char × List Char)
  | [] => none
  | '"' :: rest => some ([], rest)
  | '\\' :: 'u' :: a :: b :: c :: d :: rest =>
    (hexChar? [a, b, c, d]).bind fun x => cons x (basicLine rest)
  | '\\' :: 'U' :: a :: b :: c :: d :: e :: f :: g :: h :: rest =>
    (hexChar? [a, b, c, d, e, f, g, h]).bind fun x => cons x (basicLine rest)
  | '\\' :: e :: rest => (escapeLetter? e).bind fun x => cons x (basicLine rest)
  | c :: rest => if isPrintable c ∧ c ≠ '\\' then cons c (basicLine rest) else none

/-- The rest of a literal string on one line. -/
def literalLine : List Char → Option (List Char × List Char)
  | [] => none
  | '\'' :: rest => some ([], rest)
  | c :: rest => if isPrintable c then cons c (literalLine rest) else none

/-- The rest of a basic string on several lines. While `joining`, behind a backslash at the end of a line,
blanks and line ends are dropped. -/
def basicLines (joining : Bool) : List Char → Option (List Char × List Char)
  | [] => none
  | '"' :: '"' :: '"' :: '"' :: '"' :: rest => some (['"', '"'], rest)
  | '"' :: '"' :: '"' :: '"' :: rest => some (['"'], rest)
  | '"' :: '"' :: '"' :: rest => some ([], rest)
  | '\n' :: rest => if joining then basicLines true rest else cons '\n' (basicLines false rest)
  | '\r' :: '\n' :: rest =>
    if joining then basicLines true rest else cons '\n' (basicLines false rest)
  | '\\' :: 'u' :: a :: b :: c :: d :: rest =>
    (hexChar? [a, b, c, d]).bind fun x => cons x (basicLines false rest)
  | '\\' :: 'U' :: a :: b :: c :: d :: e :: f :: g :: h :: rest =>
    (hexChar? [a, b, c, d, e, f, g, h]).bind fun x => cons x (basicLines false rest)
  | '\\' :: e :: rest =>
    if (lineEnd? (skipSpaces (e :: rest))).isSome then basicLines true (e :: rest)
    else (escapeLetter? e).bind fun x => cons x (basicLines false rest)
  | c :: rest =>
    if joining ∧ isSpace c then basicLines true rest
    else if isPrintable c ∧ c ≠ '\\' then cons c (basicLines false rest)
    else none

/-- The rest of a literal string on several lines. -/
def literalLines : List Char → Option (List Char × List Char)
  | [] => none
  | '\'' :: '\'' :: '\'' :: '\'' :: '\'' :: rest => some (['\'', '\''], rest)
  | '\'' :: '\'' :: '\'' :: '\'' :: rest => some (['\''], rest)
  | '\'' :: '\'' :: '\'' :: rest => some ([], rest)
  | '\n' :: rest => cons '\n' (literalLines rest)
  | '\r' :: '\n' :: rest => cons '\n' (literalLines rest)
  | c :: rest => if isPrintable c then cons c (literalLines rest) else none

/-- What was read as text. -/
def asText (read : Option (List Char × List Char)) : Option (String × List Char) :=
  read.map fun (cs, rest) => (String.ofList cs, rest)

/-- A string of any kind. -/
def readString : List Char → Option (String × List Char)
  | '"' :: '"' :: '"' :: rest => asText (basicLines false (dropLineEnd rest))
  | '"' :: rest => asText (basicLine rest)
  | '\'' :: '\'' :: '\'' :: rest => asText (literalLines (dropLineEnd rest))
  | '\'' :: rest => asText (literalLine rest)
  | _ => none

/-- A character of a bare word. -/
def isBare (c : Char) : Bool :=
  c.isAlphanum || c == '-' || c == '_'

/-- A key without dots, a bare word or a string on one line. -/
def readName : List Char → Option (String × List Char)
  | '"' :: rest => asText (basicLine rest)
  | '\'' :: rest => asText (literalLine rest)
  | cs =>
    match cs.takeWhile isBare with
    | [] => none
    | name => some (String.ofList name, cs.dropWhile isBare)

/-- The most names that a dotted key may have. -/
def keyLimit : Nat := 79

/-- The names of a dotted key, with blanks around each of them. -/
def readNames : (fuel : Nat) → List Char → Option (List String × List Char)
  | 0, _ => none
  | fuel + 1, cs => do
    let (name, rest) ← readName (skipSpaces cs)
    match skipSpaces rest with
    | '.' :: rest => do
      let (names, rest) ← readNames fuel rest
      return (name :: names, rest)
    | rest => return ([name], rest)

/-- A dotted key, with blanks around it. -/
def readKey (cs : List Char) : Option (List String × List Char) :=
  readNames keyLimit cs

end SeriesPivot.Toml
