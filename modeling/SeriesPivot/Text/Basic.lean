/-!
# Text helpers

Functions on `String` that other modules build their formats from. Each works character by character
through `String.toList`, so a statement about text is a statement about lists of characters.

* `isBlank` is the Unicode property White_Space.
* `escape special quote` puts `quote` in front of every character that `special` holds of.
-/

namespace SeriesPivot.Text

/-- The Unicode property White_Space. -/
def isBlank (c : Char) : Bool :=
  let n := c.toNat
  (0x09 ≤ n && n ≤ 0x0D) || n == 0x20 || n == 0x85 || n == 0xA0 || n == 0x1680 ||
    (0x2000 ≤ n && n ≤ 0x200A) || n == 0x2028 || n == 0x2029 || n == 0x202F || n == 0x205F ||
    n == 0x3000

/-- Drop leading blanks. -/
def skipBlanks (cs : List Char) : List Char :=
  cs.dropWhile isBlank

/-- Drop leading and trailing blanks. -/
def trim (s : String) : String :=
  String.ofList (skipBlanks (skipBlanks s.toList).reverse).reverse

/-- Drop the leading characters that `p` holds of. -/
def trimStartWhile (p : Char → Bool) (s : String) : String :=
  String.ofList (s.toList.dropWhile p)

/-- Drop the trailing characters that `p` holds of. -/
def trimEndWhile (p : Char → Bool) (s : String) : String :=
  String.ofList (s.toList.reverse.dropWhile p).reverse

/-- Replace each character by a list of characters. -/
def expand (f : Char → List Char) (s : String) : String :=
  String.ofList (s.toList.flatMap f)

/-- Put `mark` before each character that `special` holds of. -/
def escape (special : Char → Bool) (mark : Char) (s : String) : String :=
  expand (fun c => if special c then [mark, c] else [c]) s

/-- The text after `start`, when the text begins so. -/
def stripStart? : (start text : List Char) → Option (List Char)
  | [], cs => some cs
  | _ :: _, [] => none
  | p :: ps, c :: cs => if p = c then stripStart? ps cs else none

/-- Whether the text begins with `start`. -/
def startsWith (start text : List Char) : Bool :=
  (stripStart? start text).isSome

/-- Whether `part` occurs in the text. -/
def occursIn (part : List Char) : List Char → Bool
  | [] => part.isEmpty
  | c :: cs => startsWith part (c :: cs) || occursIn part cs

/-- Whether `part` occurs in `s`. -/
def containsText (part s : String) : Bool :=
  occursIn part.toList s.toList

/-- ASCII upper case letters made lower case, all else unchanged. -/
def lowerAscii (s : String) : String :=
  String.ofList (s.toList.map Char.toLower)

/-- Pieces of a text between the characters that `sep` holds of; at least one piece. -/
def splitOn (sep : Char → Bool) : List Char → List (List Char)
  | [] => [[]]
  | c :: cs =>
    if sep c then [] :: splitOn sep cs
    else match splitOn sep cs with
      | [] => [[c]]
      | piece :: pieces => (c :: piece) :: pieces

/-- The value of a decimal digit. -/
def digit? (c : Char) : Option Nat :=
  if '0' ≤ c ∧ c ≤ '9' then some (c.toNat - '0'.toNat) else none

/-- The value of a hexadecimal digit of either case. -/
def hexDigit? (c : Char) : Option Nat :=
  if '0' ≤ c ∧ c ≤ '9' then some (c.toNat - '0'.toNat)
  else if 'a' ≤ c ∧ c ≤ 'f' then some (c.toNat - 'a'.toNat + 10)
  else if 'A' ≤ c ∧ c ≤ 'F' then some (c.toNat - 'A'.toNat + 10)
  else none

/-- The value of a list of decimal digits. -/
def ofDigits (ds : List Nat) : Nat :=
  ds.foldl (fun n d => n * 10 + d) 0

/-- The longest run of decimal digits at the front, and what follows it. -/
def digits : List Char → List Nat × List Char
  | [] => ([], [])
  | c :: cs =>
    match digit? c with
    | some d => let (ds, rest) := digits cs; (d :: ds, rest)
    | none => ([], c :: cs)

/-- `n` in decimal, with zeros in front up to `width` digits. -/
def padNat (width n : Nat) : String :=
  let s := toString n
  String.ofList (List.replicate (width - s.length) '0') ++ s

/-- `s` followed by blanks up to `width` characters. -/
def padEnd (width : Nat) (s : String) : String :=
  s ++ String.ofList (List.replicate (width - s.length) ' ')

/-- A decimal integer with an optional sign and nothing else. -/
def readInt (s : String) : Option Int :=
  let value (cs : List Char) : Option Nat :=
    match digits cs with
    | ([], _) => none
    | (ds, []) => some (ofDigits ds)
    | _ => none
  match s.toList with
  | '-' :: cs => (value cs).map fun n => -(n : Int)
  | '+' :: cs => (value cs).map Int.ofNat
  | cs => (value cs).map Int.ofNat

/-- Whether an integer fits into 64 bits with a sign. -/
def fitsInt64 (n : Int) : Bool :=
  decide (-0x8000000000000000 ≤ n ∧ n < 0x8000000000000000)

/-- A signed 64-bit integer in decimal. -/
def readInt64 (s : String) : Option Int :=
  match readInt s with
  | some n => if fitsInt64 n then some n else none
  | none => none

/-- An unsigned decimal integer below `bound`, with an optional plus sign. -/
def readNatBelow (bound : Nat) (s : String) : Option Nat :=
  let value (cs : List Char) : Option Nat :=
    match digits cs with
    | ([], _) => none
    | (ds, []) => if ofDigits ds < bound then some (ofDigits ds) else none
    | _ => none
  match s.toList with
  | '+' :: cs => value cs
  | cs => value cs

end SeriesPivot.Text
