import SeriesPivot.Calendar.Read
import SeriesPivot.Toml.Basic

/-!
# Numbers, truth values and times of TOML

A scalar that is no string is a word up to the next blank, comma, bracket, brace or comment; only a date may
be followed by one blank and a time.

* Single underscores may stand between digits.
* An integer is a signed 64-bit integer, in decimal, or without a sign in hexadecimal (`0x`), octal (`0o`)
  or binary (`0b`).
* A float is a decimal with a fraction or an exponent, or `inf` or `nan` with an optional sign. A positive
  one beyond the largest double is refused.
* Times are checked and kept as written.
-/

namespace SeriesPivot.Toml

/-- Digits with single underscores between them, as the digits alone. -/
def plainDigits (isDigit : Char → Bool) (cs : List Char) : Option (List Char) :=
  let groups := Text.splitOn (· == '_') cs
  if groups.all fun g => !g.isEmpty && g.all isDigit then some groups.flatten else none

/-- The value of digits in a base. -/
def valueOf (base : Nat) (cs : List Char) : Nat :=
  (cs.filterMap Text.hexDigit?).foldl (fun n d => n * base + d) 0

/-- A sign, if there is one, and what follows it; true for minus. -/
def sign : List Char → Bool × List Char
  | '-' :: cs => (true, cs)
  | '+' :: cs => (false, cs)
  | cs => (false, cs)

/-- The digits of a decimal whole number, which has no leading zeros. -/
def wholeDigits (cs : List Char) : Option (List Char) := do
  let ds ← plainDigits Char.isDigit cs
  if ds.head? = some '0' ∧ 1 < ds.length then none else some ds

/-- An integer within the signed 64-bit range. -/
def bounded (n : Int) : Option Node :=
  if Text.fitsInt64 n then some (.integer n) else none

/-- An integer. -/
def integer? (cs : List Char) : Option Node :=
  match cs with
  | '0' :: 'x' :: ds => do
    bounded (valueOf 16 (← plainDigits (fun c => (Text.hexDigit? c).isSome) ds))
  | '0' :: 'o' :: ds => do bounded (valueOf 8 (← plainDigits (fun c => '0' ≤ c && c ≤ '7') ds))
  | '0' :: 'b' :: ds => do bounded (valueOf 2 (← plainDigits (fun c => c == '0' || c == '1') ds))
  | _ => do
    let (negative, ds) := sign cs
    let n := valueOf 10 (← wholeDigits ds)
    bounded (if negative then -(n : Int) else n)

/-- A digit or an underscore. -/
def isDigitPart (c : Char) : Bool :=
  c.isDigit || c == '_'

/-- A finite float from the digits before and behind its point and its exponent. -/
def finite? (negative : Bool) (whole fraction : List Char) (exponent : Int) : Option Node :=
  let scale : Int := exponent - fraction.length
  match Binary64.ofScientific negative (valueOf 10 (whole ++ fraction)) scale with
  | some x => some (.float (some x))
  | none => if negative then some (.float none) else none

/-- The exponent of a float, up to the end of the word. -/
def exponent? (cs : List Char) : Option Int := do
  let (down, ds) := sign cs
  let n := valueOf 10 (← plainDigits Char.isDigit ds)
  return if down then -(n : Int) else n

/-- What follows the whole part of a float: its fraction and its exponent, of which there is one at
least. -/
def floatTail? (cs : List Char) : Option (List Char × Int) :=
  match cs with
  | '.' :: rest => do
    let fraction ← plainDigits Char.isDigit (rest.takeWhile isDigitPart)
    match rest.dropWhile isDigitPart with
    | [] => return (fraction, 0)
    | c :: rest => if c = 'e' ∨ c = 'E' then return (fraction, ← exponent? rest) else none
  | c :: rest => if c = 'e' ∨ c = 'E' then do return ([], ← exponent? rest) else none
  | [] => none

/-- A float. -/
def float? (cs : List Char) : Option Node :=
  let (negative, body) := sign cs
  if body = "inf".toList ∨ body = "nan".toList then some (.float none)
  else do
    let whole ← wholeDigits (body.takeWhile isDigitPart)
    let (fraction, exponent) ← floatTail? (body.dropWhile isDigitPart)
    finite? negative whole fraction exponent

open Scan in
/-- A date. -/
def fullDate : Scan.Step Unit := do
  let year ← number 4 4
  expect '-'
  let month ← number 2 2
  expect '-'
  let day ← number 2 2
  if (Date.mk year month day).isValid then return () else failure

open Scan in
/-- A time of day. -/
def clock : Scan.Step Unit := do
  let hour ← number 2 2
  expect ':'
  let minute ← number 2 2
  expect ':'
  let second ← number 2 2
  let _ ← fraction
  if hour < 24 ∧ minute < 60 ∧ second ≤ 60 then return () else failure

open Scan in
/-- An offset from UTC, or none. -/
def zone : Scan.Step Unit := fun cs =>
  let minutes : Scan.Step Unit := do
    let hour ← number 2 2
    expect ':'
    let minute ← number 2 2
    if hour < 24 ∧ minute < 60 then return () else failure
  match cs with
  | 'Z' :: rest => some ((), rest)
  | 'z' :: rest => some ((), rest)
  | '+' :: rest => minutes rest
  | '-' :: rest => minutes rest
  | _ => some ((), cs)

open Scan in
/-- The character between a date and a time. -/
def delimiter : Scan.Step Unit := fun cs =>
  match cs with
  | c :: rest => if c = 'T' ∨ c = 't' ∨ c = ' ' then some ((), rest) else none
  | [] => none

/-- Whether the word is a date. -/
def isDate (cs : List Char) : Bool :=
  (Scan.whole fullDate cs).isSome

/-- A date, a time of day, or both with or without an offset. -/
def time? (cs : List Char) : Option Node :=
  let both : Scan.Step Unit := do fullDate; delimiter; clock; zone
  if isDate cs ∨ (Scan.whole clock cs).isSome ∨ (Scan.whole both cs).isSome then
    some (.time (String.ofList cs))
  else none

/-- Where a word ends. -/
def endsWord (c : Char) : Bool :=
  c == ' ' || c == '\t' || c == '\n' || c == '\r' || c == '#' || c == ',' || c == ']' || c == '\x7d'

/-- A word as a value. -/
def scalar? (word : List Char) : Option Node :=
  if word = "true".toList then some (.boolean true)
  else if word = "false".toList then some (.boolean false)
  else time? word <|> float? word <|> integer? word

/-- A scalar that is no string, and the text behind it. -/
def readScalar (cs : List Char) : Option (Node × List Char) :=
  let word := cs.takeWhile fun c => !endsWord c
  let rest := cs.dropWhile fun c => !endsWord c
  match rest with
  | ' ' :: behind =>
    let second := behind.takeWhile fun c => !endsWord c
    if isDate word ∧ second ≠ [] then
      (time? (word ++ ' ' :: second)).map fun node =>
        (node, behind.dropWhile fun c => !endsWord c)
    else (scalar? word).map fun node => (node, rest)
  | _ => (scalar? word).map fun node => (node, rest)

end SeriesPivot.Toml
