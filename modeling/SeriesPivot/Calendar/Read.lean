import SeriesPivot.Calendar.Instant

/-!
# Reading instants

`Instant.read?` accepts, in this order and after trimming blanks,

* RFC 3339 with a four-digit year, the separator `T`, `t` or a blank, an optional fraction of a second
  and an offset;
* a date and a time of day without an offset, separated by `T` or by any number of blanks;
* a date alone, at midnight;
* a signed 64-bit integer, as epoch milliseconds.

In the forms without an offset a number may follow blanks and may have fewer digits than usual, and a
year with a sign may have more than four. The second 60 is a leap second, after any minute. Digits of a
fraction beyond the ninth do not count.
-/

namespace SeriesPivot

namespace Scan

/-- A step that takes characters from the front of a text, or fails. -/
abbrev Step (α : Type) := StateT (List Char) Option α

/-- The next characters are these. -/
def expect (c : Char) : Step Unit := fun cs =>
  match cs with
  | c' :: rest => if c = c' then some ((), rest) else none
  | [] => none

/-- Leading blanks, if any. -/
def blanks : Step Unit := fun cs => some ((), Text.skipBlanks cs)

/-- From `least` to `most` digits. -/
def number (least most : Nat) : Step Nat := fun cs =>
  let (ds, _) := Text.digits (cs.take most)
  if ds.length < least then none else some (Text.ofDigits ds, cs.drop ds.length)

/-- One digit or more. -/
def digits : Step (List Nat) := fun cs =>
  match Text.digits cs with
  | ([], _) => none
  | (ds, rest) => some (ds, rest)

/-- A step after which the text is at its end. -/
def whole {α : Type} (step : Step α) (cs : List Char) : Option α :=
  match step cs with
  | some (a, []) => some a
  | _ => none

/-- A fraction of a second behind a point, in nanoseconds; zero where there is no point. -/
def fraction : Step Nat := fun cs =>
  match cs with
  | '.' :: rest => do
    let (ds, rest) ← digits rest
    let used := ds.take 9
    some (Text.ofDigits used * Nat.pow 10 (9 - used.length), rest)
  | _ => some (0, cs)

end Scan

namespace Instant

open Scan

/-- A time of day from its fields; the second 60 is a leap second. -/
def clock? (hour minute second nanos : Nat) : Option TimeOfDay :=
  if hour < 24 ∧ minute < 60 ∧ second ≤ 60 then
    some (if second = 60 then ⟨hour, minute, 59, nanos + 1000000000⟩
      else ⟨hour, minute, second, nanos⟩)
  else none

/-- The instant of the fields of a date and a time of day. -/
def ofFields? (year : Int) (month day : Nat) (clock : Option TimeOfDay) : Option Instant :=
  let date : Date := ⟨year, month, day⟩
  if date.isValid then clock.map (ofCivil date) else none

/-- An offset from UTC in minutes: `Z`, or a sign, two digits, a colon and two digits. The hyphen may be
the minus sign U+2212. -/
def offset : Step Int := fun cs =>
  let minutes (negative : Bool) : Step Int := do
    let hours ← number 2 2
    expect ':'
    let minutes ← number 2 2
    if minutes < 60 ∧ hours < 24 then
      let total : Int := hours * 60 + minutes
      return if negative then -total else total
    else failure
  match cs with
  | 'Z' :: rest => some (0, rest)
  | 'z' :: rest => some (0, rest)
  | '+' :: rest => minutes false rest
  | '-' :: rest => minutes true rest
  | '−' :: rest => minutes true rest
  | _ => none

/-- The character between date and time of day in RFC 3339. -/
def separator : Step Unit := fun cs =>
  match cs with
  | c :: rest => if c = 'T' ∨ c = 't' ∨ c = ' ' then some ((), rest) else none
  | [] => none

/-- RFC 3339. -/
def rfc3339 : Step Instant := do
  let year ← number 4 4
  expect '-'
  let month ← number 2 2
  expect '-'
  let day ← number 2 2
  separator
  let hour ← number 2 2
  expect ':'
  let minute ← number 2 2
  expect ':'
  let second ← number 2 2
  let nanos ← fraction
  let minutes ← offset
  let t ← ofFields? year month day (clock? hour minute second nanos)
  return { t with seconds := t.seconds - minutes * 60 }

/-- A year of up to four digits, or of any number of digits behind a sign. -/
def year : Step Int := do
  blanks
  fun cs => match cs with
    | '-' :: rest => do
      let (ds, rest) ← digits rest
      some (-(Text.ofDigits ds : Int), rest)
    | '+' :: rest => do
      let (ds, rest) ← digits rest
      some ((Text.ofDigits ds : Int), rest)
    | _ => do
      let (n, rest) ← number 1 4 cs
      some ((n : Int), rest)

/-- One or two digits behind optional blanks. -/
def shortNumber : Step Nat := do
  blanks
  number 1 2

/-- The fields of a date. -/
def dateFields : Step (Int × Nat × Nat) := do
  let y ← year
  expect '-'
  let month ← shortNumber
  expect '-'
  let day ← shortNumber
  return (y, month, day)

/-- A date and a time of day, with `between` between them. -/
def dateAndTime (between : Step Unit) : Step Instant := do
  let (y, month, day) ← dateFields
  between
  let hour ← shortNumber
  expect ':'
  let minute ← shortNumber
  expect ':'
  let second ← shortNumber
  let nanos ← fraction
  ofFields? y month day (clock? hour minute second nanos)

/-- A date, at midnight. -/
def dateOnly : Step Instant := do
  let (y, month, day) ← dateFields
  ofFields? y month day (some ⟨0, 0, 0, 0⟩)

/-- The instant that a text denotes. -/
def read? (text : String) : Option Instant :=
  let s := Text.trim text
  let cs := s.toList
  whole rfc3339 cs <|> whole (dateAndTime blanks) cs <|> whole (dateAndTime (expect 'T')) cs <|>
    whole dateOnly cs <|> (Text.readInt64 s).bind ofMillis?

end Instant

end SeriesPivot
