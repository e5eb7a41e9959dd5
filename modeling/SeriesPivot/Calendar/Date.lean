/-!
# Civil dates

Dates of the proleptic Gregorian calendar, with the year 0 before the year 1, and their day numbers
counted from 1970-01-01.

* `Date.isValid` says which triples are dates.
* `Date.toDays` and `Date.ofDays` go between dates and day numbers.
* `Date.firstYear` and `Date.lastYear` bound the years that instants may have.
-/

namespace SeriesPivot

/-- A year, a month from 1 and a day from 1. -/
structure Date where
  year : Int
  month : Nat
  day : Nat
  deriving DecidableEq, Repr

namespace Date

/-- The first year of the supported calendar. -/
def firstYear : Int := -262143

/-- The last year of the supported calendar. -/
def lastYear : Int := 262142

/-- Whether the year has a 29th of February. -/
def isLeap (year : Int) : Bool :=
  year % 4 == 0 && (year % 100 != 0 || year % 400 == 0)

/-- The number of days of a month. -/
def daysInMonth (year : Int) (month : Nat) : Nat :=
  if month = 2 then (if isLeap year then 29 else 28)
  else if month = 4 ∨ month = 6 ∨ month = 9 ∨ month = 11 then 30
  else 31

/-- Whether the triple is a date of the supported calendar. -/
def isValid (d : Date) : Bool :=
  decide (firstYear ≤ d.year ∧ d.year ≤ lastYear ∧ 1 ≤ d.month ∧ d.month ≤ 12 ∧
    1 ≤ d.day ∧ d.day ≤ daysInMonth d.year d.month)

/-- The number of days from 0000-01-01 to the first day of a year. -/
def daysBeforeYear (year : Int) : Int :=
  365 * year + (year + 3) / 4 - (year + 99) / 100 + (year + 399) / 400

/-- The number of days of a year before the first day of a month. -/
def daysBeforeMonth (leap : Bool) (month : Nat) : Nat :=
  let leapDay := if leap ∧ 2 < month then 1 else 0
  leapDay + match month with
    | 0 | 1 => 0
    | 2 => 31
    | 3 => 59
    | 4 => 90
    | 5 => 120
    | 6 => 151
    | 7 => 181
    | 8 => 212
    | 9 => 243
    | 10 => 273
    | 11 => 304
    | _ => 334

/-- The day number of 1970-01-01 counted from 0000-01-01. -/
def epochDay : Int := 719528

/-- The number of days from 1970-01-01 to the date. -/
def toDays (d : Date) : Int :=
  daysBeforeYear d.year + daysBeforeMonth (isLeap d.year) d.month + d.day - 1 - epochDay

/-- The year of a day counted from 0000-01-01: an estimate by the mean length of a year is off by one at
most. -/
def yearOfDay (n : Int) : Int :=
  let estimate := n * 400 / 146097
  if n < daysBeforeYear estimate then estimate - 1
  else if daysBeforeYear (estimate + 1) ≤ n then estimate + 1
  else estimate

/-- The month of a day counted from the first day of its year. -/
def monthOfDay (leap : Bool) (n : Nat) : Nat :=
  let before := daysBeforeMonth leap
  if n < before 2 then 1 else if n < before 3 then 2 else if n < before 4 then 3
  else if n < before 5 then 4 else if n < before 6 then 5 else if n < before 7 then 6
  else if n < before 8 then 7 else if n < before 9 then 8 else if n < before 10 then 9
  else if n < before 11 then 10 else if n < before 12 then 11 else 12

/-- The date a number of days after 1970-01-01. -/
def ofDays (days : Int) : Date :=
  let n := days + epochDay
  let year := yearOfDay n
  let rest := (n - daysBeforeYear year).toNat
  let month := monthOfDay (isLeap year) rest
  ⟨year, month, rest - daysBeforeMonth (isLeap year) month + 1⟩

end Date

end SeriesPivot
