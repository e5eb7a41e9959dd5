import SeriesPivot.Calendar.Date
import SeriesPivot.Text.Basic

/-!
# Instants

An instant of the supported calendar is a number of seconds since 1970-01-01T00:00:00Z and nanoseconds
within the second. In a leap second, which is the second `:60` after any `:59`, the nanoseconds count on
from `10 ^ 9`.

* `ofCivil?` is the instant of a date and a time of day.
* `ofMillis?` is the instant of epoch milliseconds, if the calendar has it.
* `toLiteral`, `toRfc3339` and `toUtcMillis` write an instant in the three forms that are in use.

Years outside `0 … 9999` are written with their sign.
-/

namespace SeriesPivot

/-- Seconds since the epoch and nanoseconds within the second. -/
structure Instant where
  seconds : Int
  nanos : Nat
  deriving DecidableEq, Repr

/-- A time of day; the nanoseconds count on from `10 ^ 9` in a leap second. -/
structure TimeOfDay where
  hour : Nat
  minute : Nat
  second : Nat
  nanos : Nat
  deriving DecidableEq, Repr

namespace Instant

/-- The first second of the calendar. -/
def firstSecond : Int := Date.toDays ⟨Date.firstYear, 1, 1⟩ * 86400

/-- The last second of the calendar. -/
def lastSecond : Int := (Date.toDays ⟨Date.lastYear, 12, 31⟩ + 1) * 86400 - 1

/-- The instant of a date and time of day, read as UTC. -/
def ofCivil (d : Date) (t : TimeOfDay) : Instant :=
  ⟨d.toDays * 86400 + t.hour * 3600 + t.minute * 60 + t.second, t.nanos⟩

/-- The instant a number of milliseconds after the epoch. -/
def ofMillis? (ms : Int) : Option Instant :=
  let seconds := ms / 1000
  if firstSecond ≤ seconds ∧ seconds ≤ lastSecond then
    some ⟨seconds, (ms % 1000).toNat * 1000000⟩
  else none

/-- Whole milliseconds since the epoch, rounded down. -/
def toMillis (t : Instant) : Int :=
  t.seconds * 1000 + t.nanos / 1000000

/-- The date of an instant. -/
def date (t : Instant) : Date :=
  Date.ofDays (t.seconds / 86400)

/-- The time of day of an instant. -/
def timeOfDay (t : Instant) : TimeOfDay :=
  let s := (t.seconds % 86400).toNat
  ⟨s / 3600, s / 60 % 60, s % 60, t.nanos⟩

/-- A year with four digits at least, and a sign outside `0 … 9999`. -/
def renderYear (year : Int) : String :=
  if 0 ≤ year ∧ year ≤ 9999 then Text.padNat 4 year.natAbs
  else (if year < 0 then "-" else "+") ++ Text.padNat 4 year.natAbs

/-- The date as `year-month-day`. -/
def renderDate (t : Instant) : String :=
  let d := t.date
  renderYear d.year ++ "-" ++ Text.padNat 2 d.month ++ "-" ++ Text.padNat 2 d.day

/-- The time of day as `hour:minute:second`, with the second 60 in a leap second. -/
def renderClock (t : Instant) : String :=
  let c := t.timeOfDay
  Text.padNat 2 c.hour ++ ":" ++ Text.padNat 2 c.minute ++ ":" ++
    Text.padNat 2 (c.second + c.nanos / 1000000000)

/-- Milliseconds within the second as three digits behind a point. -/
def renderMillis (t : Instant) : String :=
  "." ++ Text.padNat 3 (t.nanos / 1000000 % 1000)

/-- Date and time of day with milliseconds, the form of time literals in statements. -/
def toLiteral (t : Instant) : String :=
  t.renderDate ++ " " ++ t.renderClock ++ t.renderMillis

/-- The fraction of a second with 0, 3, 6 or 9 digits, as few as are exact. -/
def renderFraction (t : Instant) : String :=
  let nanos := t.nanos % 1000000000
  if nanos = 0 then ""
  else if nanos % 1000000 = 0 then "." ++ Text.padNat 3 (nanos / 1000000)
  else if nanos % 1000 = 0 then "." ++ Text.padNat 6 (nanos / 1000)
  else "." ++ Text.padNat 9 nanos

/-- RFC 3339 with the offset `+00:00`. -/
def toRfc3339 (t : Instant) : String :=
  t.renderDate ++ "T" ++ t.renderClock ++ t.renderFraction ++ "+00:00"

/-- RFC 3339 with milliseconds and the offset `Z`. -/
def toUtcMillis (t : Instant) : String :=
  t.renderDate ++ "T" ++ t.renderClock ++ t.renderMillis ++ "Z"

end Instant

end SeriesPivot
