import SeriesPivot.Binary64.Basic

/-!
# Shortest decimal text of a double

The digits of a double are the fewest that read back to it, and of those the nearest to its value.
`Decimal.ofBinary64` finds them by trying 1, 2, … 17 digits: on each decimal grid only the two neighbours
of the value can lie in the interval of reals that round to it, ends included when the significand is
even.

Two layouts put digits into text.

* `Binary64.toExponential` is positional while the decimal point lies within `-4 … 16` digits of the
  first one, always with a fractional digit, and has an exponent with its sign elsewhere. Halfway between
  two decimals the even one is taken.
* `Binary64.toPositional` never has an exponent, and a fractional part only if there is one. Halfway
  between two decimals the larger one is taken.
-/

namespace SeriesPivot

/-- Decimal digits `digits` with the decimal point after the first `point` of them. -/
structure Decimal where
  digits : List Nat
  point : Int
  deriving DecidableEq, Repr

namespace Decimal

/-- The decimal digits of a natural number, most significant first. -/
def digitsOf (n : Nat) : List Nat :=
  (toString n).toList.map fun c => c.toNat - '0'.toNat

/-- Without trailing zeros. -/
def stripZeros (ds : List Nat) : List Nat :=
  (ds.reverse.dropWhile (· == 0)).reverse

/-- The interval of reals that round to `x`, times `2 ^ 1076`: lower end, value, upper end. -/
def interval (x : Binary64) : Nat × Nat × Nat :=
  let unit := 1 <<< x.scale
  let below := if x.significand = 1 <<< 52 ∧ 0 < x.scale then 1 else 2
  ((4 * x.significand - below) * unit, 4 * x.significand * unit, (4 * x.significand + 2) * unit)

/-- A decimal `n * 10 ^ e` and the interval on one integer scale. -/
def onGrid (x : Binary64) (e : Int) : Nat × Nat × Nat × Nat :=
  let (low, value, high) := interval x
  let power := Nat.pow 10 e.natAbs
  if 0 ≤ e then (power <<< 1076, low, value, high)
  else (1 <<< 1076, low * power, value * power, high * power)

/-- Which of two equally near magnitudes stands for a value. -/
inductive Tie where
  | even | larger
  deriving DecidableEq, Repr

/-- Whether the magnitude `n` gives way to `n + 1` halfway between them. -/
def Tie.passes (tie : Tie) (n : Nat) : Bool :=
  match tie with
  | .even => n % 2 == 1
  | .larger => true

/-- The neighbour of the value on the grid `10 ^ e` that reads back to `x`, the nearer if both do. -/
def candidate (tie : Tie) (x : Binary64) (e : Int) : Option Nat :=
  let (step, low, value, high) := onGrid x e
  let down := value / step
  let inside (n : Nat) : Bool :=
    if x.significand % 2 = 0 then decide (low ≤ n * step ∧ n * step ≤ high)
    else decide (low < n * step ∧ n * step < high)
  let downIn := inside down && down != 0
  let upIn := inside (down + 1)
  if downIn && upIn then
    let twice := 2 * (value - down * step)
    if step < twice ∨ (twice = step ∧ tie.passes down) then some (down + 1) else some down
  else if downIn then some down
  else if upIn then some (down + 1)
  else none

/-- The exponent `k` with `10 ^ (k - 1) ≤ x < 10 ^ k`, for nonzero `x`. -/
def magnitude (x : Binary64) : Int :=
  let num := x.significand <<< x.scale
  if 1 <<< 1074 ≤ num then ((toString (num >>> 1074)).length : Int)
  else
    let scaled := (num * Nat.pow 10 324) >>> 1074
    (toString scaled).length - 324

/-- The first grid of `count`, `count + 1`, … digits with a decimal that reads back. -/
def search (tie : Tie) (x : Binary64) (k : Int) (count : Nat) : (tries : Nat) → Nat × Int
  | 0 => (0, 0)
  | tries + 1 =>
    match candidate tie x (k - count) with
    | some n => (n, k - count)
    | none => search tie x k (count + 1) tries

/-- The fewest digits that read back to `x`, nearest to its value. -/
def ofBinary64 (tie : Tie) (x : Binary64) : Decimal :=
  if x.isZero then ⟨[0], 1⟩
  else
    let (n, e) := search tie x (magnitude x) 1 18
    let ds := digitsOf n
    ⟨stripZeros ds, e + ds.length⟩

/-- Digits as text. -/
def render (ds : List Nat) : String :=
  String.join (ds.map toString)

/-- As many zeros as asked for. -/
def zeros (n : Nat) : String :=
  String.ofList (List.replicate n '0')

/-- Digits before and after the decimal point, without an exponent. -/
def split (d : Decimal) : String × String :=
  let n := d.digits.length
  if d.point ≤ 0 then ("0", zeros d.point.natAbs ++ render d.digits)
  else if d.point.natAbs < n then
    (render (d.digits.take d.point.natAbs), render (d.digits.drop d.point.natAbs))
  else (render d.digits ++ zeros (d.point.natAbs - n), "")

/-- One digit, the others behind a point, and a signed exponent. -/
def exponential (d : Decimal) : String :=
  let e := d.point - 1
  let lead := render (d.digits.take 1)
  let tail := render (d.digits.drop 1)
  let mark := if e < 0 then "-" else "+"
  (if tail.isEmpty then lead else lead ++ "." ++ tail) ++ "e" ++ mark ++ toString e.natAbs

end Decimal

namespace Binary64

/-- The sign of a negative number, of negative zero too. -/
def signText (x : Binary64) : String :=
  if x.negative then "-" else ""

/-- Positional with at least one fractional digit near one, exponential elsewhere. -/
def toExponential (x : Binary64) : String :=
  let d := Decimal.ofBinary64 .even x
  x.signText ++
    if -4 ≤ d.point ∧ d.point ≤ 16 then
      let (whole, fraction) := d.split
      whole ++ "." ++ (if fraction.isEmpty then "0" else fraction)
    else d.exponential

/-- Positional, with a decimal point only before a nonzero fraction. -/
def toPositional (x : Binary64) : String :=
  let (whole, fraction) := (Decimal.ofBinary64 .larger x).split
  x.signText ++ (if fraction.isEmpty then whole else whole ++ "." ++ fraction)

end Binary64

end SeriesPivot
