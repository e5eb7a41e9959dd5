/-!
# Finite binary64 numbers

A finite double is a sign, a significand below `2 ^ 53` and a scale: its magnitude is
`significand * 2 ^ scale / 2 ^ 1074`, and the significand is at least `2 ^ 52` unless the scale is 0.
All arithmetic is exact arithmetic on natural numbers, rounded once.

* `ofRatio` rounds a quotient of natural numbers to the nearest double, a tie to the even significand.
* `mul` and `div` round the exact product and quotient.
* `truncate` is the integer part.
* `ofScientific` rounds a decimal once; `ofDecimal` rounds it in the steps that JSON numbers are read in.

Magnitudes that round to `2 ^ 1024` or more have no finite double, and the result is `none`.
-/

namespace SeriesPivot

/-- A finite double, of magnitude `significand * 2 ^ scale / 2 ^ 1074`. -/
structure Binary64 where
  negative : Bool
  significand : Nat
  scale : Nat
  deriving DecidableEq, Repr, Inhabited

namespace Binary64

/-- Positive zero. -/
def zero : Binary64 := ⟨false, 0, 0⟩

/-- Whether the number is one of the two zeros. -/
def isZero (x : Binary64) : Bool := x.significand == 0

/-- The number with its sign flipped. -/
def neg (x : Binary64) : Binary64 := { x with negative := !x.negative }

/-- The quotient to the nearest integer, a tie to the even one. -/
def divHalfEven (n d : Nat) : Nat :=
  let q := n / d
  let r := n % d
  if 2 * r < d then q
  else if d < 2 * r then q + 1
  else if q % 2 = 0 then q else q + 1

/-- The double nearest to `num / den` for positive `den`, or `none` beyond the largest one. -/
def ofRatio (negative : Bool) (num den : Nat) : Option Binary64 :=
  let scaled := num <<< 1074
  let floor := scaled / den
  let scale := if floor < 1 <<< 53 then 0 else Nat.log2 floor - 52
  let significand := divHalfEven scaled (den <<< scale)
  let rounded : Binary64 :=
    if significand < 1 <<< 53 then ⟨negative, significand, scale⟩
    else ⟨negative, 1 <<< 52, scale + 1⟩
  if rounded.scale ≤ 2045 then some rounded else none

/-- The double nearest to an integer of moderate size; zero where there is none. -/
def ofInt (n : Int) : Binary64 :=
  (ofRatio (decide (n < 0)) n.natAbs 1).getD zero

/-- The rounded product. -/
def mul (x y : Binary64) : Option Binary64 :=
  ofRatio (x.negative != y.negative) ((x.significand * y.significand) <<< (x.scale + y.scale))
    (1 <<< 2148)

/-- The rounded quotient by a nonzero number. -/
def div (x y : Binary64) : Option Binary64 :=
  ofRatio (x.negative != y.negative) (x.significand <<< x.scale) (y.significand <<< y.scale)

/-- The integer part, toward zero. -/
def truncate (x : Binary64) : Int :=
  let magnitude : Nat := (x.significand <<< x.scale) >>> 1074
  if x.negative then -(magnitude : Int) else magnitude

/-- The nearest double to a power of ten with exponent at most 308. -/
def pow10 (k : Nat) : Option Binary64 :=
  ofRatio false (Nat.pow 10 k) 1

/-- Multiply by a power of ten in the steps of one rounding each that decimal reading uses: up to
`10 ^ 308` at once, and repeated division by `10 ^ 308` below that. `steps` bounds the divisions; after
three of them nothing but zero is left. -/
def scaleByPow10 (x : Binary64) (exponent : Int) : (steps : Nat) → Option Binary64
  | 0 => some { x with significand := 0, scale := 0 }
  | steps + 1 =>
    if exponent.natAbs ≤ 308 then do
      let power ← pow10 exponent.natAbs
      if 0 ≤ exponent then mul x power else div x power
    else if x.isZero then some x
    else if 0 ≤ exponent then none
    else do
      let power ← pow10 308
      let smaller ← div x power
      scaleByPow10 smaller (exponent + 308) steps

/-- The double that a decimal significand and exponent are read as: the significand is rounded first
and then scaled, so a long significand may come out one unit off the nearest double. -/
def ofDecimal (negative : Bool) (significand : Nat) (exponent : Int) : Option Binary64 := do
  let x ← ofRatio false significand 1
  let y ← scaleByPow10 x exponent 5
  return { y with negative := negative }

/-- The double nearest to `significand * 10 ^ exponent`. Exponents out of reach of the significand are
decided without computing the power. -/
def ofScientific (negative : Bool) (significand : Nat) (exponent : Int) : Option Binary64 :=
  let nothing : Binary64 := { zero with negative := negative }
  if significand = 0 then some nothing
  else if 400 < exponent then none
  else if 0 ≤ exponent then ofRatio negative (significand * Nat.pow 10 exponent.toNat) 1
  else if exponent < -(400 + Nat.log2 significand : Int) then some nothing
  else ofRatio negative significand (Nat.pow 10 exponent.natAbs)

end Binary64

end SeriesPivot
