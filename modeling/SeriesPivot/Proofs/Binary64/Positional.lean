import SeriesPivot.Proofs.Binary64.Arithmetic
import SeriesPivot.Proofs.Binary64.ReadBack

/-!
# Reading positional text back

A double in positional text is its digits with a point among them, however many these are. Read with one
rounding, they are the double again, so no double is lost in this text and none is taken for another.

* `ofPositional` reads a sign, digits and a point.
* `mem_toPositional`: no other characters are written.
* `ofPositional_toPositional`: a finite double is read back.
-/

namespace SeriesPivot

namespace Decimal

/-- A decimal in positional text: a point stands only before a fraction. -/
def positional (d : Decimal) : String :=
  if d.split.2.isEmpty then d.split.1 else d.split.1 ++ "." ++ d.split.2

theorem mem_positional {d : Decimal} {c : Char} (h : c ∈ d.positional.toList) :
    c.isDigit = true ∨ c = '.' := by
  unfold positional at h
  split_ifs at h
  · exact .inl (isDigit_of_mem_split (.inl h))
  · rw [String.toList_append, String.toList_append, List.mem_append, List.mem_append] at h
    rcases h with (h | h) | h
    · exact .inl (isDigit_of_mem_split (.inl h))
    · exact .inr (by simpa using h)
    · exact .inl (isDigit_of_mem_split (.inr h))

/-- The digits before and after a point. -/
def splitPoint (cs : List Char) : List Char × List Char :=
  (cs.takeWhile (· != '.'), (cs.dropWhile (· != '.')).tail)

/-- Positional text is taken apart at its point. -/
theorem splitPoint_positional (d : Decimal) :
    splitPoint d.positional.toList = (d.split.1.toList, d.split.2.toList) := by
  have hwhole := ne_of_isDigit (fun c hc => isDigit_of_mem_split (d := d) (c := c) (.inl hc))
    (show '.'.isDigit = false from rfl)
  unfold positional splitPoint
  split_ifs with hempty
  · have hnil : d.split.2.toList = [] := by simpa [String.isEmpty_iff] using hempty
    rw [List.takeWhile_eq_self_iff.2 hwhole, List.dropWhile_eq_nil_iff.2 hwhole, hnil, List.tail_nil]
  · rw [String.toList_append, String.toList_append, List.append_assoc,
      List.takeWhile_append_of_pos hwhole, List.dropWhile_append_of_pos hwhole]
    simp

end Decimal

namespace Binary64

/-- The double nearest to digits with a point among them. -/
def ofDigits (negative : Bool) (cs : List Char) : Option Binary64 :=
  let (whole, fraction) := Decimal.splitPoint cs
  if (whole ++ fraction).all Char.isDigit then
    ofRatio negative (Decimal.readDigits (whole ++ fraction)) (10 ^ fraction.length)
  else none

/-- The double nearest to a decimal with a point and without an exponent. -/
def ofPositional : List Char → Option Binary64
  | '-' :: cs => ofDigits true cs
  | cs => ofDigits false cs

theorem toPositional_eq (x : Binary64) :
    x.toPositional = x.signText ++ (Decimal.ofBinary64 .larger x).positional := rfl

theorem mem_toPositional {x : Binary64} {c : Char} (h : c ∈ x.toPositional.toList) :
    c.isDigit = true ∨ c = '.' ∨ c = '-' := by
  rw [toPositional_eq, String.toList_append, List.mem_append] at h
  rcases h with h | h
  · unfold signText at h
    split_ifs at h
    · exact .inr (.inr (by simpa using h))
    · cases h
  · exact (Decimal.mem_positional h).imp_right .inl

/-- Zero is halfway between the doubles next to it. -/
theorem rounds_zero {x : Binary64} (hx : x.significand = 0) : x.Rounds 0 := by
  unfold Rounds
  rw [interval_eq]
  simp [hx]

/-- The digits of a double round to it. -/
theorem rounds_value (tie : Decimal.Tie) {x : Binary64} (hx : x.Canonical) :
    x.Rounds (Decimal.ofBinary64 tie x).value := by
  by_cases hzero : x.significand = 0
  · rw [Decimal.value_of_isZero tie hzero]
    exact rounds_zero hzero
  · exact (Decimal.rounds_ofBinary64 tie hx hzero).2

/-- The digits of a finite double are read as it, up to the sign. -/
theorem ofDigits_positional (tie : Decimal.Tie) {x : Binary64} (hx : x.Finite) :
    ofDigits x.negative (Decimal.ofBinary64 tie x).positional.toList = some x := by
  have hvalue := Decimal.readDigits_split (Decimal.lt_ten_of_mem_ofBinary64 tie x)
  have hrounds := rounds_value tie hx.canonical
  unfold ofDigits
  rw [Decimal.splitPoint_positional]
  generalize Decimal.ofBinary64 tie x = d at hvalue hrounds ⊢
  have hdigits : (d.split.1.toList ++ d.split.2.toList).all Char.isDigit = true := by
    rw [List.all_eq_true]
    intro c hc
    exact Decimal.isDigit_of_mem_split (List.mem_append.1 hc)
  dsimp only
  rw [if_pos hdigits]
  refine ofRatio_eq_some hx (by positivity) ?_
  rwa [Nat.cast_pow, Nat.cast_ofNat, div_eq_mul_inv, ← zpow_natCast, ← zpow_neg, hvalue]

/-- A finite double is read back from positional text. -/
theorem ofPositional_toPositional {x : Binary64} (hx : x.Finite) :
    ofPositional x.toPositional.toList = some x := by
  have hread := ofDigits_positional .larger hx
  rw [toPositional_eq, String.toList_append]
  unfold signText
  cases hsign : x.negative with
  | true =>
    rw [hsign] at hread
    exact hread
  | false =>
    rw [hsign] at hread
    have hplain : ∀ c ∈ (Decimal.ofBinary64 .larger x).positional.toList, c ≠ '-' := by
      rintro c hc rfl
      rcases Decimal.mem_positional hc with h | h <;> revert h <;> decide
    change ofPositional (Decimal.ofBinary64 .larger x).positional.toList = some x
    generalize (Decimal.ofBinary64 .larger x).positional.toList = cs at hread hplain ⊢
    unfold ofPositional
    split
    · exact absurd rfl (hplain '-' List.mem_cons_self)
    · exact hread

end Binary64

end SeriesPivot
