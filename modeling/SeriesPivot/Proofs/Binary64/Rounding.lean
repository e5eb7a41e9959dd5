import SeriesPivot.Binary64.Shortest
import Mathlib.Algebra.Order.Field.Power
import Mathlib.Data.List.DropRight
import Mathlib.Data.Nat.Cast.Order.Field
import Mathlib.Data.Nat.Digits.Defs
import Mathlib.Tactic.FieldSimp
import Mathlib.Tactic.Linarith
import Mathlib.Tactic.NormNum
import Mathlib.Tactic.Positivity
import Mathlib.Tactic.Ring

/-!
# Decimals that round to a double

A double stands for the rationals that round to it, and the digits that are written for it are such a
rational.

* `Binary64.Canonical` says that a double is kept with 53 bits, or with fewer at the smallest scale.
* `Binary64.Rounds` are the rationals that round to a double. Those of different doubles are disjoint
  (`eq_of_rounds`): neighbours have one end in common, which belongs to the one that is even.
* `Decimal.search` finds a decimal within eighteen digits (`exists_candidate_eq`), since eighteen digits
  are a finer grid than half the distance to the next double.
* `rounds_ofBinary64`: the digits of a nonzero double round to it.
-/

namespace SeriesPivot

namespace Binary64

/-- A double as it is kept: with 53 bits, or with fewer at the smallest scale. -/
structure Canonical (x : Binary64) : Prop where
  lt_two_pow : x.significand < 2 ^ 53
  normal : x.scale = 0 ∨ 2 ^ 52 ≤ x.significand

instance (x : Binary64) : Decidable x.Canonical :=
  decidable_of_iff (x.significand < 2 ^ 53 ∧ (x.scale = 0 ∨ 2 ^ 52 ≤ x.significand))
    ⟨fun h => ⟨h.1, h.2⟩, fun h => ⟨h.lt_two_pow, h.normal⟩⟩

/-- Whether a rational rounds to the magnitude of a double. -/
def Rounds (x : Binary64) (q : ℚ) : Prop :=
  let low := (Decimal.interval x).1
  let high := (Decimal.interval x).2.2
  if x.significand % 2 = 0 then (low : ℚ) ≤ q * 2 ^ 1076 ∧ q * 2 ^ 1076 ≤ high
  else (low : ℚ) < q * 2 ^ 1076 ∧ q * 2 ^ 1076 < high

/-- The number of quarters of a unit from the lower end to the value. -/
def below (x : Binary64) : ℕ :=
  if x.significand = 2 ^ 52 ∧ 0 < x.scale then 1 else 2

theorem below_pos (x : Binary64) : 0 < x.below := by
  unfold below
  split_ifs <;> omega

theorem interval_eq (x : Binary64) :
    Decimal.interval x = ((4 * x.significand - x.below) * 2 ^ x.scale, 4 * x.significand * 2 ^ x.scale,
      (4 * x.significand + 2) * 2 ^ x.scale) := by
  simp only [Decimal.interval, below, Nat.shiftLeft_eq, one_mul]

/-! ### Intervals of different doubles -/

/-- The interval of a double ends where that of a larger one begins, or before; the end that two even
doubles have in common is none. -/
theorem high_le_low {x y : Binary64} (hx : x.Canonical) (hy : y.Canonical)
    (h : x.scale < y.scale ∨ x.scale = y.scale ∧ x.significand < y.significand) :
    (Decimal.interval x).2.2 ≤ (Decimal.interval y).1 ∧
      (x.significand % 2 = 0 → y.significand % 2 = 0 →
        (Decimal.interval x).2.2 < (Decimal.interval y).1) := by
  have hbits := hx.lt_two_pow
  rw [interval_eq, interval_eq]
  rcases h with h | ⟨h, hlt⟩
  · -- the larger double is normal, so it begins above all 53 bits of the next lower scale
    have hnormal := hy.normal.resolve_left (by omega)
    obtain ⟨k, hk⟩ : ∃ k, y.scale = x.scale + 1 + k := ⟨y.scale - x.scale - 1, by omega⟩
    have hlow : 2 ^ 54 - 1 ≤ 4 * y.significand - y.below := by
      unfold below
      split_ifs <;> omega
    have hgap : (2 ^ 55 - 2) * 2 ^ x.scale ≤ (4 * y.significand - y.below) * 2 ^ y.scale := by
      calc (2 ^ 55 - 2) * 2 ^ x.scale = (2 ^ 54 - 1) * 2 ^ (x.scale + 1) := by ring
        _ ≤ (4 * y.significand - y.below) * 2 ^ y.scale :=
          Nat.mul_le_mul hlow (Nat.pow_le_pow_right (by omega) (by omega))
    refine ⟨le_trans (Nat.mul_le_mul_right _ (by omega)) hgap, fun heven _ => ?_⟩
    -- an even significand is not the last one of its scale
    exact lt_of_lt_of_le (Nat.mul_lt_mul_of_pos_right (by omega) (by positivity)) hgap
  · have hlow : 4 * x.significand + 2 ≤ 4 * y.significand - y.below := by
      unfold below
      split_ifs <;> omega
    rw [← h]
    refine ⟨Nat.mul_le_mul_right _ hlow, fun heven heven' => ?_⟩
    refine Nat.mul_lt_mul_of_pos_right ?_ (by positivity)
    unfold below
    split_ifs <;> omega

/-- A rational that rounds to a double does not round to a larger one. -/
theorem not_rounds_of_lt {x y : Binary64} (hx : x.Canonical) (hy : y.Canonical)
    (h : x.scale < y.scale ∨ x.scale = y.scale ∧ x.significand < y.significand) {q : ℚ}
    (hxq : x.Rounds q) (hyq : y.Rounds q) : False := by
  obtain ⟨hle, hlt⟩ := high_le_low hx hy h
  have hle' : ((Decimal.interval x).2.2 : ℚ) ≤ (Decimal.interval y).1 := by exact_mod_cast hle
  unfold Rounds at hxq hyq
  generalize q * 2 ^ 1076 = scaled at hxq hyq
  simp only at hxq hyq
  -- a common end belongs to both intervals only if both significands are even
  split_ifs at hxq hyq with hxe hye hye
  · have hlt' : ((Decimal.interval x).2.2 : ℚ) < (Decimal.interval y).1 := by
      exact_mod_cast hlt hxe hye
    linarith [hxq.2, hyq.1]
  · linarith [hxq.2, hyq.1]
  · linarith [hxq.2, hyq.1]
  · linarith [hxq.2, hyq.1]

/-- The rationals that round to a double tell its magnitude. -/
theorem eq_of_rounds {x y : Binary64} (hx : x.Canonical) (hy : y.Canonical) {q : ℚ}
    (hxq : x.Rounds q) (hyq : y.Rounds q) : x.significand = y.significand ∧ x.scale = y.scale := by
  by_contra hne
  by_cases h : x.scale < y.scale ∨ x.scale = y.scale ∧ x.significand < y.significand
  · exact not_rounds_of_lt hx hy h hxq hyq
  · exact not_rounds_of_lt hy hx (by omega) hyq hxq

end Binary64

/-! ### Candidates -/

namespace Decimal

open Binary64

/-- A decimal grid and the interval are brought to one scale by a common factor. -/
theorem onGrid_eq (x : Binary64) (e : ℤ) : ∃ c : ℕ, 0 < c ∧
    ((onGrid x e).1 : ℚ) = c * 10 ^ e * 2 ^ 1076 ∧ (onGrid x e).2.1 = (interval x).1 * c ∧
      (onGrid x e).2.2.1 = (interval x).2.1 * c ∧ (onGrid x e).2.2.2 = (interval x).2.2 * c := by
  by_cases he : 0 ≤ e
  · obtain ⟨n, rfl⟩ := Int.eq_ofNat_of_zero_le he
    simp only [onGrid, if_pos he]
    refine ⟨1, one_pos, ?_, (mul_one _).symm, (mul_one _).symm, (mul_one _).symm⟩
    simp only [Nat.shiftLeft_eq, Nat.pow_eq, Int.natAbs_natCast, Nat.cast_mul, Nat.cast_pow,
      Nat.cast_ofNat, Nat.cast_one, one_mul, zpow_natCast]
  · obtain ⟨n, rfl⟩ : ∃ n : ℕ, e = -(n : ℤ) := ⟨(-e).toNat, by omega⟩
    have h10 : (10 : ℚ) ^ n * 10 ^ (-(n : ℤ)) = 1 := by
      rw [zpow_neg, zpow_natCast, mul_inv_cancel₀ (by positivity)]
    simp only [onGrid, if_neg he, Nat.pow_eq, Int.natAbs_neg, Int.natAbs_natCast]
    refine ⟨10 ^ n, by positivity, ?_, rfl, rfl, rfl⟩
    simp only [Nat.shiftLeft_eq, Nat.cast_pow, Nat.cast_ofNat, one_mul, h10]

/-- Whether a number of grid steps lies in the interval, ends included for an even significand. -/
def Inside (x : Binary64) (e : ℤ) (n : ℕ) : Prop :=
  let low := (onGrid x e).2.1
  let high := (onGrid x e).2.2.2
  if x.significand % 2 = 0 then low ≤ n * (onGrid x e).1 ∧ n * (onGrid x e).1 ≤ high
  else low < n * (onGrid x e).1 ∧ n * (onGrid x e).1 < high

theorem rounds_of_inside {x : Binary64} {e : ℤ} {n : ℕ} (h : Inside x e n) :
    x.Rounds (n * 10 ^ e) := by
  obtain ⟨c, hc, hstep, hlow, -, hhigh⟩ := onGrid_eq x e
  have hc' : (0 : ℚ) < c := by exact_mod_cast hc
  unfold Binary64.Rounds
  unfold Inside at h
  rw [hlow, hhigh] at h
  generalize (2 : ℚ) ^ 1076 = unit at hstep ⊢
  have hscaled : ((n * (onGrid x e).1 : ℕ) : ℚ) = n * 10 ^ e * unit * c := by
    rw [Nat.cast_mul, hstep]
    ring
  generalize n * 10 ^ e * unit = q at hscaled ⊢
  have hle : ∀ k : ℕ, k * c ≤ n * (onGrid x e).1 ↔ (k : ℚ) ≤ q := fun k => by
    rw [← Nat.cast_le (α := ℚ), hscaled, Nat.cast_mul, mul_le_mul_iff_left₀ hc']
  have hge : ∀ k : ℕ, n * (onGrid x e).1 ≤ k * c ↔ q ≤ k := fun k => by
    rw [← Nat.cast_le (α := ℚ), hscaled, Nat.cast_mul, mul_le_mul_iff_left₀ hc']
  simpa only [← not_le, hle, hge] using h

/-- A candidate is positive and lies in the interval, and there is one if the lower neighbour of the
value does. -/
theorem candidate_spec (tie : Tie) (x : Binary64) (e : ℤ) :
    (∀ n, candidate tie x e = some n → 0 < n ∧ Inside x e n) ∧
      (0 < (onGrid x e).2.2.1 / (onGrid x e).1 →
        Inside x e ((onGrid x e).2.2.1 / (onGrid x e).1) → candidate tie x e ≠ none) := by
  unfold candidate Inside
  generalize onGrid x e = grid
  obtain ⟨step, low, value, high⟩ := grid
  -- the test is made a variable, so that only the branches of the search are split
  obtain ⟨inside, hinside⟩ : ∃ inside : ℕ → Bool, ∀ n,
      (if x.significand % 2 = 0 then decide (low ≤ n * step ∧ n * step ≤ high)
        else decide (low < n * step ∧ n * step < high)) = inside n := ⟨_, fun _ => rfl⟩
  have hiff : ∀ n, (if x.significand % 2 = 0 then low ≤ n * step ∧ n * step ≤ high
      else low < n * step ∧ n * step < high) ↔ inside n = true := by
    intro n
    rw [← hinside]
    split_ifs <;> simp only [decide_eq_true_eq]
  simp only [hinside, hiff]
  generalize value / step = down
  simp only [Bool.and_eq_true, bne_iff_ne, ne_eq]
  constructor
  · intro n h
    split_ifs at h with hboth htie hdown hup <;> cases h
    · exact ⟨by omega, hboth.2⟩
    · exact ⟨by omega, hboth.1.1⟩
    · exact ⟨by omega, hdown.1⟩
    · exact ⟨by omega, hup⟩
  · intro hpos h hnone
    have hdown := And.intro h hpos.ne'
    split_ifs at hnone

/-- On a grid that is finer than the distance from the value to the lower end there is a candidate. -/
theorem candidate_ne_none {tie : Tie} {x : Binary64} {e : ℤ} (hpos : 0 < (onGrid x e).1)
    (h : (onGrid x e).2.1 + (onGrid x e).1 ≤ (onGrid x e).2.2.1)
    (hhigh : (onGrid x e).2.2.1 < (onGrid x e).2.2.2) : candidate tie x e ≠ none := by
  refine (candidate_spec tie x e).2 (Nat.div_pos (by omega) hpos) ?_
  have hle := Nat.div_mul_le_self (onGrid x e).2.2.1 (onGrid x e).1
  have hlt := Nat.lt_div_mul_add (a := (onGrid x e).2.2.1) hpos
  unfold Inside
  split_ifs <;> constructor <;> omega

/-! ### The search -/

theorem pow_length_le {n : ℕ} (h : 0 < n) : 10 ^ ((toString n).length - 1) ≤ n := by
  rw [Nat.toString_eq_repr]
  rcases Nat.eq_zero_or_pos (n.repr.length - 1) with hlen | hlen
  · rw [hlen]
    omega
  · by_contra hlt
    have hle := (Nat.length_repr_le_iff hlen).2 (not_le.1 hlt)
    omega

theorem pow_length_div_le {n unit : ℕ} (h : 0 < n / unit) :
    (10 : ℚ) ^ (((toString (n / unit)).length : ℤ) - 1) ≤ (n : ℚ) / unit := by
  have hlen : 0 < (toString (n / unit)).length := by
    rw [Nat.toString_eq_repr]
    exact Nat.length_repr_pos
  rw [show ((toString (n / unit)).length : ℤ) - 1 = ((toString (n / unit)).length - 1 : ℕ) by omega,
    zpow_natCast]
  calc (10 : ℚ) ^ ((toString (n / unit)).length - 1) ≤ (n / unit : ℕ) := by
        exact_mod_cast pow_length_le h
    _ ≤ (n : ℚ) / unit := Nat.cast_div_le

theorem magnitude_eq (x : Binary64) {places : ℕ} (h : places = 324) : magnitude x =
    if 2 ^ 1074 ≤ x.significand * 2 ^ x.scale then
      ((toString (x.significand * 2 ^ x.scale / 2 ^ 1074)).length : ℤ)
    else (toString (x.significand * 2 ^ x.scale * Nat.pow 10 places / 2 ^ 1074)).length - places := by
  subst h
  rewrite [← Nat.shiftRight_eq_div_pow, ← Nat.shiftRight_eq_div_pow, ← Nat.one_shiftLeft 1074,
    ← Nat.shiftLeft_eq x.significand x.scale]
  rfl

/-- A quotient is at least the power of ten of its first digit. Below one, the digits are counted after
some places. -/
theorem pow_first_digit_le {num unit places : ℕ} (hnum : 0 < num) (hunit : 0 < unit)
    (hsmall : unit ≤ Nat.pow 10 places) :
    (10 : ℚ) ^ ((if unit ≤ num then ((toString (num / unit)).length : ℤ)
      else (toString (num * Nat.pow 10 places / unit)).length - places) - 1) ≤ (num : ℚ) / unit := by
  split_ifs with hlarge
  · exact pow_length_div_le (Nat.div_pos hlarge hunit)
  · have hten : (10 : ℚ) ^ (places : ℤ) = (Nat.pow 10 places : ℕ) := by
      rw [zpow_natCast, Nat.pow_eq, Nat.cast_pow, Nat.cast_ofNat]
    have hscaled := pow_length_div_le (n := num * Nat.pow 10 places)
      (Nat.div_pos (le_trans hsmall (Nat.le_mul_of_pos_left _ hnum)) hunit)
    have hpos : (0 : ℚ) < (Nat.pow 10 places : ℕ) := by exact_mod_cast lt_of_lt_of_le hunit hsmall
    rw [sub_right_comm, zpow_sub₀ (by norm_num), hten, div_le_iff₀ hpos, ← mul_div_right_comm,
      ← Nat.cast_mul]
    exact hscaled

/-- The magnitude of a nonzero double is at least the power of ten of its first digit. -/
theorem pow_magnitude_le {x : Binary64} (hx : x.significand ≠ 0) :
    (10 : ℚ) ^ (magnitude x - 1) ≤ x.significand * 2 ^ x.scale / 2 ^ 1074 := by
  have hnum : 0 < x.significand * 2 ^ x.scale := by positivity
  have hunit : 0 < 2 ^ 1074 := by positivity
  -- the number of places is made a variable, so that no tactic evaluates the power of ten
  obtain ⟨places, hplaces⟩ : ∃ n, n = 324 := ⟨_, rfl⟩
  have hsmall : 2 ^ 1074 ≤ Nat.pow 10 places := by
    subst hplaces
    decide +kernel
  have hcast : (x.significand * 2 ^ x.scale : ℚ) / 2 ^ 1074 =
      (x.significand * 2 ^ x.scale : ℕ) / (2 ^ 1074 : ℕ) := by
    simp only [Nat.cast_mul, Nat.cast_pow, Nat.cast_ofNat]
  rewrite [hcast, magnitude_eq x hplaces]
  exact pow_first_digit_le hnum hunit hsmall

/-- A unit of the eighteenth digit is at most a quarter of the distance to the next double. -/
theorem pow_eighteen_le {x : Binary64} (hx : x.Canonical) (hne : x.significand ≠ 0) :
    (10 : ℚ) ^ (magnitude x - 18) * 2 ^ 1076 ≤ 2 ^ x.scale := by
  have hdigits : (10 : ℚ) ^ (magnitude x - 1) = 10 ^ (magnitude x - 18) * 10 ^ 17 := by
    rw [← zpow_natCast, ← zpow_add₀ (by norm_num)]
    congr 1
    omega
  have hunit : (2 : ℚ) ^ 1076 = 2 ^ 1074 * 4 := by
    rw [show 1076 = 1074 + 2 from rfl, pow_add, show (2 : ℚ) ^ 2 = 4 by norm_num]
  have hpos : (0 : ℚ) < 2 ^ 1074 := by positivity
  have hscale : (0 : ℚ) < 2 ^ x.scale := by positivity
  have hbits : (x.significand : ℚ) ≤ 2 ^ 53 := by exact_mod_cast hx.lt_two_pow.le
  have hmul := mul_le_mul_of_nonneg_right hbits hscale.le
  have hle := pow_magnitude_le hne
  rw [hdigits, le_div_iff₀ hpos] at hle
  rw [hunit]
  generalize (2 : ℚ) ^ 1074 = unit at hle hpos ⊢
  generalize (10 : ℚ) ^ (magnitude x - 18) = fine at hle ⊢
  linarith

/-- With eighteen digits the grid is finer than the distance to the lower end. -/
theorem candidate_ne_none_of_eighteen (tie : Tie) {x : Binary64} (hx : x.Canonical)
    (hne : x.significand ≠ 0) : candidate tie x (magnitude x - 18) ≠ none := by
  obtain ⟨c, hc, hstep, hlow, hvalue, hhigh⟩ := onGrid_eq x (magnitude x - 18)
  have hbelow := x.below_pos
  have hbelow' : x.below ≤ 2 := by
    unfold below
    split_ifs <;> omega
  have hscale : 0 < 2 ^ x.scale := by positivity
  have hfine := pow_eighteen_le hx hne
  rw [interval_eq] at hlow hvalue hhigh
  refine candidate_ne_none ?_ ?_ ?_
  · have hpos : (0 : ℚ) < (onGrid x (magnitude x - 18)).1 := by
      rw [hstep]
      positivity
    exact_mod_cast hpos
  · have hgap : (4 * x.significand - x.below) * 2 ^ x.scale + 2 ^ x.scale ≤
        4 * x.significand * 2 ^ x.scale := by
      rw [← Nat.succ_mul]
      exact Nat.mul_le_mul_right _ (by omega)
    have hstep' : ((onGrid x (magnitude x - 18)).1 : ℚ) ≤ (2 ^ x.scale * c : ℕ) := by
      rw [hstep, mul_assoc, mul_comm, Nat.cast_mul, Nat.cast_pow, Nat.cast_ofNat]
      exact mul_le_mul_of_nonneg_right hfine (Nat.cast_nonneg c)
    rw [hlow, hvalue]
    calc _ ≤ (4 * x.significand - x.below) * 2 ^ x.scale * c + 2 ^ x.scale * c :=
          Nat.add_le_add_left (by exact_mod_cast hstep') _
      _ ≤ 4 * x.significand * 2 ^ x.scale * c := by
          rw [← Nat.add_mul]
          exact Nat.mul_le_mul_right _ hgap
  · rw [hvalue, hhigh]
    exact Nat.mul_lt_mul_of_pos_right (Nat.mul_lt_mul_of_pos_right (by omega) hscale) hc

/-- If one of the grids that are tried has a candidate, the search returns one. -/
theorem candidate_search {tie : Tie} {x : Binary64} {k : ℤ} (tries count : ℕ)
    (h : candidate tie x (k - (count + tries : ℕ)) ≠ none) :
    candidate tie x (search tie x k count (tries + 1)).2 = some (search tie x k count (tries + 1)).1 := by
  induction tries generalizing count with
  | zero =>
    rw [search]
    cases hc : candidate tie x (k - count) with
    | some n => exact hc
    | none => exact absurd hc h
  | succ tries ih =>
    rw [search]
    cases hc : candidate tie x (k - count) with
    | some n => exact hc
    | none => exact ih (count + 1) (by rwa [Nat.add_right_comm, Nat.add_assoc])

/-- The number that digits stand for. -/
def numeral (ds : List ℕ) : ℕ :=
  ds.foldl (fun n d => 10 * n + d) 0

/-- The number that a decimal stands for. -/
def value (d : Decimal) : ℚ :=
  numeral d.digits * 10 ^ (d.point - d.digits.length)

theorem numeral_append (ds es : List ℕ) :
    numeral (ds ++ es) = numeral ds * 10 ^ es.length + numeral es := by
  induction es using List.reverseRecOn with
  | nil => simp [numeral]
  | append_singleton es e ih =>
    have hconcat : ∀ l : List ℕ, numeral (l ++ [e]) = 10 * numeral l + e := by simp [numeral]
    rw [← List.append_assoc, hconcat, hconcat, ih, List.length_append, List.length_singleton, pow_succ]
    ring

theorem numeral_replicate_zero (n : ℕ) : numeral (List.replicate n 0) = 0 := by
  induction n with
  | zero => rfl
  | succ n ih => rw [List.replicate_succ', numeral_append, ih]; rfl

theorem numeral_digitsOf (n : ℕ) : numeral (digitsOf n) = n := by
  unfold numeral digitsOf
  rw [List.foldl_map, Nat.toString_eq_repr, Nat.toList_repr]
  exact Nat.ofDigitChars_toDigits (by decide) (by decide)

/-- Nothing but zeros is taken off the end. -/
theorem exists_eq_stripZeros_append (ds : List ℕ) :
    ∃ n, ds = stripZeros ds ++ List.replicate n 0 := by
  have hzeros := List.eq_replicate_of_mem (a := 0) (l := ds.rtakeWhile (· == 0)) fun d hd => by
    simpa using List.mem_rtakeWhile_imp hd
  refine ⟨(ds.rtakeWhile (· == 0)).length, ?_⟩
  rw [← hzeros]
  exact List.rdropWhile_append_rtakeWhile.symm

/-- The digits of a nonzero double stand for the result of the search. -/
theorem value_ofBinary64 (tie : Tie) {x : Binary64} (hx : x.significand ≠ 0) :
    value (ofBinary64 tie x) =
      (search tie x (magnitude x) 1 18).1 * 10 ^ (search tie x (magnitude x) 1 18).2 := by
  have hzero : x.isZero = false := by simpa [isZero] using hx
  unfold ofBinary64
  rw [hzero, if_neg Bool.false_ne_true]
  obtain ⟨n, e⟩ := search tie x (magnitude x) 1 18
  obtain ⟨z, hz⟩ := exists_eq_stripZeros_append (digitsOf n)
  have hlength := congrArg List.length hz
  have hnumeral := congrArg numeral hz
  rw [List.length_append, List.length_replicate] at hlength
  rw [numeral_append, numeral_digitsOf, numeral_replicate_zero, List.length_replicate, add_zero]
    at hnumeral
  simp only [value, hlength]
  generalize stripZeros (digitsOf n) = ds at hnumeral ⊢
  rw [hnumeral, Nat.cast_mul, Nat.cast_pow, Nat.cast_ofNat, mul_assoc, ← zpow_natCast,
    ← zpow_add₀ (by norm_num)]
  congr 2
  omega

/-- The digits of a nonzero double are positive and round to it. -/
theorem rounds_ofBinary64 (tie : Tie) {x : Binary64} (hx : x.Canonical) (hne : x.significand ≠ 0) :
    0 < value (ofBinary64 tie x) ∧ x.Rounds (value (ofBinary64 tie x)) := by
  have h := candidate_search 17 1 (candidate_ne_none_of_eighteen tie hx hne)
  obtain ⟨hpos, hinside⟩ := (candidate_spec tie x _).1 _ h
  rw [value_ofBinary64 tie hne]
  refine ⟨?_, rounds_of_inside hinside⟩
  have : (0 : ℚ) < (search tie x (magnitude x) 1 18).1 := by exact_mod_cast hpos
  positivity

end Decimal

end SeriesPivot
