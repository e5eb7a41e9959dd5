import SeriesPivot.Proofs.Binary64.Rounding
import Mathlib.Tactic.MkIffOfInductiveProp

/-!
# What arithmetic gives

All doubles are made by `ofRatio`, which rounds a quotient once.

* `roundUnits` is a quotient of the smallest positive double, rounded, however large it is. It is
  canonical, and the quotient lies between the ends of its interval (`canonical_roundUnits`,
  `roundUnits_inside`).
* `ofRatio_eq_some`: a quotient that rounds to a finite double is rounded to it.
* `canonical_scaleByPow10`, `canonical_ofDecimal`: what a decimal is read as is such a quotient, or a zero.
* `le_truncate_ofInt`: an integer beyond 63 bits is rounded to no double within them.
-/

namespace SeriesPivot.Binary64

/-- A quotient goes to the nearest integer, and a half to the even one. -/
theorem divHalfEven_spec (n : ℕ) {d : ℕ} (hd : 0 < d) :
    2 * (divHalfEven n d * d) ≤ 2 * n + d ∧ 2 * n ≤ 2 * (divHalfEven n d * d) + d ∧
      (divHalfEven n d % 2 = 1 →
        2 * (divHalfEven n d * d) < 2 * n + d ∧ 2 * n < 2 * (divHalfEven n d * d) + d) := by
  have hn : n = n / d * d + n % d := (Nat.div_add_mod' n d).symm
  have hr : n % d < d := Nat.mod_lt n hd
  have hsucc : (n / d + 1) * d = n / d * d + d := Nat.succ_mul _ _
  unfold divHalfEven
  dsimp only
  split_ifs
  · omega
  · rw [hsucc]
    omega
  · omega
  · rw [hsucc]
    omega

/-! ### Rounded quotients -/

/-- The scale at which a quotient has 53 bits, or the smallest scale. -/
def unitScale (n d : ℕ) : ℕ :=
  if n / d < 1 <<< 53 then 0 else Nat.log2 (n / d) - 52

/-- So many times the smallest positive double, rounded to 53 bits, or to fewer at the smallest scale. If
all 53 bits are ones and round up, the scale is one larger. -/
def roundUnits (negative : Bool) (n d : ℕ) : Binary64 :=
  let significand := divHalfEven n (d <<< unitScale n d)
  if significand < 1 <<< 53 then ⟨negative, significand, unitScale n d⟩
  else ⟨negative, 1 <<< 52, unitScale n d + 1⟩

theorem ofRatio_eq (negative : Bool) (num den : ℕ) : ofRatio negative num den =
    if (roundUnits negative (num <<< 1074) den).scale ≤ 2045 then
      some (roundUnits negative (num <<< 1074) den) else none :=
  rfl

/-- At its scale a quotient has no fewer than 53 bits. -/
theorem le_of_unitScale_ne_zero {n d : ℕ} (h : unitScale n d ≠ 0) :
    0 < d ∧ 2 ^ 52 * (d <<< unitScale n d) ≤ n := by
  unfold unitScale at h ⊢
  split_ifs at h ⊢ with hfloor
  · exact absurd rfl h
  rw [Nat.one_shiftLeft, not_lt] at hfloor
  have hd : 0 < d := by
    refine Nat.pos_of_ne_zero ?_
    rintro rfl
    rw [Nat.div_zero] at hfloor
    omega
  have hne : n / d ≠ 0 := by omega
  have hlog : 53 ≤ Nat.log2 (n / d) := (Nat.le_log2 hne).2 hfloor
  have hle := (Nat.le_div_iff_mul_le hd).1 (Nat.log2_self_le hne)
  obtain ⟨k, hk⟩ : ∃ k, Nat.log2 (n / d) = 52 + k := ⟨_, (Nat.add_sub_of_le (by omega)).symm⟩
  rw [hk, pow_add] at hle
  rw [hk, Nat.add_sub_cancel_left, Nat.shiftLeft_eq]
  exact ⟨hd, by linarith⟩

/-- At its scale a quotient has no more than 53 bits. -/
theorem lt_of_unitScale (n : ℕ) {d : ℕ} (hd : 0 < d) : n < 2 ^ 53 * (d <<< unitScale n d) := by
  unfold unitScale
  split_ifs with hfloor
  · rw [Nat.shiftLeft_zero]
    exact (Nat.div_lt_iff_lt_mul hd).1 hfloor
  · rw [Nat.one_shiftLeft, not_lt] at hfloor
    have hne : n / d ≠ 0 := by omega
    have hlog : 53 ≤ Nat.log2 (n / d) := (Nat.le_log2 hne).2 hfloor
    have hlt := (Nat.div_lt_iff_lt_mul hd).1 (Nat.lt_log2_self (n := n / d))
    obtain ⟨k, hk⟩ : ∃ k, Nat.log2 (n / d) = 52 + k := ⟨_, (Nat.add_sub_of_le (by omega)).symm⟩
    rw [hk, show 52 + k + 1 = 53 + k by omega, pow_add] at hlt
    rw [hk, Nat.add_sub_cancel_left, Nat.shiftLeft_eq]
    linarith

theorem shiftLeft_pos {d : ℕ} (hd : 0 < d) (k : ℕ) : 0 < d <<< k := by
  rw [Nat.shiftLeft_eq]
  positivity

theorem canonical_roundUnits (negative : Bool) (n d : ℕ) : (roundUnits negative n d).Canonical := by
  unfold roundUnits
  dsimp only
  split_ifs with hbits
  · refine ⟨hbits, or_iff_not_imp_left.2 fun hscale => ?_⟩
    obtain ⟨hd, hle⟩ := le_of_unitScale_ne_zero hscale
    have hpos := shiftLeft_pos hd (unitScale n d)
    have hnear := (divHalfEven_spec n hpos).2.1
    change 2 ^ 52 ≤ divHalfEven n (d <<< unitScale n d)
    -- a smaller significand would leave out a half of a unit
    by_contra hlt
    have hmul := Nat.mul_le_mul_right (d <<< unitScale n d) (Nat.le_sub_one_of_lt (not_le.1 hlt))
    rw [Nat.sub_mul] at hmul
    omega
  · constructor
    · change 1 <<< 52 < 2 ^ 53
      decide
    · right
      change 2 ^ 52 ≤ 1 <<< 52
      decide

/-- A quotient lies in the interval of the double that it is rounded to. -/
theorem roundUnits_inside (negative : Bool) (n : ℕ) {d : ℕ} (hd : 0 < d) :
    let x := roundUnits negative n d
    if x.significand % 2 = 0 then
      (Decimal.interval x).1 * d ≤ 4 * n ∧ 4 * n ≤ (Decimal.interval x).2.2 * d
    else (Decimal.interval x).1 * d < 4 * n ∧ 4 * n < (Decimal.interval x).2.2 * d := by
  intro x
  have hpos := shiftLeft_pos hd (unitScale n d)
  have hunit : ∀ a, a * 2 ^ unitScale n d * d = a * (d <<< unitScale n d) := by
    intro a
    rw [Nat.shiftLeft_eq]
    ring
  obtain ⟨hlow, hhigh, hodd⟩ := divHalfEven_spec n hpos
  have hlt := lt_of_unitScale n hd
  have hle := @le_of_unitScale_ne_zero n d
  have hx : x = if divHalfEven n (d <<< unitScale n d) < 1 <<< 53 then
      ⟨negative, divHalfEven n (d <<< unitScale n d), unitScale n d⟩
    else ⟨negative, 1 <<< 52, unitScale n d + 1⟩ := rfl
  rw [interval_eq]
  generalize divHalfEven n (d <<< unitScale n d) = significand at hlow hhigh hodd hx
  generalize unitScale n d = scale at *
  generalize d <<< scale = unit at *
  by_cases hbits : significand < 1 <<< 53
  · rw [if_pos hbits] at hx
    have hone : significand % 2 = 1 → unit ≤ significand * unit :=
      fun hodd => Nat.le_mul_of_pos_left _ (by omega)
    have hexpand : (4 * significand + 2) * unit = 4 * (significand * unit) + 2 * unit := by ring
    have hbelow : (4 * significand - x.below) * unit ≤ 4 * n ∧
        (significand % 2 = 1 → (4 * significand - x.below) * unit < 4 * n) := by
      rw [Nat.sub_mul, Nat.mul_assoc, below, hx]
      dsimp only
      split_ifs with hpower
      · -- below a power of two the numbers lie closer, but the quotient is not below it
        have hleast := (hle (by omega)).2
        rw [hpower.1]
        omega
      · omega
    rw [hx] at hbelow ⊢
    dsimp only at hbelow ⊢
    rw [hunit, hunit, hexpand]
    split_ifs with heven
    · omega
    · omega
  · rw [if_neg hbits] at hx
    -- the significand is `2 ^ 53`, and the interval ends lie between its neighbours
    have hmul := Nat.mul_le_mul_right unit (not_lt.1 hbits)
    have hbelow : x.below = 1 := by
      rw [below, hx, if_pos ⟨rfl, Nat.succ_pos _⟩]
    have hdouble : ∀ a, a * 2 ^ (scale + 1) * d = 2 * a * unit := by
      intro a
      rw [← hunit]
      ring
    have hbottom : 2 * (4 * 1 <<< 52 - 1) = 2 ^ 55 - 2 := by decide
    have htop : 2 * (4 * 1 <<< 52 + 2) = 2 ^ 55 + 4 := by decide
    rw [hbelow, hx]
    dsimp only
    rw [if_pos (by decide), hdouble, hdouble, hbottom, htop]
    omega

/-! ### Quotients that round to a double -/

/-- A finite double: a canonical one that is not too large. -/
@[mk_iff]
structure Finite (x : Binary64) : Prop where
  canonical : x.Canonical
  bounded : x.scale ≤ 2045

instance (x : Binary64) : Decidable x.Finite :=
  decidable_of_iff _ (finite_iff x).symm

/-- What a quotient is rounded to is finite. -/
theorem finite_ofRatio {negative : Bool} {num den : ℕ} {x : Binary64}
    (h : ofRatio negative num den = some x) : x.Finite := by
  rw [ofRatio_eq] at h
  split_ifs at h with hscale
  obtain rfl := Option.some.inj h
  exact ⟨canonical_roundUnits negative _ den, hscale⟩

theorem canonical_ofRatio {negative : Bool} {num den : ℕ} {x : Binary64}
    (h : ofRatio negative num den = some x) : x.Canonical :=
  (finite_ofRatio h).canonical

/-- A quotient rounds to what it is rounded to. -/
theorem rounds_roundUnits (negative : Bool) (num : ℕ) {den : ℕ} (hden : 0 < den) :
    (roundUnits negative (num <<< 1074) den).Rounds (num / den) := by
  have hinside := roundUnits_inside negative (num <<< 1074) hden
  have hcast : ∀ k : ℕ, ((num <<< k : ℕ) : ℚ) = num * 2 ^ k := by
    intro k
    rw [Nat.shiftLeft_eq]
    push_cast
    rfl
  have hscaled : (num / den : ℚ) * (2 : ℚ) ^ 1076 = ((4 * num <<< 1074 : ℕ) : ℚ) / den := by
    rw [Nat.cast_mul, hcast, show 1076 = 1074 + 2 from rfl, pow_add, Nat.cast_ofNat]
    generalize (2 : ℚ) ^ 1074 = unit
    ring
  have hpos : (0 : ℚ) < den := by exact_mod_cast hden
  generalize roundUnits negative (num <<< 1074) den = x at *
  unfold Rounds
  simp only [hscaled, le_div_iff₀ hpos, div_le_iff₀ hpos, lt_div_iff₀ hpos, div_lt_iff₀ hpos]
  exact_mod_cast hinside

/-- A quotient that rounds to a finite double is rounded to it. -/
theorem ofRatio_eq_some {x : Binary64} (hx : x.Finite) {num den : ℕ} (hden : 0 < den)
    (h : x.Rounds (num / den)) : ofRatio x.negative num den = some x := by
  obtain ⟨hsignificand, hscale⟩ := eq_of_rounds (canonical_roundUnits x.negative (num <<< 1074) den)
    hx.canonical (rounds_roundUnits x.negative num hden) h
  have hnegative : (roundUnits x.negative (num <<< 1074) den).negative = x.negative := by
    unfold roundUnits
    dsimp only
    split_ifs <;> rfl
  have heq : roundUnits x.negative (num <<< 1074) den = x := by
    obtain ⟨negative, significand, scale⟩ := x
    generalize roundUnits _ _ _ = y at *
    obtain ⟨negative', significand', scale'⟩ := y
    simp_all
  rw [ofRatio_eq, heq, if_pos hx.bounded]

/-! ### Other arithmetic -/

theorem canonical_mul {x y z : Binary64} (h : mul x y = some z) : z.Canonical :=
  canonical_ofRatio h

theorem canonical_div {x y z : Binary64} (h : div x y = some z) : z.Canonical :=
  canonical_ofRatio h

/-- A zero has the smallest scale. -/
theorem canonical_mk_zero (negative : Bool) : Canonical ⟨negative, 0, 0⟩ := by
  constructor
  · norm_num
  · exact .inl rfl

theorem canonical_scaleByPow10 {x y : Binary64} (hx : x.Canonical) {exponent : ℤ} {steps : ℕ}
    (h : scaleByPow10 x exponent steps = some y) : y.Canonical := by
  induction steps generalizing x exponent with
  | zero =>
    cases h
    exact canonical_mk_zero x.negative
  | succ steps ih =>
    unfold scaleByPow10 at h
    split_ifs at h with hsmall hsign hzero hlarge
    · obtain ⟨power, -, hmul⟩ := Option.bind_eq_some_iff.1 h
      exact canonical_mul hmul
    · obtain ⟨power, -, hdiv⟩ := Option.bind_eq_some_iff.1 h
      exact canonical_div hdiv
    · cases h
      exact hx
    · obtain ⟨power, -, h⟩ := Option.bind_eq_some_iff.1 h
      obtain ⟨smaller, hdiv, h⟩ := Option.bind_eq_some_iff.1 h
      exact ih (canonical_div hdiv) h

theorem canonical_ofDecimal {negative : Bool} {significand : ℕ} {exponent : ℤ} {x : Binary64}
    (h : ofDecimal negative significand exponent = some x) : x.Canonical := by
  obtain ⟨y, hratio, h⟩ := Option.bind_eq_some_iff.1 h
  obtain ⟨z, hscale, h⟩ := Option.bind_eq_some_iff.1 h
  cases h
  have hz := canonical_scaleByPow10 (canonical_ofRatio hratio) hscale
  exact ⟨hz.lt_two_pow, hz.normal⟩

/-! ### Integers beyond 63 bits -/

section

variable {n : ℕ} (h : 2 ^ 63 ≤ n) (h' : n < 2 ^ 64)

include h h'

/-- A number of 64 bits whose first bit is one has 53 bits eleven places further up. -/
theorem unitScale_shiftLeft (k : ℕ) : unitScale (n <<< k) 1 = 11 + k := by
  have hpos : 0 < 2 ^ k := Nat.two_pow_pos k
  have hlow := Nat.mul_le_mul_right (2 ^ k) h
  have hhigh := Nat.mul_lt_mul_of_pos_right h' hpos
  rw [← pow_add] at hlow hhigh
  rw [unitScale, Nat.div_one, Nat.shiftLeft_eq]
  have hlog : Nat.log2 (n * 2 ^ k) = 63 + k :=
    (Nat.log2_eq_iff (by positivity)).2 ⟨hlow, by rwa [Nat.add_right_comm]⟩
  have hlarge : ¬ n * 2 ^ k < 1 <<< 53 := by
    rw [Nat.one_shiftLeft, not_lt]
    exact le_trans (by omega) (Nat.le_mul_of_pos_right n hpos)
  rw [if_neg hlarge, hlog]
  omega

/-- Such a number is rounded to nothing less than the first of them. -/
theorem le_roundUnits_shiftLeft (k : ℕ) :
    let x := roundUnits false (n <<< k) 1
    x.negative = false ∧ x.scale ≤ 12 + k ∧ 2 ^ 63 * 2 ^ k ≤ x.significand * 2 ^ x.scale := by
  have hnear := (divHalfEven_spec (n <<< k) (shiftLeft_pos one_pos (11 + k))).2.1
  have hunit : 1 <<< (11 + k) = 2 ^ 11 * 2 ^ k := by rw [Nat.one_shiftLeft, pow_add]
  simp only [roundUnits, unitScale_shiftLeft h h' k]
  split_ifs with hbits
  · refine ⟨rfl, Nat.add_le_add_right (by decide) k, ?_⟩
    generalize divHalfEven (n <<< k) (1 <<< (11 + k)) = significand at hnear ⊢
    rw [hunit, Nat.shiftLeft_eq] at hnear
    have hlow := Nat.mul_le_mul_right (2 ^ k) h
    -- half a unit less than `2 ^ 63` is still more than one unit less than `2 ^ 52` of them
    have hsignificand : 2 ^ 52 ≤ significand := by
      by_contra hlt
      have hle := Nat.mul_le_mul_right (2 ^ 11 * 2 ^ k) (Nat.le_sub_one_of_lt (not_le.1 hlt))
      have hpos : 0 < 2 ^ k := Nat.two_pow_pos k
      generalize 2 ^ k = unit at *
      omega
    calc 2 ^ 63 * 2 ^ k = 2 ^ 52 * 2 ^ (11 + k) := by rw [← pow_add, ← pow_add]; congr 1; omega
      _ ≤ significand * 2 ^ (11 + k) := Nat.mul_le_mul_right _ hsignificand
  · have hscale : 11 + k + 1 = 12 + k := by omega
    refine ⟨rfl, hscale.le, ?_⟩
    calc 2 ^ 63 * 2 ^ k = 2 ^ (63 + k) := (pow_add ..).symm
      _ ≤ 2 ^ (52 + (12 + k)) := Nat.pow_le_pow_right (by decide) (by omega)
      _ = 1 <<< 52 * 2 ^ (11 + k + 1) := by rw [Nat.one_shiftLeft, hscale, pow_add]

/-- The integer part of the double nearest to such a number has more than 63 bits, too. -/
theorem le_truncate_ofInt : 2 ^ 63 ≤ (ofInt n).truncate := by
  -- the number of places is made a variable, so that no tactic evaluates the power of two
  obtain ⟨places, hplaces⟩ : ∃ k, k = 1074 := ⟨_, rfl⟩
  have hround : ofInt n = (if (roundUnits false (n <<< places) 1).scale ≤ 2045 then
      some (roundUnits false (n <<< places) 1) else none).getD zero := by
    rw [ofInt, ofRatio_eq, decide_eq_false (by omega), Int.natAbs_natCast, hplaces]
  have htruncate : ∀ x : Binary64, x.negative = false →
      x.truncate = ((x.significand * 2 ^ x.scale / 2 ^ places : ℕ) : ℤ) := by
    intro x hx
    rw [truncate, hx, if_neg Bool.false_ne_true, Nat.shiftLeft_eq, ← hplaces, Nat.shiftRight_eq_div_pow]
  obtain ⟨hnegative, hscale, hlow⟩ := le_roundUnits_shiftLeft h h' places
  rw [hround, if_pos (by omega), Option.getD_some, htruncate _ hnegative]
  exact_mod_cast (Nat.le_div_iff_mul_le (Nat.two_pow_pos places)).2 hlow

end

end SeriesPivot.Binary64
