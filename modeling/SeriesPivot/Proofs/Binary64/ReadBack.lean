import SeriesPivot.Proofs.Binary64.Rounding
import SeriesPivot.Proofs.Binary64.Text

/-!
# Reading a written double back

A written double is read as the rational that its digits, its point and its exponent stand for.

* `Decimal.read` reads a text without a sign.
* `read_layout`: what is written for a decimal reads as its value, whichever layout it has.
* `toExponential_injective`: different doubles are written differently.
-/

namespace SeriesPivot

namespace Decimal

/-- The number that digits stand for. -/
def readDigits (cs : List Char) : ℕ :=
  numeral (cs.map fun c => c.toNat - '0'.toNat)

/-- The number that digits with a sign stand for. -/
def readExponent : List Char → ℤ
  | '-' :: cs => -(readDigits cs : ℤ)
  | '+' :: cs => readDigits cs
  | _ => 0

/-- The number that digits with a point among them stand for. -/
def readMantissa (cs : List Char) : ℚ :=
  let whole := cs.takeWhile (· != '.')
  let fraction := (cs.dropWhile (· != '.')).tail
  readDigits (whole ++ fraction) * 10 ^ (-(fraction.length : ℤ))

/-- The number that a text without a sign stands for. -/
def read (cs : List Char) : ℚ :=
  readMantissa (cs.takeWhile (· != 'e')) * 10 ^ readExponent (cs.dropWhile (· != 'e')).tail

/-! ### Digits as text -/

theorem readDigits_append (cs ds : List Char) :
    readDigits (cs ++ ds) = readDigits cs * 10 ^ ds.length + readDigits ds := by
  unfold readDigits
  rw [List.map_append, numeral_append, List.length_map]

theorem readDigits_toString (n : ℕ) : readDigits (toString n).toList = n :=
  numeral_digitsOf n

theorem toList_render {ds : List ℕ} (h : ∀ d ∈ ds, d < 10) :
    (render ds).toList = ds.map Nat.digitChar := by
  simp only [render, String.toList_join, List.flatMap_map]
  induction ds with
  | nil => rfl
  | cons d ds ih =>
    rw [List.flatMap_cons, ih fun k hk => h k (List.mem_cons_of_mem _ hk), List.map_cons,
      Nat.toString_eq_repr, Nat.toList_repr, Nat.toDigits_of_lt_base (h d (by simp))]
    rfl

theorem readDigits_render {ds : List ℕ} (h : ∀ d ∈ ds, d < 10) :
    readDigits (render ds).toList = numeral ds := by
  unfold readDigits
  rw [toList_render h, List.map_map]
  congr 1
  conv_rhs => rw [← List.map_id ds]
  exact List.map_congr_left fun d hd => Nat.toNat_digitChar_sub_48_of_lt_ten (h d hd)

theorem length_render {ds : List ℕ} (h : ∀ d ∈ ds, d < 10) : (render ds).toList.length = ds.length := by
  rw [toList_render h, List.length_map]

theorem toList_zeros (n : ℕ) : (zeros n).toList = List.replicate n '0' := by
  simp [zeros]

theorem readDigits_replicate_zero (n : ℕ) : readDigits (List.replicate n '0') = 0 := by
  unfold readDigits
  rw [List.map_replicate]
  exact numeral_replicate_zero n

/-! ### Layouts -/

theorem ne_of_isDigit {cs : List Char} (h : ∀ c ∈ cs, c.isDigit = true) {mark : Char}
    (hmark : mark.isDigit = false) : ∀ c ∈ cs, (c != mark) = true := by
  intro c hc
  rw [bne_iff_ne]
  rintro rfl
  rw [h c hc] at hmark
  exact Bool.noConfusion hmark

theorem readMantissa_digits {whole : List Char} (h : ∀ c ∈ whole, c.isDigit = true) :
    readMantissa whole = readDigits whole := by
  have hpoint := ne_of_isDigit h (show '.'.isDigit = false from rfl)
  simp [readMantissa, List.takeWhile_eq_self_iff.2 hpoint, List.dropWhile_eq_nil_iff.2 hpoint]

theorem readMantissa_point {whole : List Char} (h : ∀ c ∈ whole, c.isDigit = true)
    (fraction : List Char) :
    readMantissa (whole ++ '.' :: fraction) =
      readDigits (whole ++ fraction) * 10 ^ (-(fraction.length : ℤ)) := by
  have hpoint := ne_of_isDigit h (show '.'.isDigit = false from rfl)
  simp [readMantissa, List.takeWhile_append_of_pos hpoint, List.dropWhile_append_of_pos hpoint]

theorem read_mantissa {mantissa : List Char} (h : ∀ c ∈ mantissa, (c != 'e') = true) :
    read mantissa = readMantissa mantissa := by
  simp [read, List.takeWhile_eq_self_iff.2 h, List.dropWhile_eq_nil_iff.2 h, readExponent]

theorem read_exponent {mantissa : List Char} (h : ∀ c ∈ mantissa, (c != 'e') = true)
    (exponent : List Char) :
    read (mantissa ++ 'e' :: exponent) = readMantissa mantissa * 10 ^ readExponent exponent := by
  simp [read, List.takeWhile_append_of_pos h, List.dropWhile_append_of_pos h]

/-- How a decimal is laid out: positional near one, exponential elsewhere. -/
def layout (d : Decimal) : String :=
  if -4 ≤ d.point ∧ d.point ≤ 16 then
    d.split.1 ++ "." ++ (if d.split.2.isEmpty then "0" else d.split.2)
  else d.exponential

/-- The digits on both sides of the point stand for the decimal. -/
theorem readDigits_split {d : Decimal} (h : ∀ k ∈ d.digits, k < 10) :
    readDigits (d.split.1.toList ++ d.split.2.toList) * (10 : ℚ) ^ (-(d.split.2.toList.length : ℤ)) =
      d.value := by
  unfold split value
  simp only
  split_ifs with hneg hwithin
  · have hzero : readDigits ['0'] = 0 := rfl
    rw [String.toList_append, List.length_append, length_render h, toList_zeros, List.length_replicate,
      readDigits_append, show "0".toList = ['0'] from rfl, hzero, readDigits_append,
      readDigits_replicate_zero, readDigits_render h]
    simp only [Nat.zero_mul, Nat.zero_add]
    congr 2
    omega
  · have htake : ∀ k ∈ d.digits.take d.point.natAbs, k < 10 := fun k hk => h k (List.mem_of_mem_take hk)
    have hdrop : ∀ k ∈ d.digits.drop d.point.natAbs, k < 10 := fun k hk => h k (List.mem_of_mem_drop hk)
    have hnumeral := numeral_append (d.digits.take d.point.natAbs) (d.digits.drop d.point.natAbs)
    rw [List.take_append_drop] at hnumeral
    rw [readDigits_append, readDigits_render htake, readDigits_render hdrop, length_render hdrop,
      ← hnumeral, List.length_drop]
    congr 2
    omega
  · obtain ⟨n, hn⟩ : ∃ n : ℕ, d.point = d.digits.length + n := ⟨d.point.natAbs - d.digits.length, by omega⟩
    rw [show "".toList = [] from rfl, List.append_nil, String.toList_append, toList_zeros,
      readDigits_append, readDigits_replicate_zero, readDigits_render h, List.length_replicate,
      show d.point.natAbs - d.digits.length = n by omega, hn, Nat.add_zero, Nat.cast_mul, Nat.cast_pow,
      Nat.cast_ofNat]
    simp

theorem read_split {d : Decimal} (h : ∀ k ∈ d.digits, k < 10) :
    read (d.split.1 ++ "." ++ (if d.split.2.isEmpty then "0" else d.split.2)).toList = d.value := by
  have hwhole := fun c hc => isDigit_of_mem_split (d := d) (c := c) (.inl hc)
  have hfraction := fun c hc => isDigit_of_mem_split (d := d) (c := c) (.inr hc)
  rw [← readDigits_split h]
  generalize d.split = parts at hwhole hfraction ⊢
  obtain ⟨whole, fraction⟩ := parts
  have hread : ∀ cs : List Char, (∀ c ∈ cs, c.isDigit = true) → read (whole.toList ++ '.' :: cs) =
      readDigits (whole.toList ++ cs) * 10 ^ (-(cs.length : ℤ)) := by
    intro cs hcs
    rw [read_mantissa, readMantissa_point hwhole]
    intro c hc
    rcases List.mem_append.1 hc with hc | hc
    · exact ne_of_isDigit hwhole rfl c hc
    · rcases List.mem_cons.1 hc with rfl | hc
      · rfl
      · exact ne_of_isDigit hcs rfl c hc
  rw [String.toList_append, String.toList_append, show ".".toList = ['.'] from rfl, List.append_assoc,
    List.singleton_append]
  by_cases hempty : fraction.isEmpty
  · -- a zero behind the point changes nothing
    have hnil : fraction.toList = [] := by simpa [String.isEmpty_iff] using hempty
    have hzero : ∀ c ∈ ['0'], c.isDigit = true := by simp
    rw [if_pos hempty, show "0".toList = ['0'] from rfl, hread _ hzero, hnil, readDigits_append,
      List.append_nil]
    simp [show readDigits ['0'] = 0 from rfl]
  · rw [if_neg hempty, hread _ hfraction]

theorem readExponent_mark (e : ℤ) :
    readExponent ((if e < 0 then "-" else "+").toList ++ (toString e.natAbs).toList) = e := by
  split_ifs with h
  · rw [show "-".toList = ['-'] from rfl, List.singleton_append, readExponent, readDigits_toString]
    omega
  · rw [show "+".toList = ['+'] from rfl, List.singleton_append, readExponent, readDigits_toString]
    omega

/-- One digit before the point and the others behind it. -/
theorem readMantissa_lead {ds : List ℕ} (h : ∀ d ∈ ds, d < 10) :
    let lead := render (ds.take 1)
    let tail := render (ds.drop 1)
    let mantissa := (if tail.isEmpty then lead else lead ++ "." ++ tail).toList
    (∀ c ∈ mantissa, (c != 'e') = true) ∧
      readMantissa mantissa = numeral ds * 10 ^ (-((ds.drop 1).length : ℤ)) := by
  intro lead tail mantissa
  have hlead : ∀ c ∈ lead.toList, c.isDigit = true := fun c hc => isDigit_of_mem_render hc
  have htail : ∀ c ∈ tail.toList, c.isDigit = true := fun c hc => isDigit_of_mem_render hc
  have hdrop : ∀ k ∈ ds.drop 1, k < 10 := fun k hk => h k (List.mem_of_mem_drop hk)
  have htake : ∀ k ∈ ds.take 1, k < 10 := fun k hk => h k (List.mem_of_mem_take hk)
  have hdigits : readDigits (lead.toList ++ tail.toList) = numeral ds := by
    rw [readDigits_append, readDigits_render htake, readDigits_render hdrop, length_render hdrop,
      ← numeral_append, List.take_append_drop]
  have hlength : tail.toList.length = (ds.drop 1).length := length_render hdrop
  by_cases hempty : tail.isEmpty
  · have hnil : tail.toList = [] := by simpa [String.isEmpty_iff] using hempty
    rw [hnil, List.append_nil] at hdigits
    rw [hnil] at hlength
    simp only [mantissa, if_pos hempty]
    refine ⟨ne_of_isDigit hlead rfl, ?_⟩
    rw [readMantissa_digits hlead, hdigits, ← hlength]
    simp
  · simp only [mantissa, if_neg hempty, String.toList_append, show ".".toList = ['.'] from rfl,
      List.append_assoc, List.singleton_append]
    refine ⟨fun c hc => ?_, ?_⟩
    · rcases List.mem_append.1 hc with hc | hc
      · exact ne_of_isDigit hlead rfl c hc
      · rcases List.mem_cons.1 hc with rfl | hc
        · rfl
        · exact ne_of_isDigit htail rfl c hc
    · rw [readMantissa_point hlead, hdigits, hlength]

theorem read_exponential {d : Decimal} (h : ∀ k ∈ d.digits, k < 10) :
    read d.exponential.toList = d.value := by
  obtain ⟨hmark, hmantissa⟩ := readMantissa_lead h
  unfold exponential value
  simp only [String.toList_append, show "e".toList = ['e'] from rfl, List.append_assoc,
    List.cons_append, List.nil_append] at hmark hmantissa ⊢
  rw [read_exponent hmark, hmantissa, readExponent_mark, mul_assoc, ← zpow_add₀ (by norm_num)]
  cases hds : d.digits with
  | nil => simp [numeral]
  | cons k ds =>
    congr 2
    simp only [List.drop_succ_cons, List.drop_zero, List.length_cons]
    omega

theorem read_layout {d : Decimal} (h : ∀ k ∈ d.digits, k < 10) : read d.layout.toList = d.value := by
  unfold layout
  by_cases hp : -4 ≤ d.point ∧ d.point ≤ 16
  · rw [if_pos hp]
    exact read_split h
  · rw [if_neg hp]
    exact read_exponential h

/-! ### Written doubles -/

theorem lt_ten_of_mem_digitsOf {n k : ℕ} (h : k ∈ digitsOf n) : k < 10 := by
  obtain ⟨c, hc, rfl⟩ := List.mem_map.1 h
  have hdigit := isDigit_of_mem_toString hc
  have hle : c.toNat ≤ 57 := by
    rw [Char.isDigit, Bool.and_eq_true, decide_eq_true_eq, decide_eq_true_eq] at hdigit
    exact hdigit.2
  change c.toNat - 48 < 10
  omega

theorem lt_ten_of_mem_ofBinary64 (tie : Tie) (x : Binary64) :
    ∀ k ∈ (ofBinary64 tie x).digits, k < 10 := by
  intro k hk
  unfold ofBinary64 at hk
  split_ifs at hk
  · rw [List.mem_singleton.1 hk]
    omega
  · obtain ⟨n, hn⟩ := exists_eq_stripZeros_append
      (digitsOf (search tie x (magnitude x) 1 18).1)
    refine lt_ten_of_mem_digitsOf (n := (search tie x (magnitude x) 1 18).1) ?_
    rw [hn]
    exact List.mem_append_left _ hk

theorem value_of_isZero (tie : Tie) {x : Binary64} (hx : x.significand = 0) :
    value (ofBinary64 tie x) = 0 := by
  have hzero : x.isZero = true := by simpa [Binary64.isZero] using hx
  simp [ofBinary64, hzero, value, numeral]

/-- A layout begins with no sign. -/
theorem head?_layout (d : Decimal) : d.layout.toList.head? ≠ some '-' := by
  have hhead : ∀ cs rest : List Char, ∀ c, (∀ c ∈ cs, c.isDigit = true) → c ≠ '-' →
      (cs ++ c :: rest).head? ≠ some '-' := by
    intro cs rest c hcs hc
    cases cs with
    | nil => simpa using hc
    | cons b cs =>
      have hb := hcs b (by simp)
      simp only [List.cons_append, List.head?_cons, ne_eq, Option.some.injEq]
      rintro rfl
      exact absurd hb (by decide)
  have hlead : ∀ c ∈ (render (d.digits.take 1)).toList, c.isDigit = true :=
    fun c hc => isDigit_of_mem_render hc
  unfold layout exponential
  by_cases hp : -4 ≤ d.point ∧ d.point ≤ 16
  · rw [if_pos hp, String.toList_append, String.toList_append, List.append_assoc]
    exact hhead _ _ '.' (fun c hc => isDigit_of_mem_split (.inl hc)) (by decide)
  · rw [if_neg hp]
    simp only [String.toList_append, List.append_assoc]
    by_cases hempty : (render (d.digits.drop 1)).isEmpty
    · rw [if_pos hempty]
      exact hhead _ _ 'e' hlead (by decide)
    · rw [if_neg hempty, String.toList_append, String.toList_append, List.append_assoc, List.append_assoc]
      exact hhead _ _ '.' hlead (by decide)

end Decimal

namespace Binary64

theorem toExponential_eq (x : Binary64) :
    x.toExponential = x.signText ++ (Decimal.ofBinary64 .even x).layout := rfl

/-- What is written for a double tells its sign and the number that its digits stand for. -/
theorem eq_of_toExponential_eq {x y : Binary64} (h : x.toExponential = y.toExponential) :
    x.negative = y.negative ∧
      (Decimal.ofBinary64 .even x).value = (Decimal.ofBinary64 .even y).value := by
  have hchars := congrArg String.toList h
  rw [toExponential_eq, toExponential_eq, String.toList_append, String.toList_append] at hchars
  have hx := Decimal.head?_layout (Decimal.ofBinary64 .even x)
  have hy := Decimal.head?_layout (Decimal.ofBinary64 .even y)
  rw [← Decimal.read_layout (Decimal.lt_ten_of_mem_ofBinary64 .even x),
    ← Decimal.read_layout (Decimal.lt_ten_of_mem_ofBinary64 .even y)]
  unfold signText at hchars
  -- a sign on one side only would stand where the other side has a digit
  cases hxs : x.negative <;> cases hys : y.negative <;> rw [hxs, hys] at hchars
  · exact ⟨rfl, congrArg Decimal.read hchars⟩
  · refine absurd ?_ hx
    rw [show ((if false = true then "-" else "").toList : List Char) = [] from rfl, List.nil_append]
      at hchars
    rw [hchars]
    rfl
  · refine absurd ?_ hy
    rw [show ((if false = true then "-" else "").toList : List Char) = [] from rfl, List.nil_append]
      at hchars
    rw [← hchars]
    rfl
  · exact ⟨rfl, congrArg Decimal.read (List.append_cancel_left hchars)⟩

/-- Different doubles are written differently. -/
theorem toExponential_injective {x y : Binary64} (hx : x.Canonical) (hy : y.Canonical)
    (h : x.toExponential = y.toExponential) : x = y := by
  obtain ⟨hsign, hvalue⟩ := eq_of_toExponential_eq h
  have hmagnitude : x.significand = y.significand ∧ x.scale = y.scale := by
    -- the digits of a zero stand for zero, and those of another double for a positive number
    by_cases hxz : x.significand = 0 <;> by_cases hyz : y.significand = 0
    · exact ⟨by omega, by have := hx.normal; have := hy.normal; omega⟩
    · have hpos := (Decimal.rounds_ofBinary64 .even hy hyz).1
      rw [← hvalue, Decimal.value_of_isZero .even hxz] at hpos
      exact absurd hpos (lt_irrefl _)
    · have hpos := (Decimal.rounds_ofBinary64 .even hx hxz).1
      rw [hvalue, Decimal.value_of_isZero .even hyz] at hpos
      exact absurd hpos (lt_irrefl _)
    · have hround := (Decimal.rounds_ofBinary64 .even hx hxz).2
      rw [hvalue] at hround
      exact eq_of_rounds hx hy hround (Decimal.rounds_ofBinary64 .even hy hyz).2
  obtain ⟨negative, significand, scale⟩ := x
  obtain ⟨negative', significand', scale'⟩ := y
  obtain ⟨rfl, rfl⟩ := hmagnitude
  rw [show negative = negative' from hsign]

end Binary64

end SeriesPivot
