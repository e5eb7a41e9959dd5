import SeriesPivot.Proofs.Text
import Mathlib.Algebra.Group.Nat.Defs

/-!
# Written numbers are read back

* `Spells cs n` says of characters that they are decimal digits, at least one, and that they stand for `n`.
* `digits_append_of_spells`: the digits at the front of a text are read as the number that they spell.
* `spells_padNat`: a number that is written with zeros in front is spelled.
* `ofDigits_lt`: so many digits stand for a number below a power of ten.
* `readInt_toString`: an integer is read as it is written.
* `readNatBelow_eq_some_iff`: which texts are read as a natural number below a bound.
-/

namespace SeriesPivot.Text

theorem toNat_of_isDigit {c : Char} (h : c.isDigit = true) : 48 ≤ c.toNat ∧ c.toNat ≤ 57 := by
  simp only [Char.isDigit, Bool.and_eq_true, decide_eq_true_eq] at h
  exact ⟨UInt32.le_iff_toNat_le.1 h.1, UInt32.le_iff_toNat_le.1 h.2⟩

theorem isBlank_of_isDigit {c : Char} (h : c.isDigit = true) : isBlank c = false := by
  obtain ⟨hlow, hhigh⟩ := toNat_of_isDigit h
  simp only [isBlank, Bool.or_eq_false_iff, Bool.and_eq_false_iff, decide_eq_false_iff_not,
    beq_eq_false_iff_ne]
  omega

/-- The value of a character as a digit. -/
def digitValue (c : Char) : Nat :=
  c.toNat - '0'.toNat

theorem digit?_of_isDigit {c : Char} (h : c.isDigit = true) : digit? c = some (digitValue c) := by
  simp only [Char.isDigit, Bool.and_eq_true, decide_eq_true_eq] at h
  exact if_pos h

theorem digit?_of_not_isDigit {c : Char} (h : c.isDigit = false) : digit? c = none := by
  refine if_neg fun hc => ?_
  simp only [Char.isDigit, Bool.and_eq_false_iff, decide_eq_false_iff_not] at h
  exact h.elim (fun h => h hc.1) (fun h => h hc.2)

/-- Digits that stand for a number. -/
structure Spells (cs : List Char) (n : Nat) : Prop where
  digits : ∀ c ∈ cs, c.isDigit = true
  nonempty : cs ≠ []
  value : ofDigits (cs.map digitValue) = n

theorem Spells.exists_cons {cs : List Char} {n : Nat} (h : Spells cs n) :
    ∃ c rest, cs = c :: rest ∧ c.isDigit = true := by
  obtain ⟨c, rest, rfl⟩ := List.exists_cons_of_ne_nil h.nonempty
  exact ⟨c, rest, rfl, h.digits c List.mem_cons_self⟩

/-- Digits at the front of a text are taken off as a whole. -/
theorem digits_append {cs : List Char} (hcs : ∀ c ∈ cs, c.isDigit = true) {r : List Char}
    (hr : Stops Char.isDigit r) : Text.digits (cs ++ r) = (cs.map digitValue, r) := by
  induction cs with
  | nil =>
    cases r with
    | nil => rfl
    | cons c r =>
      have hc := digit?_of_not_isDigit (hr c rfl)
      simp [Text.digits, hc]
  | cons c cs ih =>
    have hc := digit?_of_isDigit (hcs c List.mem_cons_self)
    have htail := ih fun d hd => hcs d (List.mem_cons_of_mem _ hd)
    simp [Text.digits, hc, htail]

theorem ofDigits_map_digitValue (cs : List Char) :
    ofDigits (cs.map digitValue) = Nat.ofDigitChars 10 cs 0 := by
  simp only [ofDigits, List.foldl_map, Nat.ofDigitChars, digitValue, Nat.mul_comm]

/-- So many digits stand for a number below this power of ten. -/
theorem ofDigits_lt {ds : List Nat} (h : ∀ d ∈ ds, d < 10) : ofDigits ds < 10 ^ ds.length := by
  have hstep : ∀ n, ds.foldl (fun n d => n * 10 + d) n < (n + 1) * 10 ^ ds.length := by
    induction ds with
    | nil => simp
    | cons d ds ih =>
      intro n
      have hd := h d List.mem_cons_self
      refine Nat.lt_of_lt_of_le (ih (fun k hk => h k (List.mem_cons_of_mem _ hk)) (n * 10 + d)) ?_
      rw [List.length_cons, Nat.pow_succ, Nat.mul_comm (10 ^ ds.length), ← Nat.mul_assoc]
      exact Nat.mul_le_mul_right _ (by omega)
  simpa [ofDigits] using hstep 0

/-- Digits that are taken off the front are digits. -/
theorem lt_of_mem_digits (cs : List Char) : ∀ d ∈ (Text.digits cs).1, d < 10 := by
  induction cs with
  | nil => simp [Text.digits]
  | cons c cs ih =>
    simp only [Text.digits, digit?]
    split
    case h_1 d hd =>
      split at hd
      case isTrue hc =>
        cases hd
        have hnine : c.toNat ≤ '9'.toNat := hc.2
        rw [List.forall_mem_cons]
        exact ⟨by simp only [Char.reduceToNat] at hnine ⊢; omega, ih⟩
      case isFalse => cases hd
    case h_2 => simp

theorem length_digits_le (cs : List Char) : (Text.digits cs).1.length ≤ cs.length := by
  induction cs with
  | nil => exact Nat.le_refl _
  | cons c cs ih =>
    simp only [Text.digits]
    split
    case h_1 => simpa using ih
    case h_2 => exact Nat.zero_le _

/-! ### Padded numbers -/

theorem toList_padNat (width n : Nat) :
    (padNat width n).toList =
      List.replicate (width - (toString n).length) '0' ++ (toString n).toList := by
  simp [padNat]

/-- A number that is written with zeros in front is spelled. -/
theorem spells_padNat (width n : Nat) : Spells (padNat width n).toList n where
  digits c hc := by
    rw [toList_padNat, List.mem_append, List.mem_replicate, Nat.toString_eq_repr, Nat.toList_repr] at hc
    rcases hc with ⟨-, rfl⟩ | hc
    · rfl
    · exact Nat.isDigit_of_mem_toDigits (by decide) (by decide) hc
  nonempty := by
    simp [toList_padNat, Nat.toString_eq_repr, Nat.toList_repr]
  value := by
    rw [ofDigits_map_digitValue, toList_padNat, Nat.ofDigitChars_append, Nat.ofDigitChars_replicate_zero,
      Nat.toString_eq_repr, Nat.toList_repr, Nat.mul_zero, Nat.ofDigitChars_ten_toDigits]

theorem length_padNat {width n : Nat} (hwidth : 0 < width) (h : n < 10 ^ width) :
    (padNat width n).toList.length = width := by
  have hlength : (toString n).length ≤ width := (Nat.length_repr_le_iff hwidth).2 h
  rw [toList_padNat, List.length_append, List.length_replicate, String.length_toList]
  omega

/-! ### Integers -/

theorem spells_toString (n : ℕ) : Spells (toString n).toList n := by
  have h := spells_padNat 0 n
  rwa [toList_padNat, Nat.zero_sub, List.replicate_zero, List.nil_append] at h

/-- The characters of an integer: digits, behind a hyphen if it is negative. -/
theorem toList_toString_cases (n : ℤ) :
    (∃ k : ℕ, n = k ∧ Spells (toString n).toList k) ∨
      ∃ (k : ℕ) (cs : List Char), n = -k ∧ (toString n).toList = '-' :: cs ∧ Spells cs k := by
  cases n with
  | ofNat k => exact .inl ⟨k, rfl, spells_toString k⟩
  | negSucc k =>
    refine .inr ⟨k + 1, (toString (k + 1)).toList, rfl, ?_, spells_toString (k + 1)⟩
    change ("-" ++ toString (k + 1)).toList = _
    rw [String.toList_append]
    rfl

theorem isBlank_of_mem_toString {n : ℤ} {c : Char} (hc : c ∈ (toString n).toList) :
    isBlank c = false := by
  rcases toList_toString_cases n with ⟨k, -, hk⟩ | ⟨k, cs, -, hcs, hk⟩
  · exact isBlank_of_isDigit (hk.digits c hc)
  · rw [hcs, List.mem_cons] at hc
    rcases hc with rfl | hc
    · decide
    · exact isBlank_of_isDigit (hk.digits c hc)

/-- A whole text of digits is taken off. -/
theorem digits_of_spells {cs : List Char} {n : ℕ} (h : Spells cs n) :
    Text.digits cs = (cs.map digitValue, []) := by
  simpa using digits_append h.digits (stops_nil _)

/-- An integer is read as it is written. -/
theorem readInt_toString (n : ℤ) : readInt (toString n) = some n := by
  rcases toList_toString_cases n with ⟨k, rfl, hk⟩ | ⟨k, cs, rfl, hcs, hk⟩
  · obtain ⟨c, rest, hcons, hc⟩ := hk.exists_cons
    have hdigits := digits_of_spells hk
    have hvalue := hk.value
    rw [readInt]
    rw [hcons] at hdigits hvalue ⊢
    split
    case h_1 heq =>
      cases heq
      cases hc
    case h_2 heq =>
      cases heq
      cases hc
    case h_3 =>
      simp only [hdigits, List.map_cons]
      rw [← List.map_cons, hvalue]
      rfl
  · have hdigits := digits_of_spells hk
    have hvalue := hk.value
    obtain ⟨c, rest, rfl, -⟩ := hk.exists_cons
    rw [readInt, hcs]
    simp only [hdigits, List.map_cons]
    rw [← List.map_cons, hvalue]
    rfl

theorem readInt64_toString (n : ℤ) :
    readInt64 (toString n) = if fitsInt64 n then some n else none := by
  rw [readInt64, readInt_toString]

/-! ### Natural numbers below a bound -/

/-- What is taken off as a whole is digits. -/
theorem digits_eq_nil_right {cs : List Char} {ds : List ℕ} (h : Text.digits cs = (ds, [])) :
    (∀ c ∈ cs, c.isDigit = true) ∧ ds = cs.map digitValue := by
  induction cs generalizing ds with
  | nil =>
    cases h
    simp
  | cons c cs ih =>
    cases hc : c.isDigit with
    | false => simp [Text.digits, digit?_of_not_isDigit hc] at h
    | true =>
      simp only [Text.digits, digit?_of_isDigit hc, Prod.mk.injEq] at h
      obtain ⟨rfl, hrest⟩ := h
      obtain ⟨hcs, hds⟩ := ih (Prod.ext rfl hrest)
      rw [List.map_cons, ← hds]
      exact ⟨List.forall_mem_cons.2 ⟨hc, hcs⟩, rfl⟩

theorem spells_iff {cs : List Char} {n : ℕ} :
    Spells cs n ↔ ∃ ds, Text.digits cs = (ds, []) ∧ ds ≠ [] ∧ ofDigits ds = n := by
  constructor
  · intro h
    exact ⟨_, digits_of_spells h, mt List.map_eq_nil_iff.1 h.nonempty, h.value⟩
  · rintro ⟨ds, hdigits, hne, rfl⟩
    obtain ⟨hcs, rfl⟩ := digits_eq_nil_right hdigits
    exact ⟨hcs, mt List.map_eq_nil_iff.2 hne, rfl⟩

/-- A text is read as a natural number if it is digits, with or without a plus sign, that stand for a number
below the bound. -/
theorem readNatBelow_eq_some_iff {bound n : ℕ} {s : String} : readNatBelow bound s = some n ↔
    n < bound ∧ ∃ cs, (s.toList = cs ∨ s.toList = '+' :: cs) ∧ Spells cs n := by
  have hbelow : ∀ m : ℕ, (if m < bound then some m else none) = some n ↔ n < bound ∧ m = n := by
    intro m
    rw [Option.ite_none_right_eq_some, Option.some.injEq]
    constructor
    · rintro ⟨hlt, rfl⟩
      exact ⟨hlt, rfl⟩
    · rintro ⟨hlt, rfl⟩
      exact ⟨hlt, rfl⟩
  unfold readNatBelow
  dsimp only
  split
  · rename_i cs hs
    have hspells : (∃ cs', (s.toList = cs' ∨ s.toList = '+' :: cs') ∧ Spells cs' n) ↔ Spells cs n := by
      rw [hs]
      constructor
      · rintro ⟨_, rfl | hcons, h⟩
        · cases h.digits '+' List.mem_cons_self
        · rwa [(List.cons.inj hcons).2]
      · exact fun h => ⟨cs, .inr rfl, h⟩
    rw [hspells, spells_iff]
    rcases Text.digits cs with ⟨_ | ⟨d, ds⟩, _ | ⟨c, rest⟩⟩ <;> simp [hbelow]
  · rename_i hplus
    have hspells : (∃ cs, (s.toList = cs ∨ s.toList = '+' :: cs) ∧ Spells cs n) ↔ Spells s.toList n := by
      constructor
      · rintro ⟨cs, rfl | hcons, h⟩
        · exact h
        · exact absurd hcons (hplus cs)
      · exact fun h => ⟨_, .inl rfl, h⟩
    rw [hspells, spells_iff]
    rcases Text.digits s.toList with ⟨_ | ⟨d, ds⟩, _ | ⟨c, rest⟩⟩ <;> simp [hbelow]

end SeriesPivot.Text
