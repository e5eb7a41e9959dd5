import SeriesPivot.Proofs.Binary64.Arithmetic
import SeriesPivot.Proofs.Pivot.Times

/-!
# Epoch milliseconds as numbers and as texts

Epoch milliseconds come as a number or as its decimal text. Before a text is read as a number it is tried as
a date; but a date has a hyphen behind its year, and a decimal text has none but for its sign.

* `Instant.read?_toString`: the decimal text of an integer denotes what the integer does.
* `Instant.ofMillis?_eq_none_iff`: which integers denote no instant.
* `Json.clampInt64_ofInt`: an integer beyond 63 bits is cut to the same end of the range as its double.
* `Pivot.epoch_text_agrees`: a number and its text denote the same instant, and are shown alike as the time
  of a document up to the end of the calendar. Beyond it each is left as it is.
-/

namespace SeriesPivot

namespace Scan

/-- What is behind a number is a part of the text. -/
theorem mem_of_number {least most n : ℕ} {cs rest : List Char}
    (h : number least most cs = some (n, rest)) {c : Char} (hc : c ∈ rest) : c ∈ cs := by
  simp only [number] at h
  split at h
  · cases h
  · cases h
    exact List.mem_of_mem_drop hc

theorem expect_of_not_mem {c : Char} {cs : List Char} (h : c ∉ cs) : expect c cs = none := by
  cases cs with
  | nil => rfl
  | cons d cs =>
    have hne : c ≠ d := fun heq => h (heq ▸ List.mem_cons_self)
    exact if_neg hne

end Scan

namespace Instant

open Scan

/-! ### Integers are no dates -/

theorem hyphen_not_mem {cs : List Char} {n : ℕ} (h : Text.Spells cs n) : '-' ∉ cs := fun hmem =>
  absurd (h.digits '-' hmem) (by decide)

theorem rfc3339_toString (n : ℤ) : rfc3339 (toString n).toList = none := by
  rw [rfc3339, bind_apply, Option.bind_eq_none_iff]
  rintro ⟨year, rest⟩ hyear
  rcases Text.toList_toString_cases n with ⟨k, -, hk⟩ | ⟨k, cs, -, hcs, -⟩
  · rw [bind_apply, expect_of_not_mem fun hmem => hyphen_not_mem hk (mem_of_number hyear hmem)]
    rfl
  · rw [hcs] at hyear
    simp [number, Text.digits, Text.digit?] at hyear

/-- A year takes the sign of an integer, so that no hyphen is left. -/
theorem hyphen_not_mem_of_year {n y : ℤ} {rest : List Char}
    (h : year (toString n).toList = some (y, rest)) : '-' ∉ rest := by
  have hblanks : blanks (toString n).toList = some ((), (toString n).toList) :=
    blanks_of_stops fun c hc => Text.isBlank_of_mem_toString (List.mem_of_mem_head? hc)
  rw [year, bind_of_eq_some hblanks] at h
  rcases Text.toList_toString_cases n with ⟨k, -, hk⟩ | ⟨k, cs, -, hcs, hk⟩
  · obtain ⟨c, tail, hcons, hc⟩ := hk.exists_cons
    rw [hcons] at h hk
    split at h
    case h_1 heq =>
      cases heq
      cases hc
    case h_2 heq =>
      cases heq
      cases hc
    case h_3 =>
      obtain ⟨⟨k', rest'⟩, hnumber, heq⟩ := Option.bind_eq_some_iff.1 h
      cases heq
      exact fun hmem => hyphen_not_mem hk (mem_of_number hnumber hmem)
  · have hdigits := digits_append hk (Text.stops_nil Char.isDigit)
    rw [List.append_nil] at hdigits
    rw [hcs] at h
    simp only [hdigits, Option.bind_eq_bind, Option.bind_some, Option.some.injEq, Prod.mk.injEq] at h
    rw [← h.2]
    exact List.not_mem_nil

theorem dateFields_toString (n : ℤ) : dateFields (toString n).toList = none := by
  rw [dateFields, bind_apply, Option.bind_eq_none_iff]
  rintro ⟨y, rest⟩ hyear
  rw [bind_apply, expect_of_not_mem (hyphen_not_mem_of_year hyear)]
  rfl

/-- The decimal text of an integer of 64 bits denotes what the integer does, and no other does anything. -/
theorem read?_toString (n : ℤ) :
    read? (toString n) = if Text.fitsInt64 n then ofMillis? n else none := by
  have htrim : Text.trim (toString n) = toString n :=
    Text.trim_of_forall fun _ => Text.isBlank_of_mem_toString
  have hdateAndTime : ∀ between, dateAndTime between (toString n).toList = none := fun between => by
    rw [dateAndTime, bind_apply, dateFields_toString]
    rfl
  have hdateOnly : dateOnly (toString n).toList = none := by
    rw [dateOnly, bind_apply, dateFields_toString]
    rfl
  rw [read?, htrim]
  simp only [whole, rfc3339_toString, hdateAndTime, hdateOnly, Text.readInt64_toString]
  split <;> rfl

/-! ### The ends of the calendar -/

/-- The first millisecond of the calendar. -/
def firstMillis : ℤ := firstSecond * 1000

/-- The last millisecond of the calendar. -/
def lastMillis : ℤ := lastSecond * 1000 + 999

example : firstMillis = -8334601228800000 ∧ lastMillis = 8210266876799999 := by decide

theorem ofMillis?_eq_none_iff {ms : ℤ} : ofMillis? ms = none ↔ ms < firstMillis ∨ lastMillis < ms := by
  simp only [ofMillis?, ite_eq_right_iff, reduceCtorEq, imp_false, firstMillis, lastMillis]
  omega

/-- The calendar ends well within 64 bits. -/
theorem fits_of_ofMillis?_ne_none {ms : ℤ} (h : ofMillis? ms ≠ none) : Text.fitsInt64 ms = true := by
  have hfirst : -0x8000000000000000 ≤ firstMillis := by decide
  have hlast : lastMillis < 0x8000000000000000 := by decide
  rw [ne_eq, ofMillis?_eq_none_iff] at h
  exact decide_eq_true (by omega)

end Instant

namespace Json

open Instant

/-- An integer beyond 63 bits is cut to the same end of the range as its double. -/
theorem clampInt64_ofInt {n : ℤ} (h : 2 ^ 63 ≤ n) (h' : n < 2 ^ 64) :
    (Number.float (Binary64.ofInt n)).clampInt64 = (Number.int n).clampInt64 := by
  obtain ⟨k, rfl⟩ := Int.eq_ofNat_of_zero_le (by omega : 0 ≤ n)
  have hle := Binary64.le_truncate_ofInt (n := k) (by omega) (by omega)
  simp only [Number.clampInt64]
  omega

/-- A number denotes the instant of its milliseconds, and a number out of range denotes none. -/
theorem instant?_ofInt_eq (n : ℤ) : (ofInt n).instant? = ofMillis? n := by
  by_cases hfits : Text.fitsInt64 n = true
  · exact Pivot.instant?_ofInt hfits
  · have hnone : ofMillis? n = none := by
      by_contra hsome
      exact hfits (fits_of_ofMillis?_ne_none hsome)
    have hfirst : -0x8000000000000000 < firstMillis := by decide
    have hlast : lastMillis < 0x7fffffffffffffff := by decide
    rw [Text.fitsInt64, decide_eq_true_eq] at hfits
    rw [ofInt, instant?, Number.clampInt64, hnone, ofMillis?_eq_none_iff]
    omega

theorem instant?_toString (n : ℤ) : (string (toString n)).instant? = ofMillis? n := by
  rw [instant?, read?_toString]
  split
  case isTrue => rfl
  case isFalse hfits =>
    symm
    by_contra hsome
    exact hfits (fits_of_ofMillis?_ne_none hsome)

end Json

namespace Pivot

open Instant

theorem normalizeTime_toString {ms : ℤ} (h : Text.fitsInt64 ms = true) :
    normalizeTime (.string (toString ms)) = renderMillis ms (.string (toString ms)) := by
  simp only [normalizeTime, Text.readInt64_toString, h, if_true]

theorem renderMillis_of_le {ms : ℤ} (h : ms ≤ lastMillis) (value other : Json) :
    renderMillis ms value = renderMillis ms other := by
  have hfirst : firstMillis ≤ 0 := by decide
  unfold renderMillis
  split
  case isTrue hpositive =>
    have hsome : ofMillis? ms ≠ none := by
      rw [ne_eq, ofMillis?_eq_none_iff]
      omega
    obtain ⟨t, ht⟩ := Option.ne_none_iff_exists'.1 hsome
    rw [ht]
  case isFalse => rfl

theorem renderMillis_of_lt {ms : ℤ} (h : lastMillis < ms) (value : Json) :
    renderMillis ms value = value := by
  have hlast : 0 < lastMillis := by decide
  rw [renderMillis, if_pos (by omega), ofMillis?_eq_none_iff.2 (.inr h)]

/-- A number of epoch milliseconds and its decimal text denote the same instant, which there is none of
beyond the calendar; so does the double that a number beyond 63 bits is read through. Both are shown alike
as the time of a document up to the end of the calendar. A time after that has no other form, so the number
stays a number and the text stays a text. -/
theorem epoch_text_agrees :
    (∀ n : ℤ, -2 ^ 63 ≤ n → n < 2 ^ 64 →
      (Json.ofInt n).instant? = ofMillis? n ∧ (Json.string (toString n)).instant? = ofMillis? n ∧
      (2 ^ 63 ≤ n → (Json.number (.float (Binary64.ofInt n))).instant? = ofMillis? n)) ∧
    ∀ n : ℤ, -2 ^ 63 ≤ n → n < 2 ^ 63 →
      (n ≤ lastMillis → normalizeTime (.string (toString n)) = normalizeTime (.ofInt n)) ∧
      (lastMillis < n → normalizeTime (.string (toString n)) = .string (toString n) ∧
        normalizeTime (.ofInt n) = .ofInt n) := by
  refine ⟨fun n _ hhigh => ⟨Json.instant?_ofInt_eq n, Json.instant?_toString n, fun hlarge => ?_⟩,
    fun n hlow hhigh => ?_⟩
  · rw [← Json.instant?_ofInt_eq n, Json.instant?, Json.clampInt64_ofInt hlarge hhigh]
    rfl
  · have hfits : Text.fitsInt64 n = true := decide_eq_true ⟨by omega, by omega⟩
    rw [normalizeTime_toString hfits, normalizeTime_ofInt hfits]
    exact ⟨fun hle => renderMillis_of_le hle _ _,
      fun hlt => ⟨renderMillis_of_lt hlt _, renderMillis_of_lt hlt _⟩⟩

/-- The largest number, digits that begin like a date, and the last time of the calendar. -/
theorem epoch_text_agrees_ends :
    (Json.ofInt 18446744073709551615).instant? = (Json.string "18446744073709551615").instant? ∧
    (Json.ofInt 20240101).instant? = (Json.string "20240101").instant? ∧
    normalizeTime (.string "-20240101") = normalizeTime (.ofInt (-20240101)) ∧
    normalizeTime (.string "8210266876799999") = normalizeTime (.ofInt 8210266876799999) := by
  obtain ⟨hinstant, htime⟩ := epoch_text_agrees
  obtain ⟨hlarge, hlarge', -⟩ := hinstant 18446744073709551615 (by decide) (by decide)
  obtain ⟨hdate, hdate', -⟩ := hinstant 20240101 (by decide) (by decide)
  have hnegative := (htime (-20240101) (by decide) (by decide)).1 (by decide)
  have hsign : toString (-20240101 : ℤ) = "-20240101" := by decide +kernel
  rw [hsign] at hnegative
  exact ⟨hlarge.trans hlarge'.symm, hdate.trans hdate'.symm, hnegative,
    (htime 8210266876799999 (by decide) (by decide)).1 (by decide)⟩

/-- The millisecond after the end of the calendar is shown as a number or as a text, as it comes. -/
theorem beyond_calendar_told_apart :
    Text.fitsInt64 8210266876800000 = true ∧
    normalizeTime (.ofInt 8210266876800000) ≠ normalizeTime (.string (toString (8210266876800000 : ℤ))) := by
  decide +kernel

end Pivot

end SeriesPivot
