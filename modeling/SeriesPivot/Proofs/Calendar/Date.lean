import SeriesPivot.Calendar.Date

/-!
# Days and dates

Every day number of the supported calendar is the number of one date, which `Date.ofDays` finds.

* `yearOfDay_spec`: a day lies in the year that is found for it.
* `monthOfDay_spec`: a day of a year lies in the month that is found for it.
* `ofDays_spec`: a day has the number of its date, and `le_year_ofDays_iff` says in which year it is.
* `isValid_ofDays`: the date of a day between the first and the last of the calendar is a date, and
  `toDays_of_isValid` says that no other days have one.
-/

namespace SeriesPivot.Date

/-! ### Years -/

/-- The number of days of a year. -/
def daysInYear (year : Int) : Nat :=
  if isLeap year then 366 else 365

theorem daysBeforeYear_succ (year : Int) :
    daysBeforeYear (year + 1) = daysBeforeYear year + daysInYear year := by
  unfold daysBeforeYear daysInYear isLeap
  split
  case isTrue h =>
    simp only [Bool.and_eq_true, Bool.or_eq_true, beq_iff_eq, bne_iff_ne] at h
    omega
  case isFalse h =>
    simp only [Bool.and_eq_true, Bool.or_eq_true, beq_iff_eq, bne_iff_ne] at h
    omega

theorem daysBeforeYear_mono {y z : Int} (h : y ≤ z) : daysBeforeYear y ≤ daysBeforeYear z := by
  unfold daysBeforeYear
  omega

/-- A day lies in the year that is found for it. -/
theorem yearOfDay_spec (n : Int) :
    daysBeforeYear (yearOfDay n) ≤ n ∧ n < daysBeforeYear (yearOfDay n + 1) := by
  have hlow : daysBeforeYear (n * 400 / 146097 - 1) ≤ n := by
    unfold daysBeforeYear
    omega
  have hhigh : n < daysBeforeYear (n * 400 / 146097 + 1 + 1) := by
    unfold daysBeforeYear
    omega
  unfold yearOfDay
  simp only
  split
  case isTrue h => exact ⟨hlow, by rwa [Int.sub_add_cancel]⟩
  case isFalse h =>
    split
    case isTrue h' => exact ⟨h', hhigh⟩
    case isFalse h' => exact ⟨Int.not_lt.1 h, Int.not_le.1 h'⟩

/-! ### Months -/

/-- A day of a year lies in the month that is found for it. -/
theorem monthOfDay_spec (year : Int) {n : Nat} (h : n < daysInYear year) :
    let month := monthOfDay (isLeap year) n
    let before := daysBeforeMonth (isLeap year) month
    1 ≤ month ∧ month ≤ 12 ∧ before ≤ n ∧ n < before + daysInMonth year month := by
  have hall : ∀ leap : Bool, ∀ n < if leap then 366 else 365,
      let month := monthOfDay leap n
      1 ≤ month ∧ month ≤ 12 ∧ daysBeforeMonth leap month ≤ n ∧
        n < daysBeforeMonth leap month + if month = 2 then (if leap then 29 else 28)
          else if month = 4 ∨ month = 6 ∨ month = 9 ∨ month = 11 then 30 else 31 := by
    decide +kernel
  exact hall (isLeap year) n h

theorem daysInMonth_le (year : Int) (month : Nat) : daysInMonth year month ≤ 31 := by
  unfold daysInMonth
  split
  · split <;> decide
  · split <;> decide

/-- Every month ends within its year. -/
theorem daysBeforeMonth_add_le (year : Int) {month : Nat} (hone : 1 ≤ month) (htwelve : month ≤ 12) :
    daysBeforeMonth (isLeap year) month + daysInMonth year month ≤ daysInYear year := by
  have hall : ∀ leap : Bool, ∀ month < 13, 1 ≤ month →
      (daysBeforeMonth leap month + if month = 2 then (if leap then 29 else 28)
        else if month = 4 ∨ month = 6 ∨ month = 9 ∨ month = 11 then 30 else 31) ≤
          if leap then 366 else 365 := by
    decide
  exact hall (isLeap year) month (by omega) hone

/-! ### Dates -/

/-- A day has the number of its date, which lies in its year and in its month. -/
theorem ofDays_spec (days : Int) :
    let d := ofDays days
    d.toDays = days ∧ daysBeforeYear d.year ≤ days + epochDay ∧
      days + epochDay < daysBeforeYear (d.year + 1) ∧
      1 ≤ d.month ∧ d.month ≤ 12 ∧ 1 ≤ d.day ∧ d.day ≤ daysInMonth d.year d.month := by
  obtain ⟨hlow, hhigh⟩ := yearOfDay_spec (days + epochDay)
  have hrest : (days + epochDay - daysBeforeYear (yearOfDay (days + epochDay))).toNat <
      daysInYear (yearOfDay (days + epochDay)) := by
    rw [daysBeforeYear_succ] at hhigh
    omega
  obtain ⟨hone, htwelve, hbefore, hafter⟩ := monthOfDay_spec _ hrest
  simp only [ofDays, toDays]
  exact ⟨by omega, hlow, hhigh, hone, htwelve, by omega, by omega⟩

theorem toDays_ofDays (days : Int) : (ofDays days).toDays = days :=
  (ofDays_spec days).1

theorem toDays_first : toDays ⟨firstYear, 1, 1⟩ = daysBeforeYear firstYear - epochDay := by decide

theorem toDays_last : toDays ⟨lastYear, 12, 31⟩ = daysBeforeYear (lastYear + 1) - 1 - epochDay := by decide

/-- A day is in a year or later from the first day of that year on. -/
theorem le_year_ofDays_iff {year days : Int} :
    year ≤ (ofDays days).year ↔ daysBeforeYear year - epochDay ≤ days := by
  obtain ⟨-, hlow, hhigh, -⟩ := ofDays_spec days
  constructor
  · intro h
    have hmono := daysBeforeYear_mono h
    omega
  · intro h
    refine Int.not_lt.1 fun hlt => ?_
    have hmono := daysBeforeYear_mono (show (ofDays days).year + 1 ≤ year by omega)
    omega

/-- The date of a day between the first and the last of the calendar is a date. -/
theorem isValid_ofDays {days : Int} (hfirst : toDays ⟨firstYear, 1, 1⟩ ≤ days)
    (hlast : days ≤ toDays ⟨lastYear, 12, 31⟩) : (ofDays days).isValid = true := by
  obtain ⟨-, -, -, hmonth, hmonth', hday, hday'⟩ := ofDays_spec days
  rw [toDays_first] at hfirst
  rw [toDays_last] at hlast
  have hyear : ¬ lastYear + 1 ≤ (ofDays days).year := by
    rw [le_year_ofDays_iff]
    omega
  exact decide_eq_true ⟨le_year_ofDays_iff.2 hfirst, by omega, hmonth, hmonth', hday, hday'⟩

/-- The number of a date lies in the year of the date. -/
theorem toDays_bounds {d : Date} (h : d.isValid = true) :
    daysBeforeYear d.year - epochDay ≤ d.toDays ∧ d.toDays < daysBeforeYear (d.year + 1) - epochDay := by
  obtain ⟨-, -, hmonth, hmonth', hday, hday'⟩ := of_decide_eq_true h
  have hends := daysBeforeMonth_add_le d.year hmonth hmonth'
  rw [daysBeforeYear_succ, toDays]
  omega

/-- The number of a date lies between those of the first and the last date of the calendar. -/
theorem toDays_of_isValid {d : Date} (h : d.isValid = true) :
    toDays ⟨firstYear, 1, 1⟩ ≤ d.toDays ∧ d.toDays ≤ toDays ⟨lastYear, 12, 31⟩ := by
  obtain ⟨hlow, hhigh⟩ := toDays_bounds h
  obtain ⟨hyear, hyear', -⟩ := of_decide_eq_true h
  have hmono := daysBeforeYear_mono hyear
  have hmono' := daysBeforeYear_mono (show d.year + 1 ≤ lastYear + 1 by omega)
  rw [toDays_first, toDays_last]
  omega

end SeriesPivot.Date
