import SeriesPivot.Plan.Compile
import SeriesPivot.Proofs.Calendar.Literal

/-!
# Ranges of time

A range of time is exclusive on both ends. Its bounds go into a statement as literals with three digits
behind the second, so each of them is cut to a whole number of milliseconds. Points have whole milliseconds
too, so that this does nothing to the start of a range; but a point at the last whole millisecond before the
end is left out when the end itself is none.

* `lt_floorMillis_iff` and `floorMillis_lt_iff` say what cutting a bound does to the points around it.
* `conditions_of_range`: which points the literals of a range select.
-/

namespace SeriesPivot

namespace Instant

/-- Instants in the order of time. -/
instance : LT Instant :=
  ⟨fun a b => a.seconds < b.seconds ∨ a.seconds = b.seconds ∧ a.nanos < b.nanos⟩

theorem lt_def {a b : Instant} :
    a < b ↔ a.seconds < b.seconds ∨ a.seconds = b.seconds ∧ a.nanos < b.nanos := Iff.rfl

instance : DecidableLT Instant := fun a b =>
  inferInstanceAs (Decidable (a.seconds < b.seconds ∨ a.seconds = b.seconds ∧ a.nanos < b.nanos))

/-- Whether an instant is a whole number of milliseconds. -/
def IsMillis (t : Instant) : Prop :=
  t.nanos % 1000000 = 0

instance (t : Instant) : Decidable t.IsMillis :=
  inferInstanceAs (Decidable (t.nanos % 1000000 = 0))

theorem floorMillis_eq_self_iff {t : Instant} : t.floorMillis = t ↔ t.IsMillis := by
  obtain ⟨seconds, nanos⟩ := t
  simp only [floorMillis, IsMillis, Instant.mk.injEq, true_and]
  omega

/-- Cutting a start leaves the whole milliseconds after it. -/
theorem floorMillis_lt_iff {s t : Instant} (ht : t.IsMillis) : s.floorMillis < t ↔ s < t := by
  simp only [lt_def, floorMillis, IsMillis] at ht ⊢
  omega

/-- Cutting an end takes one of the whole milliseconds before it away, if it is none itself. -/
theorem lt_floorMillis_iff {t e : Instant} (ht : t.IsMillis) :
    t < e.floorMillis ↔ t < e ∧ t ≠ e.floorMillis := by
  obtain ⟨seconds, nanos⟩ := t
  simp only [lt_def, floorMillis, IsMillis, ne_eq, Instant.mk.injEq] at ht ⊢
  omega

theorem floorMillis_lt_self_iff {e : Instant} : e.floorMillis < e ↔ ¬ e.IsMillis := by
  simp only [lt_def, floorMillis, IsMillis, true_and]
  omega

theorem isMillis_floorMillis (e : Instant) : e.floorMillis.IsMillis := by
  simp only [floorMillis, IsMillis]
  omega

end Instant

namespace Json

/-- A value that is read as an instant is one of the calendar. -/
theorem proper_of_instant? {j : Json} {t : Instant} (h : j.instant? = some t) : t.Proper := by
  cases j with
  | number n => exact Instant.proper_of_ofMillis? h
  | string s => exact Instant.proper_of_read? h
  | null | bool _ | array _ | object _ => cases h

end Json

namespace Clauses

open Instant

/-- The literals of a range of time select the points after its start and before its end, but for a point
at the last whole millisecond before the end when the end is none. So exactly the points in the range are
selected if and only if the end is a whole number of milliseconds, or if none is between start and end. -/
theorem conditions_of_range {start stop : Json} {s e : Instant} (hstart : start.instant? = some s)
    (hstop : stop.instant? = some e) :
    ∃ low high : Json, ∃ s' e' : Instant,
      (ofTimeframe (some (.range (some start) (some stop)))).conditions =
        [("time", [(.gt, low), (.lt, high)])] ∧
      low.instant? = some s' ∧ high.instant? = some e' ∧
      (∀ t : Instant, t.IsMillis → (s' < t ∧ t < e' ↔ s < t ∧ t < e ∧ t ≠ e.floorMillis)) ∧
      ((∀ t : Instant, t.IsMillis → (s' < t ∧ t < e' ↔ s < t ∧ t < e)) ↔
        e.IsMillis ∨ ¬ s < e.floorMillis) := by
  have hselected : ∀ t : Instant, t.IsMillis →
      (s.floorMillis < t ∧ t < e.floorMillis ↔ s < t ∧ t < e ∧ t ≠ e.floorMillis) := fun t ht => by
    rw [floorMillis_lt_iff ht, lt_floorMillis_iff ht]
  refine ⟨.string s.toLiteral, .string e.toLiteral, s.floorMillis, e.floorMillis, ?_,
    read?_toLiteral (Json.proper_of_instant? hstart), read?_toLiteral (Json.proper_of_instant? hstop),
    hselected, ?_⟩
  · simp [ofTimeframe, ofRange, bound, timeColumn, hstart, hstop]
  · constructor
    · intro h
      by_cases he : e.IsMillis
      · exact .inl he
      · refine .inr fun hs => ?_
        -- the point that is left out
        have hmillis := isMillis_floorMillis e
        have hpoint := (hselected _ hmillis).1 ((h _ hmillis).2 ⟨hs, floorMillis_lt_self_iff.2 he⟩)
        exact hpoint.2.2 rfl
    · intro h t ht
      rw [hselected t ht]
      refine and_congr_right fun hs => and_iff_left_of_imp fun hlt => ?_
      rintro rfl
      rcases h with he | hnot
      · rw [floorMillis_eq_self_iff.2 he] at hlt
        simp [lt_def] at hlt
      · exact hnot hs

/-- A range from a leap second before the year 0 to a whole number of milliseconds. -/
theorem conditions_of_range_leap :
    ∃ low high : Json, ∃ s' e' : Instant,
      (ofTimeframe (some (.range (some (.string " -0001-12-31T23:59:60.9999999 "))
        (some (.number (.int 1704067200000)))))).conditions = [("time", [(.gt, low), (.lt, high)])] ∧
      low.instant? = some s' ∧ high.instant? = some e' ∧
      ∀ t : Instant, t.IsMillis →
        (s' < t ∧ t < e' ↔ ⟨-62167219201, 1999999900⟩ < t ∧ t < ⟨1704067200, 0⟩) := by
  have hstart : (Json.string " -0001-12-31T23:59:60.9999999 ").instant? =
      some ⟨-62167219201, 1999999900⟩ := by decide +kernel
  have hstop : (Json.number (.int 1704067200000)).instant? = some ⟨1704067200, 0⟩ := by decide +kernel
  obtain ⟨low, high, s', e', hconditions, hlow, hhigh, -, hiff⟩ := conditions_of_range hstart hstop
  exact ⟨low, high, s', e', hconditions, hlow, hhigh, hiff.2 (.inl (by decide))⟩

/-- A point half a millisecond before the end of a range is left out. -/
theorem point_before_end_left_out :
    ∃ s e t s' e' : Instant, (Json.string "2023-12-31").instant? = some s ∧
      (Json.string "2024-01-01T00:00:00.0005Z").instant? = some e ∧
      t.IsMillis ∧ s < t ∧ t < e ∧
      (ofTimeframe (some (.range (some (.string "2023-12-31"))
        (some (.string "2024-01-01T00:00:00.0005Z"))))).conditions =
        [("time", [(.gt, .string "2023-12-31 00:00:00.000"),
          (.lt, .string "2024-01-01 00:00:00.000")])] ∧
      (Json.string "2023-12-31 00:00:00.000").instant? = some s' ∧
      (Json.string "2024-01-01 00:00:00.000").instant? = some e' ∧ ¬ (s' < t ∧ t < e') := by
  refine ⟨⟨1703980800, 0⟩, ⟨1704067200, 500000⟩, ⟨1704067200, 0⟩, ⟨1703980800, 0⟩, ⟨1704067200, 0⟩, ?_, ?_,
    by decide, by decide, by decide, ?_, ?_, ?_, by decide⟩
  all_goals decide +kernel

end Clauses

end SeriesPivot
