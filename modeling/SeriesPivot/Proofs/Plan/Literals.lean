import SeriesPivot.Proofs.Plan.TimeRange

/-!
# Literals tell instants

Bounds of time go into statements as literals. The instants that bounds may denote are those of the calendar,
from its first year to its last and with leap seconds, and a literal is a bound that denotes the instant that
it was written for, up to a whole number of milliseconds.

* `exists_read?_iff`: the instants that texts denote are those of the calendar.
* `instant?_toLiteral`: what a literal denotes, and that it tells instants of whole milliseconds apart.
-/

namespace SeriesPivot

namespace Instant

/-- Every instant of the calendar is denoted by a text: the one with nine digits behind the second. -/
theorem Proper.exists_read? {t : Instant} (h : t.Proper) : ∃ text, read? text = some t := by
  have hspells := Text.spells_padNat 9 (t.nanos % 1000000000)
  have hlength : (Text.padNat 9 (t.nanos % 1000000000)).toList.length = 9 :=
    Text.length_padNat (by decide) (by omega)
  refine ⟨String.ofList (t.written ' ' ('.' :: (Text.padNat 9 (t.nanos % 1000000000)).toList)), ?_⟩
  refine read?_of_written h.fields hspells (Nat.le_of_eq hlength) String.toList_ofList ?_
  rw [h.ofWritten?_eq, hlength, Option.some.injEq]
  obtain ⟨seconds, nanos⟩ := t
  simp only [Instant.mk.injEq, true_and]
  omega

theorem exists_read?_iff {t : Instant} : (∃ text, read? text = some t) ↔ t.Proper :=
  ⟨fun ⟨_, h⟩ => proper_of_read? h, fun h => h.exists_read?⟩

end Instant

namespace Json

open Instant

theorem exists_instant?_iff {t : Instant} : (∃ j : Json, j.instant? = some t) ↔ t.Proper := by
  refine ⟨fun ⟨_, h⟩ => proper_of_instant? h, fun h => ?_⟩
  obtain ⟨text, htext⟩ := exists_read?_iff.2 h
  exact ⟨.string text, htext⟩

/-- Values denote the instants of the calendar. The literal of such an instant denotes it again, cut to a
whole number of milliseconds, so that instants of whole milliseconds are told apart by their literals. -/
theorem instant?_toLiteral :
    (∀ t : Instant, (∃ j : Json, j.instant? = some t) ↔ t.Proper) ∧
    (∀ (j : Json) (t : Instant), j.instant? = some t →
      (Json.string t.toLiteral).instant? = some t.floorMillis) ∧
    ∀ (j k : Json) (t u : Instant), j.instant? = some t → k.instant? = some u → t.IsMillis → u.IsMillis →
      t.toLiteral = u.toLiteral → t = u := by
  have hback : ∀ (j : Json) (t : Instant), j.instant? = some t →
      (Json.string t.toLiteral).instant? = some t.floorMillis := fun j t h =>
    read?_toLiteral (proper_of_instant? h)
  refine ⟨fun t => exists_instant?_iff, hback, fun j k t u hj hk ht hu heq => ?_⟩
  have hfloor : some t.floorMillis = some u.floorMillis := by
    rw [← hback j t hj, ← hback k u hk, heq]
  rwa [floorMillis_eq_self_iff.2 ht, floorMillis_eq_self_iff.2 hu, Option.some.injEq] at hfloor

/-- The last second of the calendar as a leap second, and the leap second before the year 0, which is told
from the second after it. -/
theorem instant?_toLiteral_leap :
    (Json.string "+262142-12-31 23:59:60.9994999").instant? = some ⟨8210266876799, 1999499900⟩ ∧
    (Json.string (toLiteral ⟨8210266876799, 1999499900⟩)).instant? = some ⟨8210266876799, 1999000000⟩ ∧
    (∃ j : Json, j.instant? = some ⟨-62167219201, 1000000000⟩) ∧
    (Json.string "0000-01-01").instant? = some ⟨-62167219200, 0⟩ ∧
    toLiteral ⟨-62167219201, 1000000000⟩ ≠ toLiteral ⟨-62167219200, 0⟩ := by
  obtain ⟨hall, hback, htold⟩ := instant?_toLiteral
  have hlast : (Json.string "+262142-12-31 23:59:60.9994999").instant? =
      some ⟨8210266876799, 1999499900⟩ := by decide +kernel
  have hleap : ∃ j : Json, j.instant? = some ⟨-62167219201, 1000000000⟩ :=
    (hall _).2 ⟨by decide, by decide, by decide⟩
  have hzero : (Json.string "0000-01-01").instant? = some ⟨-62167219200, 0⟩ := by decide +kernel
  refine ⟨hlast, hback _ _ hlast, hleap, hzero, fun heq => ?_⟩
  obtain ⟨j, hj⟩ := hleap
  exact absurd (htold j _ _ _ hj hzero (by decide) (by decide) heq) (by decide)

end Json

end SeriesPivot
