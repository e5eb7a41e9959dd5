import SeriesPivot.Proofs.Pivot.Tuples
import SeriesPivot.Proofs.Plan.TimeRange
import SeriesPivot.Provider.Insertion

/-!
# Times of documents

The time of a row is a number of epoch milliseconds. Its document shows it in RFC 3339 if it is positive
and the calendar has it, and as the number otherwise. However it is shown, it can be told from all others;
and what is shown of the years up to 9999 is read as the same time by whatever reads times.

* `normalizeTime_injective`: different times are shown differently.
* `eq_of_rowId_eq`: rows of one identity are of one time, if a date is asked for.
* `instant?_normalizeTime`: what is shown in RFC 3339 denotes the time that it was written for.
* `Insertion.time?_of_instant?`: the time of a document is what its first time column denotes.
-/

namespace SeriesPivot

/-! ### Instants of epoch milliseconds -/

namespace Instant

theorem isMillis_of_ofMillis? {ms : Int} {t : Instant} (h : ofMillis? ms = some t) : t.IsMillis := by
  simp only [ofMillis?, Option.ite_none_right_eq_some, Option.some.injEq] at h
  obtain ⟨-, rfl⟩ := h
  exact Nat.mul_mod_left _ 1000000

theorem toMillis_of_ofMillis? {ms : Int} {t : Instant} (h : ofMillis? ms = some t) : t.toMillis = ms := by
  simp only [ofMillis?, Option.ite_none_right_eq_some, Option.some.injEq] at h
  obtain ⟨-, rfl⟩ := h
  simp only [toMillis]
  omega

/-- The first second of the year 10000. -/
def fiveDigitYear : Int := 253402300800

/-- The seconds from the epoch up to the year 10000 are in years of four digits. -/
theorem year_bounds {t : Instant} (h : 0 ≤ t.seconds) (h' : t.seconds < fiveDigitYear) :
    0 ≤ t.date.year ∧ t.date.year ≤ 9999 := by
  have hfirst : Date.daysBeforeYear 0 - Date.epochDay ≤ 0 := by decide
  have hlast : fiveDigitYear ≤ (Date.daysBeforeYear 10000 - Date.epochDay) * 86400 := by decide
  have hlow : 0 ≤ t.date.year := Date.le_year_ofDays_iff.2 (by omega)
  have hhigh : ¬ 10000 ≤ t.date.year := by
    rw [date, Date.le_year_ofDays_iff]
    omega
  omega

end Instant

namespace Pivot

/-! ### Times are told apart -/

theorem normalizeTime_ofInt {ms : Int} (h : Text.fitsInt64 ms = true) :
    normalizeTime (.ofInt ms) = renderMillis ms (.ofInt ms) := by
  have hrange := of_decide_eq_true h
  simp only [normalizeTime, Json.ofInt, Json.Number.asInt64?]
  rw [if_pos hrange.2]

/-- A time is shown in RFC 3339 or as it is. -/
theorem normalizeTime_cases {ms : Int} (h : Text.fitsInt64 ms = true) :
    normalizeTime (.ofInt ms) = .ofInt ms ∨
      ∃ t, Instant.ofMillis? ms = some t ∧ normalizeTime (.ofInt ms) = .string t.toUtcMillis := by
  rw [normalizeTime_ofInt h, renderMillis]
  split
  case isTrue =>
    cases ht : Instant.ofMillis? ms with
    | none => exact .inl rfl
    | some t => exact .inr ⟨t, rfl, rfl⟩
  case isFalse => exact .inl rfl

/-- Different times are shown differently. -/
theorem normalizeTime_injective {a b : Int} (ha : Text.fitsInt64 a = true) (hb : Text.fitsInt64 b = true)
    (h : normalizeTime (.ofInt a) = normalizeTime (.ofInt b)) : a = b := by
  rcases normalizeTime_cases ha with ha | ⟨t, ht, ha⟩ <;>
    rcases normalizeTime_cases hb with hb | ⟨u, hu, hb⟩ <;> rw [ha, hb] at h
  · exact Json.Number.int.inj (Json.number.inj h)
  · cases h
  · cases h
  · have hfloor := Instant.floorMillis_eq_of_toUtcMillis_eq (Instant.proper_of_ofMillis? ht)
      (Instant.proper_of_ofMillis? hu) (Json.string.inj h)
    rw [Instant.floorMillis_eq_self_iff.2 (Instant.isMillis_of_ofMillis? ht),
      Instant.floorMillis_eq_self_iff.2 (Instant.isMillis_of_ofMillis? hu)] at hfloor
    rw [← Instant.toMillis_of_ofMillis? ht, hfloor, Instant.toMillis_of_ofMillis? hu]

/-! ### Rows of different times -/

/-- Only one name without an underscore is shown as that name. -/
theorem eq_of_normalizeColumn_eq {column name : String} (hname : '_' ∉ name.toList)
    (h : normalizeColumn column = name) : column = name := by
  subst h
  have hdot : '.' ∉ column.toList := fun hmem => hname <| by
    simp only [normalizeColumn, Text.expand, String.toList_ofList, List.mem_flatMap]
    exact ⟨'.', hmem, by simp⟩
  have hkept : ∀ c ∈ column.toList, (if c = '.' then ['_'] else [c]) = [c] := by
    rintro c hc
    refine if_neg ?_
    rintro rfl
    exact hdot hc
  rw [normalizeColumn, Text.expand, List.flatMap_congr hkept, List.flatMap_singleton', String.ofList_toList]

/-- A row of a time: its time column has the epoch milliseconds, and no other column is shown as the
time. -/
structure RowAt (ms : Int) (row : Row) : Prop where
  fits : Text.fitsInt64 ms = true
  time : ("time", Json.ofInt ms) ∈ row
  only : ∀ v, ("time", v) ∈ row → v = .ofInt ms
  free : "timestamp" ∉ row.map Prod.fst

theorem RowAt.find?_timestamp {ms : Int} {row : Row} (h : RowAt ms row) :
    Assoc.find? timestampField (normalizeRow row) = some (normalizeTime (.ofInt ms)) := by
  refine find?_normalizeRow (List.mem_map.2 ⟨_, h.time, rfl⟩) fun v hv => ?_
  rcases mem_normalizeCell hv with ⟨-, w, hw, rfl⟩ | ⟨column, hcolumn, -, hname⟩
  · rw [h.only w hw]
  · rw [eq_of_normalizeColumn_eq (by decide) hname] at hcolumn
    exact absurd (List.mem_map.2 ⟨_, hcolumn, rfl⟩) h.free

/-- A date is found in identities under its name, if no dimension of another type has that name. -/
theorem find?_rowId_of_date {dimensions : List Dimension} {d : Dimension} (hd : d ∈ dimensions)
    (hdate : d.datatype = .date)
    (hname : ∀ e ∈ dimensions, e.isKeyed = true → normalizeColumn e.key = normalizeColumn d.key →
      e.datatype = .date) (row : Row) :
    Assoc.find? (normalizeColumn d.key) (rowId dimensions row) =
      some ((Assoc.find? timestampField row).getD (.string notSet)) := by
  have hkeyed : d.isKeyed = true := by simp [Dimension.isKeyed, hdate]
  rw [← Dimension.value?_of_date hdate]
  refine find?_rowId_of_forall hd hkeyed fun e he hkeyed' hkey => ?_
  rw [Dimension.value?_of_date hdate, Dimension.value?_of_date (hname e he hkeyed' hkey)]

/-- Rows of one identity are of one time, if a date is asked for. -/
theorem eq_of_rowId_eq {dimensions : List Dimension} {d : Dimension} (hd : d ∈ dimensions)
    (hdate : d.datatype = .date)
    (hname : ∀ e ∈ dimensions, e.isKeyed = true → normalizeColumn e.key = normalizeColumn d.key →
      e.datatype = .date) {row other : Row} {a b : Int} (ha : RowAt a row) (hb : RowAt b other)
    (h : rowId dimensions (normalizeRow row) = rowId dimensions (normalizeRow other)) : a = b := by
  have hfind := congrArg (Assoc.find? (normalizeColumn d.key)) h
  rw [find?_rowId_of_date hd hdate hname, find?_rowId_of_date hd hdate hname, ha.find?_timestamp,
    hb.find?_timestamp, Option.some.injEq] at hfind
  exact normalizeTime_injective ha.fits hb.fits hfind

end Pivot

/-! ### Times are read back -/

/-- The time of a document is what the first of its time columns denotes. -/
theorem Insertion.time?_of_instant? {fields : List String} {document : List (String × Json)} {j : Json}
    {t : Instant} (h : (fields.findSome? fun name => Assoc.find? name document) = some j)
    (ht : j.instant? = some t) : time? fields document = some t.toMillis := by
  obtain ⟨before, name, after, rfl, hname, hbefore⟩ := List.findSome?_eq_some_iff.1 h
  refine List.findSome?_eq_some_iff.2 ⟨before, name, after, rfl, ?_, fun other hother => ?_⟩
  · rw [hname, Option.bind_some, ht, Option.map_some]
  · rw [hbefore other hother]
    rfl

/-- Bounds of one instant restrict a range of time alike. -/
theorem Clauses.ofRange_congr {start start' stop stop' : Option Json}
    (hstart : start.bind Json.instant? = start'.bind Json.instant?)
    (hstop : stop.bind Json.instant? = stop'.bind Json.instant?) :
    ofRange start stop = ofRange start' stop' := by
  simp only [ofRange, bound, hstart, hstop]

namespace Pivot

open Instant Scan

theorem instant?_ofInt {ms : Int} (h : Text.fitsInt64 ms = true) :
    (Json.ofInt ms).instant? = ofMillis? ms := by
  have hrange := of_decide_eq_true h
  have hclamp : max (-0x8000000000000000) (min ms 0x7fffffffffffffff) = ms := by omega
  rw [Json.ofInt, Json.instant?, Json.Number.clampInt64, hclamp]

/-- A positive time before the year 10000 is shown in RFC 3339, which denotes that time. -/
theorem instant?_normalizeTime {ms : Int} (hpositive : 0 < ms) (hyear : ms < fiveDigitYear * 1000) :
    ∃ text t, normalizeTime (.ofInt ms) = .string text ∧ whole rfc3339 text.toList = some t ∧
      (Json.string text).instant? = some t ∧ (Json.ofInt ms).instant? = some t := by
  have hfirst : firstSecond ≤ 0 := by decide
  have hlast : fiveDigitYear ≤ lastSecond := by decide
  have hfits : Text.fitsInt64 ms = true := decide_eq_true (by simp only [fiveDigitYear] at hyear; omega)
  obtain ⟨t, hsome, hseconds⟩ : ∃ t, ofMillis? ms = some t ∧ t.seconds = ms / 1000 :=
    ⟨_, if_pos (by omega), rfl⟩
  have hproper := proper_of_ofMillis? hsome
  have hfour : 0 ≤ t.date.year ∧ t.date.year ≤ 9999 := year_bounds (by omega) (by omega)
  have hfloor := floorMillis_eq_self_iff.2 (isMillis_of_ofMillis? hsome)
  have hrfc := rfc3339_toUtcMillis hproper hfour
  have hread := read?_toUtcMillis hproper hfour
  rw [hfloor] at hrfc hread
  refine ⟨t.toUtcMillis, t, ?_, ?_, hread, (instant?_ofInt hfits).trans hsome⟩
  · rw [normalizeTime_ofInt hfits, renderMillis, if_pos hpositive, hsome]
  · rw [whole, hrfc]

/-- Different times are shown differently, so that rows of different times never have one identity if a
date is asked for. A positive time before the year 10000 is shown in RFC 3339, and what is shown denotes
that very time, as a bound of a range of time and as the time of a document. -/
theorem normalizeTime_identifies :
    (∀ a b : Int, Text.fitsInt64 a = true → Text.fitsInt64 b = true →
      normalizeTime (.ofInt a) = normalizeTime (.ofInt b) → a = b) ∧
    (∀ (dimensions : List Dimension) (d : Dimension) (row other : Row) (a b : Int),
      d ∈ dimensions → d.datatype = .date →
      (∀ e ∈ dimensions, e.isKeyed = true → normalizeColumn e.key = normalizeColumn d.key →
        e.datatype = .date) →
      RowAt a row → RowAt b other →
      rowId dimensions (normalizeRow row) = rowId dimensions (normalizeRow other) → a = b) ∧
    ∀ ms : Int, 0 < ms → ms < 253402300800000 →
      ∃ text t, normalizeTime (.ofInt ms) = .string text ∧ whole rfc3339 text.toList = some t ∧
        (Json.string text).instant? = some t ∧ (Json.ofInt ms).instant? = some t ∧ t.toMillis = ms ∧
        (∀ bound, Clauses.ofRange (some (.string text)) bound = Clauses.ofRange (some (.ofInt ms)) bound ∧
          Clauses.ofRange bound (some (.string text)) = Clauses.ofRange bound (some (.ofInt ms))) ∧
        ∀ (fields : List String) (document : List (String × Json)),
          (fields.findSome? fun name => Assoc.find? name document) = some (.string text) →
          Insertion.time? fields document = some ms := by
  refine ⟨fun a b ha hb h => normalizeTime_injective ha hb h,
    fun dimensions d row other a b hd hdate hname ha hb h => eq_of_rowId_eq hd hdate hname ha hb h,
    fun ms hpositive hyear => ?_⟩
  obtain ⟨text, t, htext, hrfc, hread, hnumber⟩ := instant?_normalizeTime hpositive hyear
  have hfits : Text.fitsInt64 ms = true := decide_eq_true (by omega)
  have hmillis : t.toMillis = ms := toMillis_of_ofMillis? ((instant?_ofInt hfits).symm.trans hnumber)
  have hsame : (some (Json.string text)).bind Json.instant? = (some (Json.ofInt ms)).bind Json.instant? :=
    hread.trans hnumber.symm
  refine ⟨text, t, htext, hrfc, hread, hnumber, hmillis, fun bound => ?_, fun fields document h => ?_⟩
  · exact ⟨Clauses.ofRange_congr hsame rfl, Clauses.ofRange_congr rfl hsame⟩
  · rw [Insertion.time?_of_instant? h hread, hmillis]

/-- The last time that the calendar has and the one after it, two buckets of a minute, and the last
millisecond of the year 9999. -/
theorem normalizeTime_identifies_ends :
    normalizeTime (.ofInt 8210266876799999) ≠ normalizeTime (.ofInt 8210266876800000) ∧
    rowId [⟨"date", .date, none, none⟩]
        (normalizeRow [("time", .ofInt 1704067200000), ("visits", .ofInt 1)]) ≠
      rowId [⟨"date", .date, none, none⟩]
        (normalizeRow [("time", .ofInt 1704067260000), ("visits", .ofInt 1)]) ∧
    normalizeTime (.ofInt 253402300799999) = .string "9999-12-31T23:59:59.999Z" ∧
    Insertion.time? ["at", "time", "timestamp"] [("timestamp", .string "9999-12-31T23:59:59.999Z")] =
      some 253402300799999 := by
  obtain ⟨htold, hrows, hback⟩ := normalizeTime_identifies
  have hrow : ∀ ms : Int, Text.fitsInt64 ms = true →
      RowAt ms [("time", .ofInt ms), ("visits", .ofInt 1)] := fun ms hms =>
    ⟨hms, List.mem_cons_self, fun v hv => by simpa using hv, by simp⟩
  refine ⟨fun h => ?_, fun h => ?_, ?_⟩
  · exact absurd (htold _ _ (by decide) (by decide) h) (by decide)
  · have htimes := hrows _ ⟨"date", .date, none, none⟩ _ _ _ _ (by decide) rfl (by decide)
      (hrow 1704067200000 (by decide)) (hrow 1704067260000 (by decide)) h
    exact absurd htimes (by decide)
  · obtain ⟨text, t, htext, -, -, -, -, -, hdocument⟩ := hback 253402300799999 (by decide) (by decide)
    have hshown : normalizeTime (.ofInt 253402300799999) = .string "9999-12-31T23:59:59.999Z" := by
      decide +kernel
    obtain rfl := Json.string.inj (htext.symm.trans hshown)
    exact ⟨hshown, hdocument _ _ (by decide)⟩

end Pivot

end SeriesPivot
