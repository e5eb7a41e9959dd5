import SeriesPivot.Pivot
import SeriesPivot.Proofs.Json.ReadBack
import SeriesPivot.Proofs.Store.Results

/-!
# Responses are read whole or not at all

A response is an error if there is one anywhere in it, and otherwise it has all series of its statements. A
result of it has one row for each list of values. In a row the last column of a name counts, and a tag of a
name that no column has.

* `Response.FirstError` says which error of a response counts, and `Response.Faultless` that it has none.
* `Response.toResult_eq_error_iff`, `Response.toResult_eq_ok_iff`: what a response is read as.
* `Series.IsRow` says what a row has of a series and a list of values (`Series.isRow_row`).
* `Response.read_decoded`: what is read from a body, and the rows of it that are put into documents.
* `Response.decode_written`: nothing is lost, as a response is decoded again from what it is written as.
-/

namespace SeriesPivot

/-! ### Errors and series -/

namespace Response

/-- The error of a response that counts: the one of the whole response, or else the first one of its
statements, whatever series the statements have. -/
inductive FirstError (r : Response) (message : String) : Prop where
  | whole (h : r.error = some message)
  | statement {before after : List StatementResult} {x : StatementResult} (hwhole : r.error = none)
    (hsplit : r.results = before ++ x :: after) (hbefore : ∀ y ∈ before, y.error = none)
    (hx : x.error = some message)

/-- A response without an error. -/
structure Faultless (r : Response) : Prop where
  whole : r.error = none
  statements : ∀ x ∈ r.results, x.error = none

theorem collect_eq_ok_iff {results : List StatementResult} {series : List Series} :
    collect results = .ok series ↔
      (∀ x ∈ results, x.error = none) ∧ series = results.flatMap StatementResult.series := by
  induction results generalizing series with
  | nil => simp [collect, eq_comm]
  | cons x results ih =>
    unfold collect
    cases hx : x.error with
    | some message => simp [hx]
    | none =>
      simp only [map_eq_ok_iff, ih, List.forall_mem_cons, hx, true_and, List.flatMap_cons]
      constructor
      · rintro ⟨rest, ⟨hresults, rfl⟩, rfl⟩
        exact ⟨hresults, rfl⟩
      · rintro ⟨hresults, rfl⟩
        exact ⟨_, ⟨hresults, rfl⟩, rfl⟩

/-- The statements before the first error have none. -/
theorem collect_append {before after : List StatementResult} {x : StatementResult} {message : String}
    (hbefore : ∀ y ∈ before, y.error = none) (hx : x.error = some message) :
    collect (before ++ x :: after) = .error (.statement message) := by
  induction before with
  | nil => simp [collect, hx]
  | cons y before ih =>
    rw [List.forall_mem_cons] at hbefore
    rw [List.cons_append, collect, hbefore.1, ih hbefore.2]
    rfl

theorem exists_of_collect_eq_error {results : List StatementResult} {e : StoreError}
    (h : collect results = .error e) : ∃ before x after message, results = before ++ x :: after ∧
      (∀ y ∈ before, y.error = none) ∧ x.error = some message ∧ e = .statement message := by
  induction results with
  | nil => cases h
  | cons x results ih =>
    unfold collect at h
    cases hx : x.error with
    | some message =>
      rw [hx] at h
      cases h
      exact ⟨[], x, results, message, rfl, by simp, hx, rfl⟩
    | none =>
      rw [hx] at h
      cases hrest : collect results with
      | ok series =>
        rw [hrest] at h
        cases h
      | error e' =>
        rw [hrest] at h
        cases h
        obtain ⟨before, y, after, message, rfl, hbefore, hy, rfl⟩ := ih hrest
        exact ⟨x :: before, y, after, message, rfl, by simpa [hx] using hbefore, hy, rfl⟩

theorem toResult_eq_error_iff {r : Response} {e : StoreError} :
    r.toResult = .error e ↔ ∃ message, r.FirstError message ∧ e = .statement message := by
  unfold toResult
  cases hwhole : r.error with
  | some whole =>
    constructor
    · rintro ⟨⟩
      exact ⟨whole, .whole hwhole, rfl⟩
    · rintro ⟨message, h | ⟨hnone, -, -, -⟩, rfl⟩
      · rw [Option.some.inj (hwhole.symm.trans h)]
      · cases hwhole.symm.trans hnone
  | none =>
    constructor
    · intro h
      cases hcollect : collect r.results with
      | ok series =>
        rw [hcollect] at h
        cases h
      | error e' =>
        rw [hcollect] at h
        cases h
        obtain ⟨before, x, after, message, hsplit, hbefore, hx, rfl⟩ :=
          exists_of_collect_eq_error hcollect
        exact ⟨message, .statement hwhole hsplit hbefore hx, rfl⟩
    · rintro ⟨message, h | ⟨-, hsplit, hbefore, hx⟩, rfl⟩
      · cases hwhole.symm.trans h
      · rw [hsplit, collect_append hbefore hx]
        rfl

theorem toResult_eq_ok_iff {r : Response} {raw : RawResult} :
    r.toResult = .ok raw ↔ r.Faultless ∧ raw.series = r.results.flatMap StatementResult.series := by
  unfold toResult
  cases hwhole : r.error with
  | some message =>
    constructor
    · rintro ⟨⟩
    · rintro ⟨h, -⟩
      cases hwhole.symm.trans h.whole
  | none =>
    simp only [map_eq_ok_iff, collect_eq_ok_iff]
    constructor
    · rintro ⟨series, ⟨hstatements, rfl⟩, rfl⟩
      exact ⟨⟨hwhole, hstatements⟩, rfl⟩
    · rintro ⟨h, hseries⟩
      exact ⟨raw.series, ⟨h.statements, hseries⟩, rfl⟩

end Response

/-! ### Rows -/

namespace Series

/-- The value of a name in the row of a list of values: that of the last column of this name which has a
value, or that of a tag if there is no such column. -/
inductive Cell (s : Series) (values : List Json) (name : String) (v : Json) : Prop where
  | column (i : ℕ) (hname : s.columns[i]? = some name) (hvalue : values[i]? = some v)
    (hlast : ∀ j, i < j → j < values.length → s.columns[j]? ≠ some name)
  | tag (htag : (name, v) ∈ s.tags) (hcolumn : ∀ j < values.length, s.columns[j]? ≠ some name)

/-- A row has just the cells of a list of values, in the order of names. -/
structure IsRow (s : Series) (values : List Json) (row : Row) : Prop where
  sorted : Assoc.Sorted row
  mem_iff : ∀ name v, (name, v) ∈ row ↔ s.Cell values name v

variable {s : Series} {values : List Json} {name : String}

theorem find?_zip_eq_none_iff : Assoc.find? name (s.columns.zip values).reverse = none ↔
    ∀ j < values.length, s.columns[j]? ≠ some name := by
  rw [Assoc.find?_eq_none_iff, List.map_reverse, List.mem_reverse]
  constructor
  · intro h j hj hname
    refine h (List.mem_map.2 ⟨(name, values[j]), ?_, rfl⟩)
    exact List.mem_of_getElem? (List.getElem?_zip_eq_some.2 ⟨hname, List.getElem?_eq_getElem hj⟩)
  · intro h hmem
    obtain ⟨⟨_, v⟩, hv, rfl⟩ := List.mem_map.1 hmem
    obtain ⟨j, hj⟩ := List.mem_iff_getElem?.1 hv
    obtain ⟨hname, hvalue⟩ := List.getElem?_zip_eq_some.1 hj
    exact h j (List.getElem?_eq_some_iff.1 hvalue).1 hname

theorem find?_zip_eq_some_iff {v : Json} : Assoc.find? name (s.columns.zip values).reverse = some v ↔
    ∃ i, s.columns[i]? = some name ∧ values[i]? = some v ∧
      ∀ j, i < j → j < values.length → s.columns[j]? ≠ some name := by
  rw [Assoc.find?_reverse_eq_some_iff]
  simp only [List.getElem?_zip_eq_some, ne_eq, not_and, and_assoc]
  refine exists_congr fun i => and_congr_right fun _ => and_congr_right fun _ => ?_
  constructor
  · intro h j hij hj hname
    exact h j values[j] hij hname (List.getElem?_eq_getElem hj)
  · intro h j w hij hname hw
    exact h j hij (List.getElem?_eq_some_iff.1 hw).1 hname

/-- The row of a list of values. -/
theorem isRow_row (h : Assoc.Sorted s.tags) (values : List Json) : s.IsRow values (s.row values) := by
  have hsorted : Assoc.Sorted (s.row values) := Assoc.sorted_insertAll _ h
  refine ⟨hsorted, fun name v => ?_⟩
  rw [← Assoc.find?_eq_some_iff (Assoc.nodup_keys hsorted), row, Assoc.find?_insertAll,
    Option.or_eq_some_iff, find?_zip_eq_some_iff, find?_zip_eq_none_iff,
    Assoc.find?_eq_some_iff (Assoc.nodup_keys h)]
  constructor
  · rintro (⟨i, hname, hvalue, hlast⟩ | ⟨hcolumn, htag⟩)
    · exact .column i hname hvalue hlast
    · exact .tag htag hcolumn
  · rintro (⟨i, hname, hvalue, hlast⟩ | ⟨htag, hcolumn⟩)
    · exact .inl ⟨i, hname, hvalue, hlast⟩
    · exact .inr ⟨hcolumn, htag⟩

end Series

namespace RawResult

/-- The lists of values of a result with their series, in order. -/
def entries (raw : RawResult) : List (Series × List Json) :=
  raw.series.flatMap fun s => s.values.map fun values => (s, values)

theorem rows_eq_map (raw : RawResult) : raw.rows = raw.entries.map fun e => e.1.row e.2 := by
  rw [entries, List.map_flatMap]
  exact List.flatMap_congr fun s _ => by rw [Series.rows, List.map_map]; rfl

theorem Kept.isRow {raw : RawResult} (h : raw.Kept) :
    List.Forall₂ (fun e row => e.1.IsRow e.2 row) raw.entries raw.rows := by
  rw [rows_eq_map, List.forall₂_map_right_iff, List.forall₂_same]
  rintro ⟨s, values⟩ hentry
  obtain ⟨_, hs, hvalues⟩ := List.mem_flatMap.1 hentry
  obtain ⟨_, -, he⟩ := List.mem_map.1 hvalues
  cases he
  exact Series.isRow_row (h s hs).tags values

end RawResult

/-! ### Bodies -/

namespace Response

/-- What is read from a body that is a response: the error that counts, or else the series of all
statements in order, and the one or the other but never some of the series. The rows that a pivot puts into
its documents are then one for each list of values, in order, with the tags of its series overlaid by the
columns that have a value. -/
theorem read_decoded {body : String} {r : Response} (h : Json.Decode.fromText? decode body = some r) :
    (∀ e, read body = .error e ↔ ∃ message, r.FirstError message ∧ e = .statement message) ∧
    (∀ raw, read body = .ok raw ↔
      r.Faultless ∧ raw.series = r.results.flatMap StatementResult.series) ∧
    ∀ raw, read body = .ok raw →
      ∃ rows, List.Forall₂ (fun entry row => entry.1.IsRow entry.2 row) raw.entries rows ∧
        ∀ (hash : String → String) (subQuery : String) (p : Pivot), p.fold hash subQuery raw =
          rows.foldl (fun p row => p.foldRow hash subQuery (Pivot.normalizeRow row)) p := by
  have hread : read body = r.toResult := by rw [read, h]
  refine ⟨fun e => ?_, fun raw => ?_, fun raw hraw => ?_⟩
  · rw [hread, toResult_eq_error_iff]
  · rw [hread, toResult_eq_ok_iff]
  · refine ⟨raw.rows, (kept_of_read hraw).isRow, fun hash subQuery p => ?_⟩
    rw [Pivot.fold, List.foldl_map]

/-- Two statements with rows of several lengths. -/
def raggedBody : String :=
  "\x7b\"results\":[\x7b\"series\":[\x7b\"tags\":\x7b\"os\":\"bsd\"\x7d," ++
    "\"columns\":[\"n\",\"os\"],\"values\":[[0,\"mac\",1],[5]]\x7d]\x7d," ++
    "\x7b\"series\":[\x7b\"columns\":[\"n\",\"n\"],\"values\":[[1,2]]\x7d]\x7d]\x7d"

/-- What that body holds. -/
def ragged : Response :=
  ⟨[⟨[⟨"", [("os", .string "bsd")], ["n", "os"],
      [[.ofInt 0, .string "mac", .ofInt 1], [.ofInt 5]]⟩], none⟩,
    ⟨[⟨"", [], ["n", "n"], [[.ofInt 1, .ofInt 2]]⟩], none⟩], none⟩

/-- A statement that fails between two with series, one of which fails too. -/
def failingBody : String :=
  "\x7b\"results\":[\x7b\"series\":[\x7b\"values\":[[1]]\x7d]\x7d,\x7b\"error\":\"late\"\x7d," ++
    "\x7b\"error\":\"lost\",\"series\":[\x7b\x7d]\x7d],\"error\":null\x7d"

/-- What that body holds. -/
def failing : Response :=
  ⟨[⟨[⟨"", [], [], [[.ofInt 1]]⟩], none⟩, ⟨[], some "late"⟩, ⟨[⟨"", [], [], []⟩], some "lost"⟩], none⟩

/-- The one body has three rows, the other one has the first error and no row. -/
theorem read_decoded_raggedAndFailing :
    Json.Decode.fromText? decode raggedBody = some ragged ∧
    Json.Decode.fromText? decode failingBody = some failing ∧
    read failingBody = .error (.statement "late") ∧
    ∃ raw, read raggedBody = .ok raw ∧ raw.series.length = 2 ∧
      ∃ rows, List.Forall₂ (fun entry row => entry.1.IsRow entry.2 row) raw.entries rows ∧
        rows.length = 3 := by
  have hragged : Json.Decode.fromText? decode raggedBody = some ragged := by decide +kernel
  have hfailing : Json.Decode.fromText? decode failingBody = some failing := by decide +kernel
  obtain ⟨herror, -, -⟩ := read_decoded hfailing
  obtain ⟨-, hok, hrows⟩ := read_decoded hragged
  let raw : RawResult := ⟨ragged.results.flatMap StatementResult.series⟩
  have hraw : read raggedBody = .ok raw := (hok raw).2 ⟨⟨rfl, by decide⟩, rfl⟩
  have hfirst : failing.FirstError "late" :=
    @FirstError.statement failing "late" (failing.results.take 1) _ _ rfl rfl (by decide) rfl
  obtain ⟨rows, hall, -⟩ := hrows raw hraw
  exact ⟨hragged, hfailing, (herror _).2 ⟨"late", hfirst, rfl⟩, raw, hraw, rfl, rows, hall,
    hall.length_eq.symm⟩

end Response

/-! ### Responses as they are written -/

open Json.Decode (Makes makes_true makes_json makes_dictionary hereditary_true Reads Slot present
  reads_string reads_json reads_dictionary reads_optional_string ite_none_eq_self ite_nil_eq_self)

/-- A series as it is decoded, with the fields of all objects by increasing names. -/
structure Series.Normal (s : Series) : Prop where
  tags : (Json.object s.tags).Ordered
  values : ∀ values ∈ s.values, ∀ v ∈ values, v.Ordered

namespace Series

theorem makes_decode : Makes decode Normal := by
  refine Json.Decode.KeepsOn.record hereditary_true ⟨.object Assoc.sorted_nil (by simp), by simp⟩ ?_
  simp only [List.forall_mem_cons]
  refine ⟨fun s hs => ?_, fun s hs => ?_, fun s hs => ?_, fun s hs => ?_, by simp⟩
  · exact (makes_true _).map fun _ _ => ⟨hs.tags, hs.values⟩
  · exact makes_dictionary.map fun _ h => ⟨h, hs.values⟩
  · exact (makes_true _).map fun _ _ => ⟨hs.tags, hs.values⟩
  · exact ((makes_json.listOf hereditary_true).listOf hereditary_true).map fun _ h => ⟨hs.tags, h⟩

variable (s : Series)

/-- The series with its fields of these names only. -/
def only (names : List String) : Series :=
  ⟨if "name" ∈ names then s.name else "", if "tags" ∈ names then s.tags else [],
    if "columns" ∈ names then s.columns else [], if "values" ∈ names then s.values else []⟩

/-- The fields of a series with their values. -/
def slots : List (String × Option Json) :=
  [("name", some (.string s.name)), ("tags", if s.tags.isEmpty then none else some (.object s.tags)),
    ("columns", some (.array (s.columns.map .string))), ("values", some (.array (s.values.map .array)))]

theorem toJson_eq : s.toJson = .object (present s.slots) := by
  cases h : s.tags.isEmpty <;> simp [toJson, slots, h]

variable {s}

theorem reads_decode (hs : s.Normal) : Reads decode s.toJson s := by
  rw [toJson_eq]
  refine Reads.record s.only ?_ (by simp [slots]) rfl fun names hnames => ?_
  · have hcolumns : Reads _ _ s.columns := Reads.listOf fun column _ => reads_string column
    have hvalues : Reads (Json.Decode.listOf (Json.Decode.listOf Json.Decode.json))
        (.array (s.values.map .array)) s.values := by
      refine Reads.listOf fun values hvalues => ?_
      have hitems : Reads _ (.array (values.map id)) values :=
        Reads.listOf fun v hv => reads_json (hs.values values hvalues v hv)
      rwa [List.map_id] at hitems
    simp only [slots, List.forall₂_cons, List.Forall₂.nil, and_true]
    refine ⟨.written rfl fun names => ?_, .optional rfl rfl fun j hj names => ?_,
      .written rfl fun names => ?_, .written rfl fun names => ?_⟩
    · exact (reads_string s.name).map (by simp [only])
    · split_ifs at hj
      · cases hj
      · cases hj
        exact (reads_dictionary hs.tags).map (by simp [only])
    · exact hcolumns.map (by simp [only])
    · exact hvalues.map (by simp [only])
  · simp only [slots, List.forall_mem_cons] at hnames
    obtain ⟨hname, htags, hcolumns, hvalues, -⟩ := hnames
    rw [only, if_pos (hname rfl), ite_nil_eq_self (by simpa using htags), if_pos (hcolumns rfl),
      if_pos (hvalues rfl)]

end Series

namespace StatementResult

theorem makes_decode : Makes decode fun r => ∀ s ∈ r.series, s.Normal := by
  refine Json.Decode.KeepsOn.record hereditary_true (by simp) ?_
  simp only [List.forall_mem_cons]
  refine ⟨fun _ _ => ?_, fun _ hr => ?_, by simp⟩
  · exact (Series.makes_decode.listOf hereditary_true).map fun _ h => h
  · exact (makes_true _).map fun _ _ => hr

variable (r : StatementResult)

/-- The result with its fields of these names only. -/
def only (names : List String) : StatementResult :=
  ⟨if "series" ∈ names then r.series else [], if "error" ∈ names then r.error else none⟩

/-- The fields of a result with their values. -/
def slots : List (String × Option Json) :=
  [("series", some (.array (r.series.map Series.toJson))), ("error", r.error.map .string)]

/-- The object that a store answers for a statement. -/
def toJson : Json := .object (present r.slots)

variable {r}

theorem reads_decode (hr : ∀ s ∈ r.series, s.Normal) : Reads decode r.toJson r := by
  refine Reads.record r.only ?_ (by simp [slots]) rfl fun names hnames => ?_
  · have hseries := Reads.listOf fun s hs => Series.reads_decode (hr s hs)
    simp only [slots, List.forall₂_cons, List.Forall₂.nil, and_true]
    refine ⟨.written rfl fun names => ?_, .optional rfl rfl fun j hj names => ?_⟩
    · exact hseries.map (by simp [only])
    · exact (reads_optional_string j hj).map (by simp [only])
  · simp only [slots, List.forall_mem_cons] at hnames
    obtain ⟨hseries, herror, -⟩ := hnames
    rw [only, if_pos (hseries rfl), ite_none_eq_self (by simpa using herror)]

end StatementResult

namespace Response

theorem makes_decode : Makes decode fun r => ∀ x ∈ r.results, ∀ s ∈ x.series, s.Normal := by
  refine Json.Decode.KeepsOn.record hereditary_true (by simp) ?_
  simp only [List.forall_mem_cons]
  refine ⟨fun _ _ => ?_, fun _ hr => ?_, by simp⟩
  · exact (StatementResult.makes_decode.listOf hereditary_true).map fun _ h => h
  · exact (makes_true _).map fun _ _ => hr

variable (r : Response)

/-- The response with its fields of these names only. -/
def only (names : List String) : Response :=
  ⟨if "results" ∈ names then r.results else [], if "error" ∈ names then r.error else none⟩

/-- The fields of a response with their values. -/
def slots : List (String × Option Json) :=
  [("results", some (.array (r.results.map StatementResult.toJson))), ("error", r.error.map .string)]

/-- The object that a store answers. -/
def toJson : Json := .object (present r.slots)

variable {r}

theorem reads_decode (hr : ∀ x ∈ r.results, ∀ s ∈ x.series, s.Normal) : Reads decode r.toJson r := by
  refine Reads.record r.only ?_ (by simp [slots]) rfl fun names hnames => ?_
  · have hresults := Reads.listOf fun x hx => StatementResult.reads_decode (hr x hx)
    simp only [slots, List.forall₂_cons, List.Forall₂.nil, and_true]
    refine ⟨.written rfl fun names => ?_, .optional rfl rfl fun j hj names => ?_⟩
    · exact hresults.map (by simp [only])
    · exact (reads_optional_string j hj).map (by simp [only])
  · simp only [slots, List.forall_mem_cons] at hnames
    obtain ⟨hresults, herror, -⟩ := hnames
    rw [only, if_pos (hresults rfl), ite_none_eq_self (by simpa using herror)]

/-- Whatever a response was decoded from, it is decoded again from what it is written as, in whatever order
the fields of its objects are written. -/
theorem decode_written {source : Json.Source} (h : decode source = .ok r) {written : Json}
    (hw : written.Reorders r.toJson) : Json.Decode.fromJson? decode written = some r :=
  toOption_eq_some_iff.2 (reads_decode (makes_decode source trivial r h) written hw)

end Response

end SeriesPivot
