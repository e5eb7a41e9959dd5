import SeriesPivot.Proofs.Pivot.Groups
import SeriesPivot.Proofs.Store.Results
import Mathlib.Tactic.MkIffOfInductiveProp

/-!
# Tuples of clean queries

A query is clean if its names stay apart when dots become underscores and stay clear of the names that
documents use themselves. The rows of a result fit a clean query if they have what their sub-query asks
for and nothing else. Then a row is found in its document under the names that the plan gave out.

* `QueryDescriptor.Clean` and `RowFits` are these conditions.
* `documentColumn` is the name of a column in documents.
* `Dimension.rawValue?` is the value of a dimension in a row as it came from the store, and `tuple` has
  the values of all keyed dimensions.
* `value?_normalizeRow`: normalising a row keeps the value of each keyed dimension.
* `rowKey_eq_iff`: under a hash without collisions, rows are of one group if and only if they have one
  tuple.
-/

namespace SeriesPivot

namespace Pivot

/-- The name of a column in documents. -/
def documentColumn (column : String) : String :=
  if column = "time" then "timestamp" else underscored column

/-- The names that results and documents use themselves. -/
def reserved : List String := ["time", "timestamp", "_id", "key"]

end Pivot

open Pivot

/-- Addresses, numbers and texts are grouped by their columns. -/
def Dimension.isPlain (d : Dimension) : Bool :=
  match d.datatype with
  | .ip | .number | .string => true
  | .date | .geo | .unknown _ => false

theorem Dimension.ne_date_of_isPlain {d : Dimension} (h : d.isPlain = true) : d.datatype ≠ .date := by
  intro hdate
  simp [isPlain, hdate] at h

theorem Dimension.date_or_isPlain {d : Dimension} (h : d.isKeyed = true) :
    d.datatype = .date ∨ d.isPlain = true := by
  unfold isKeyed at h
  unfold isPlain
  cases hd : d.datatype <;> simp_all

/-- The names of a query stay apart in documents. -/
@[mk_iff]
structure QueryDescriptor.Clean (q : QueryDescriptor) : Prop where
  nodup_keys : ((q.dimensions.map (·.key) ++ q.metrics.map (·.key)).map normalizeColumn).Nodup
  column_ne_metric : ∀ d ∈ q.dimensions, ∀ m ∈ q.metrics,
    normalizeColumn d.column ≠ normalizeColumn m.key
  column_ne_key : ∀ d ∈ q.dimensions, ∀ e ∈ q.dimensions, d ≠ e →
    normalizeColumn d.column ≠ normalizeColumn e.key
  column_ne_column : ∀ d ∈ q.dimensions, ∀ e ∈ q.dimensions, d.column ≠ e.column →
    normalizeColumn d.column ≠ normalizeColumn e.column
  /-- A date may be called `time` or `timestamp`. -/
  key_not_reserved : ∀ d ∈ q.dimensions,
    normalizeColumn d.key ∉ if d.datatype = .date then ["_id", "key"] else reserved
  column_not_reserved : ∀ d ∈ q.dimensions, d.datatype ≠ .date → normalizeColumn d.column ∉ reserved
  metric_not_reserved : ∀ m ∈ q.metrics, normalizeColumn m.key ∉ reserved

instance (q : QueryDescriptor) : Decidable q.Clean :=
  decidable_of_iff _ (QueryDescriptor.clean_iff q).symm

/-- A row has what a sub-query asks for and nothing else but a time. -/
@[mk_iff]
structure RowFits (q : QueryDescriptor) (s : SubQuery) (row : Row) : Prop where
  time : ∀ d ∈ q.dimensions, d.datatype = .date → (Assoc.find? "time" row).isSome
  /-- A plain dimension has a value under its key or its column. -/
  value : ∀ d ∈ q.dimensions, d.isPlain →
    (Assoc.find? d.key row).isSome ∨ (Assoc.find? d.column row).isSome
  agree : ∀ d ∈ q.dimensions, d.isPlain →
    ∀ v ∈ Assoc.find? d.key row, ∀ w ∈ Assoc.find? d.column row, v = w
  metric : ∀ m ∈ q.metrics, m.isPlaceholder = false → m.key ∈ s.metrics →
    (Assoc.find? m.key row).isSome
  only : ∀ column ∈ row.map Prod.fst, column = "time" ∨
    (∃ d ∈ q.dimensions, d.isPlain ∧ (column = d.key ∨ column = d.column)) ∨
    ∃ m ∈ q.metrics, m.isPlaceholder = false ∧ m.key ∈ s.metrics ∧ column = m.key

instance (q : QueryDescriptor) (s : SubQuery) (row : Row) : Decidable (RowFits q s row) :=
  decidable_of_iff _ (rowFits_iff q s row).symm

/-- The value of a keyed dimension in a row as it came from the store. -/
def Dimension.rawValue? (d : Dimension) (row : Row) : Option Json :=
  if d.datatype = .date then (Assoc.find? "time" row).map normalizeTime
  else (Assoc.find? d.column row).or (Assoc.find? d.key row)

/-! ### Names of clean queries -/

/-- If keys stay apart in documents, so do those of keyed dimensions. -/
theorem QueryDescriptor.nodup_keyed_of_nodup {q : QueryDescriptor}
    (h : ((q.dimensions.map (·.key) ++ q.metrics.map (·.key)).map normalizeColumn).Nodup) :
    ((q.dimensions.filter (·.isKeyed)).map fun d => normalizeColumn d.key).Nodup := by
  rw [List.map_append, List.map_map] at h
  exact (List.nodup_append.1 h).1.sublist (List.filter_sublist.map _)

namespace QueryDescriptor.Clean

variable {q : QueryDescriptor} (hq : q.Clean)

include hq

theorem dimension_inj {d e : Dimension} (hd : d ∈ q.dimensions) (he : e ∈ q.dimensions)
    (h : normalizeColumn d.key = normalizeColumn e.key) : d = e := by
  have hnodup := hq.nodup_keys
  rw [List.map_append, List.map_map] at hnodup
  exact List.inj_on_of_nodup_map (List.nodup_append.1 hnodup).1 hd he h

theorem metric_inj {m n : Metric} (hm : m ∈ q.metrics) (hn : n ∈ q.metrics)
    (h : normalizeColumn m.key = normalizeColumn n.key) : m = n := by
  have hnodup := hq.nodup_keys
  rw [List.map_append, List.map_map, List.map_map] at hnodup
  exact List.inj_on_of_nodup_map (List.nodup_append.1 hnodup).2.1 hm hn h

theorem key_ne_metric {d : Dimension} {m : Metric} (hd : d ∈ q.dimensions) (hm : m ∈ q.metrics) :
    normalizeColumn d.key ≠ normalizeColumn m.key := by
  have hnodup := hq.nodup_keys
  rw [List.map_append, List.map_map, List.map_map] at hnodup
  exact (List.nodup_append.1 hnodup).2.2 _ (List.mem_map.2 ⟨d, hd, rfl⟩) _
    (List.mem_map.2 ⟨m, hm, rfl⟩)

theorem nodup_keyed :
    ((q.dimensions.filter (·.isKeyed)).map fun d => normalizeColumn d.key).Nodup :=
  nodup_keyed_of_nodup hq.nodup_keys

/-- A plain dimension is kept under no reserved name. -/
theorem plain_not_reserved {d : Dimension} (hd : d ∈ q.dimensions) (hplain : d.isPlain = true) :
    normalizeColumn d.key ∉ reserved ∧ normalizeColumn d.column ∉ reserved := by
  have hdate := Dimension.ne_date_of_isPlain hplain
  have hkey := hq.key_not_reserved d hd
  rw [if_neg hdate] at hkey
  exact ⟨hkey, hq.column_not_reserved d hd hdate⟩

theorem plain_ne_time {d : Dimension} (hd : d ∈ q.dimensions) (hplain : d.isPlain = true) :
    d.key ≠ timeColumn ∧ d.column ≠ timeColumn := by
  obtain ⟨hkey, hcolumn⟩ := hq.plain_not_reserved hd hplain
  constructor
  · intro he
    rw [he] at hkey
    exact hkey (by decide)
  · intro he
    rw [he] at hcolumn
    exact hcolumn (by decide)

theorem metric_ne_time {m : Metric} (hm : m ∈ q.metrics) : m.key ≠ timeColumn := by
  intro he
  have hreserved := hq.metric_not_reserved m hm
  rw [he] at hreserved
  exact hreserved (by decide)

/-- No dimension and no metric is called like the tuple or its hash. -/
theorem key_not_mem {d : Dimension} (hd : d ∈ q.dimensions) :
    normalizeColumn d.key ∉ ["_id", "key"] := by
  have hkey := hq.key_not_reserved d hd
  split_ifs at hkey
  · exact hkey
  · exact fun hmem => hkey (List.mem_cons_of_mem _ (List.mem_cons_of_mem _ hmem))

theorem metric_not_mem {m : Metric} (hm : m ∈ q.metrics) :
    normalizeColumn m.key ∉ ["_id", "key"] :=
  fun hmem => hq.metric_not_reserved m hm (List.mem_cons_of_mem _ (List.mem_cons_of_mem _ hmem))

theorem isDimensionKey_metric {m : Metric} (hm : m ∈ q.metrics) :
    isDimensionKey q.dimensions (normalizeColumn m.key) = false := by
  rw [← Bool.not_eq_true, isDimensionKey_iff]
  rintro ⟨d, hd, -, hkey⟩
  exact hq.key_ne_metric hd hm hkey

end QueryDescriptor.Clean

namespace Pivot

/-- The values of the keyed dimensions in a row as it came from the store. -/
def tuple (dimensions : List Dimension) (row : Row) : List (Option Json) :=
  (dimensions.filter (·.isKeyed)).map fun d => d.rawValue? row

/-! ### Cells of normalised rows -/

theorem find?_normalizeRow {row : Row} {k : String} {v : Json} (h : (k, v) ∈ row.map normalizeCell)
    (hall : ∀ w, (k, w) ∈ row.map normalizeCell → w = v) : Assoc.find? k (normalizeRow row) = some v :=
  Assoc.find?_ofList_of_forall h hall

theorem find?_normalizeRow_eq_none {row : Row} {k : String}
    (h : ∀ w, (k, w) ∉ row.map normalizeCell) : Assoc.find? k (normalizeRow row) = none := by
  rw [normalizeRow, Assoc.find?_ofList]
  cases hf : Assoc.find? k (row.map normalizeCell).reverse with
  | none => rfl
  | some w => exact absurd (List.mem_reverse.1 (Assoc.mem_of_find? hf)) (h w)

theorem normalizeCell_fst (cell : String × Json) : (normalizeCell cell).1 = documentColumn cell.1 := by
  unfold normalizeCell documentColumn timeColumn
  rw [normalizeColumn_eq]
  split_ifs <;> rfl

/-- A document has the columns of a row under their names. -/
theorem exists_of_find?_normalizeRow {row : Row} {k : String} {v : Json}
    (h : Assoc.find? k (normalizeRow row) = some v) : ∃ c ∈ row.map Prod.fst, documentColumn c = k := by
  obtain ⟨cell, hcell, he⟩ := List.mem_map.1 (Assoc.mem_ofList (Assoc.mem_of_find? h))
  exact ⟨cell.1, List.mem_map_of_mem hcell, (normalizeCell_fst cell).symm.trans (congrArg Prod.fst he)⟩

theorem mem_normalizeCell {row : Row} {k : String} {v : Json} (h : (k, v) ∈ row.map normalizeCell) :
    (k = timestampField ∧ ∃ w, (timeColumn, w) ∈ row ∧ normalizeTime w = v) ∨
      ∃ c, (c, v) ∈ row ∧ c ≠ timeColumn ∧ normalizeColumn c = k := by
  obtain ⟨⟨c, w⟩, hmem, hcell⟩ := List.mem_map.1 h
  unfold normalizeCell at hcell
  split_ifs at hcell with hc
  · obtain ⟨hk, hv⟩ := Prod.mk.inj hcell
    change c = timeColumn at hc
    subst hc
    exact .inl ⟨hk.symm, w, hmem, hv⟩
  · obtain ⟨hk, hv⟩ := Prod.mk.inj hcell
    exact .inr ⟨c, hv ▸ hmem, hc, hk⟩

theorem mem_map_normalizeCell {row : Row} {c : String} {v : Json} (h : (c, v) ∈ row)
    (hc : c ≠ timeColumn) : (normalizeColumn c, v) ∈ row.map normalizeCell :=
  List.mem_map.2 ⟨(c, v), h, by rw [normalizeCell, if_neg hc]⟩

theorem canonical_normalizeTime {v : Json} (h : v.Canonical) : (normalizeTime v).Canonical := by
  have hmillis : ∀ ms, (renderMillis ms v).Canonical := by
    intro ms
    unfold renderMillis
    split_ifs
    · split
      · exact .string _
      · exact h
    · exact Json.canonical_ofInt ms
  unfold normalizeTime
  split
  · split
    · exact hmillis _
    · exact h
  · split
    · exact hmillis _
    · exact h
  · exact h

/-! ### Columns of rows that fit -/

/-- A row has one value for a plain dimension. -/
theorem rawValue?_of_plain {q : QueryDescriptor} {s : SubQuery} {row : Row} (h : RowFits q s row)
    (hrow : RowKept row) {d : Dimension} (hd : d ∈ q.dimensions) (hplain : d.isPlain = true) :
    ∃ v, d.rawValue? row = some v ∧
      ((d.key, v) ∈ row ∨ (d.column, v) ∈ row) ∧
      ∀ w, (d.key, w) ∈ row ∨ (d.column, w) ∈ row → w = v := by
  have hdate := Dimension.ne_date_of_isPlain hplain
  have hmem : ∀ c w, (c, w) ∈ row ↔ Assoc.find? c row = some w :=
    fun c w => (Assoc.find?_eq_some_iff (Assoc.nodup_keys hrow.sorted)).symm
  simp only [Dimension.rawValue?, if_neg hdate, hmem]
  have hvalue := h.value d hd hplain
  have hagree := h.agree d hd hplain
  cases hcolumn : Assoc.find? d.column row with
  | some v =>
    refine ⟨v, rfl, .inr rfl, ?_⟩
    rintro w (hw | hw)
    · exact hagree w hw v hcolumn
    · exact (Option.some.inj hw).symm
  | none =>
    rw [hcolumn] at hvalue
    obtain ⟨v, hv⟩ := Option.isSome_iff_exists.1 (hvalue.resolve_right (by simp))
    rw [hv]
    refine ⟨v, rfl, .inl rfl, ?_⟩
    rintro w (hw | hw)
    · exact (Option.some.inj hw).symm
    · cases hw

section Fitting

variable {q : QueryDescriptor} {s : SubQuery} {row : Row} (hq : q.Clean) (h : RowFits q s row)

include hq h

/-- The time of a document is the time of the row. -/
theorem mem_timestamp {v : Json} (hv : (timestampField, v) ∈ row.map normalizeCell) :
    ∃ w, (timeColumn, w) ∈ row ∧ normalizeTime w = v := by
  rcases mem_normalizeCell hv with ⟨-, hw⟩ | ⟨c, hc, htime, hname⟩
  · exact hw
  · have hreserved : normalizeColumn c ∈ reserved := by
      rw [hname]
      decide
    rcases h.only c (List.mem_map.2 ⟨_, hc, rfl⟩) with rfl | ⟨d, hd, hplain, rfl | rfl⟩ | ⟨m, hm, -, -, rfl⟩
    · exact absurd rfl htime
    · exact absurd hreserved (hq.plain_not_reserved hd hplain).1
    · exact absurd hreserved (hq.plain_not_reserved hd hplain).2
    · exact absurd hreserved (hq.metric_not_reserved m hm)

/-- What a document has under the key or the column of a plain dimension is in the row under one of the
two. -/
theorem mem_of_plain {d : Dimension} (hd : d ∈ q.dimensions) (hplain : d.isPlain = true) {k : String}
    (hk : k = normalizeColumn d.key ∨ k = normalizeColumn d.column) {v : Json}
    (hv : (k, v) ∈ row.map normalizeCell) : (d.key, v) ∈ row ∨ (d.column, v) ∈ row := by
  have hreserved : k ∉ reserved := by
    rcases hk with rfl | rfl
    · exact (hq.plain_not_reserved hd hplain).1
    · exact (hq.plain_not_reserved hd hplain).2
  rcases mem_normalizeCell hv with ⟨rfl, -⟩ | ⟨c, hc, htime, rfl⟩
  · exact absurd (by decide) hreserved
  · rcases h.only c (List.mem_map.2 ⟨_, hc, rfl⟩) with rfl | ⟨e, he, heplain, hce⟩ | ⟨m, hm, -, -, rfl⟩
    · exact absurd rfl htime
    · -- the column belongs to the dimension itself, or to one with the same column
      by_cases hde : e = d
      · subst hde
        rcases hce with rfl | rfl
        · exact .inl hc
        · exact .inr hc
      · rcases hce with rfl | rfl <;> rcases hk with hk | hk
        · exact absurd (hq.dimension_inj he hd hk) hde
        · exact absurd hk.symm (hq.column_ne_key d hd e he (Ne.symm hde))
        · exact absurd hk (hq.column_ne_key e he d hd hde)
        · by_cases hcolumn : e.column = d.column
          · exact .inr (hcolumn ▸ hc)
          · exact absurd hk (hq.column_ne_column e he d hd hcolumn)
    · rcases hk with hk | hk
      · exact absurd hk.symm (hq.key_ne_metric hd hm)
      · exact absurd hk.symm (hq.column_ne_metric d hd m hm)

/-- What a document has under the key of a metric is in the row under that key. -/
theorem mem_of_metric {m : Metric} (hm : m ∈ q.metrics) {v : Json}
    (hv : (normalizeColumn m.key, v) ∈ row.map normalizeCell) :
    (m.key, v) ∈ row ∧ m.isPlaceholder = false ∧ m.key ∈ s.metrics := by
  have hreserved := hq.metric_not_reserved m hm
  rcases mem_normalizeCell hv with ⟨hk, -⟩ | ⟨c, hc, htime, hk⟩
  · rw [hk] at hreserved
    exact absurd (by decide) hreserved
  · rcases h.only c (List.mem_map.2 ⟨_, hc, rfl⟩) with rfl | ⟨d, hd, -, rfl | rfl⟩ | ⟨n, hn, hplaceholder, hserved, rfl⟩
    · exact absurd rfl htime
    · exact absurd hk (hq.key_ne_metric hd hm)
    · exact absurd hk (hq.column_ne_metric d hd m hm)
    · rw [← hq.metric_inj hn hm hk]
      exact ⟨hc, hplaceholder, hserved⟩

theorem find?_timestamp (hrow : RowKept row) : Assoc.find? timestampField (normalizeRow row) =
    (Assoc.find? timeColumn row).map normalizeTime := by
  cases hf : Assoc.find? timeColumn row with
  | none =>
    refine find?_normalizeRow_eq_none fun v hv => ?_
    obtain ⟨w, hw, -⟩ := mem_timestamp hq h hv
    exact Assoc.find?_eq_none_iff.1 hf (List.mem_map.2 ⟨_, hw, rfl⟩)
  | some t =>
    refine find?_normalizeRow (List.mem_map.2 ⟨_, Assoc.mem_of_find? hf, rfl⟩) fun v hv => ?_
    obtain ⟨w, hw, rfl⟩ := mem_timestamp hq h hv
    rw [← Assoc.find?_eq_some_iff (Assoc.nodup_keys hrow.sorted), hf] at hw
    rw [Option.some.inj hw]

theorem find?_metric (hrow : RowKept row) {m : Metric} (hm : m ∈ q.metrics) :
    Assoc.find? (normalizeColumn m.key) (normalizeRow row) = Assoc.find? m.key row := by
  have htime := hq.metric_ne_time hm
  cases hf : Assoc.find? m.key row with
  | none =>
    refine find?_normalizeRow_eq_none fun v hv => ?_
    exact Assoc.find?_eq_none_iff.1 hf (List.mem_map.2 ⟨_, (mem_of_metric hq h hm hv).1, rfl⟩)
  | some t =>
    refine find?_normalizeRow (mem_map_normalizeCell (Assoc.mem_of_find? hf) htime) fun v hv => ?_
    have hv' := (mem_of_metric hq h hm hv).1
    rw [← Assoc.find?_eq_some_iff (Assoc.nodup_keys hrow.sorted), hf] at hv'
    rw [Option.some.inj hv']

/-- A document has from a row the metrics that the sub-query of the row serves. -/
theorem find?_metric_eq_some (hrow : RowKept row) {m : Metric} (hm : m ∈ q.metrics) {v : Json}
    (hv : Assoc.find? (normalizeColumn m.key) (normalizeRow row) = some v) :
    Assoc.find? m.key row = some v ∧ m.key ∈ s.metrics := by
  rw [find?_metric hq h hrow hm] at hv
  have hmem := Assoc.mem_of_find? hv
  exact ⟨hv, (mem_of_metric hq h hm (mem_map_normalizeCell hmem (hq.metric_ne_time hm))).2.2⟩

/-- Normalising a row keeps the value of a plain dimension. -/
theorem value?_of_plain (hrow : RowKept row) {d : Dimension} (hd : d ∈ q.dimensions)
    (hplain : d.isPlain = true) : d.value? (normalizeRow row) = d.rawValue? row := by
  obtain ⟨v, hv, hin, hall⟩ := rawValue?_of_plain h hrow hd hplain
  have hdate := Dimension.ne_date_of_isPlain hplain
  have htime := hq.plain_ne_time hd hplain
  have hone : ∀ k, k = normalizeColumn d.key ∨ k = normalizeColumn d.column →
      ∀ w, (k, w) ∈ row.map normalizeCell → w = v :=
    fun k hk w hw => hall w (mem_of_plain hq h hd hplain hk hw)
  -- either name finds the one value of the dimension or nothing
  have hlook : ∀ k, k = normalizeColumn d.key ∨ k = normalizeColumn d.column →
      Assoc.find? k (normalizeRow row) = none ∨ Assoc.find? k (normalizeRow row) = some v := by
    intro k hk
    by_cases hex : ∃ w, (k, w) ∈ row.map normalizeCell
    · obtain ⟨w, hw⟩ := hex
      have hwv := hone k hk w hw
      subst hwv
      exact .inr (find?_normalizeRow hw (hone k hk))
    · exact .inl (find?_normalizeRow_eq_none fun w hw => hex ⟨w, hw⟩)
  have hkey := hlook (normalizeColumn d.key) (.inl rfl)
  have hcolumn := hlook (normalizeColumn d.column) (.inr rfl)
  rw [Dimension.value?_of_ne_date hdate, hv]
  rcases hcolumn with hcolumn | hcolumn
  · rw [hcolumn, Option.none_or]
    rcases hin with hin | hin
    · rw [find?_normalizeRow (mem_map_normalizeCell hin htime.1) (hone _ (.inl rfl))]
    · have hfound := find?_normalizeRow (mem_map_normalizeCell hin htime.2) (hone _ (.inr rfl))
      rw [hcolumn] at hfound
      cases hfound
  · rw [hcolumn, Option.some_or]

/-- Normalising a row keeps the value of each keyed dimension. -/
theorem value?_normalizeRow (hrow : RowKept row) {d : Dimension} (hd : d ∈ q.dimensions)
    (hkeyed : d.isKeyed = true) : d.value? (normalizeRow row) = d.rawValue? row ∧
      ∃ v, d.rawValue? row = some v ∧ v.Canonical := by
  rcases Dimension.date_or_isPlain hkeyed with hdate | hplain
  · obtain ⟨t, ht⟩ := Option.isSome_iff_exists.1 (h.time d hd hdate)
    have hcanonical := hrow.canonical _ (Assoc.mem_of_find? ht)
    rw [Dimension.value?_of_date hdate, find?_timestamp hq h hrow, Dimension.rawValue?, if_pos hdate]
    exact ⟨rfl, _, congrArg (Option.map normalizeTime) ht, canonical_normalizeTime hcanonical⟩
  · obtain ⟨v, hv, hin, -⟩ := rawValue?_of_plain h hrow hd hplain
    refine ⟨value?_of_plain hq h hrow hd hplain, v, hv, ?_⟩
    rcases hin with hin | hin
    · exact hrow.canonical _ hin
    · exact hrow.canonical _ hin

end Fitting

/-! ### Identities and tuples -/

/-- A dimension is found under its name, if all keyed dimensions of that name have its value. -/
theorem find?_rowId_of_forall {dimensions : List Dimension} {row : Row} {d : Dimension}
    (hd : d ∈ dimensions) (hkeyed : d.isKeyed = true)
    (hsame : ∀ e ∈ dimensions, e.isKeyed = true → normalizeColumn e.key = normalizeColumn d.key →
      e.value? row = d.value? row) :
    Assoc.find? (normalizeColumn d.key) (rowId dimensions row) =
      some ((d.value? row).getD (.string notSet)) := by
  rw [rowId_eq]
  refine Assoc.find?_ofList_of_forall (List.mem_map.2 ⟨d, List.mem_filter.2 ⟨hd, hkeyed⟩, rfl⟩) ?_
  intro v hv
  obtain ⟨e, he, heq⟩ := List.mem_map.1 hv
  obtain ⟨he, hkeyed'⟩ := List.mem_filter.1 he
  obtain ⟨hkey, rfl⟩ := Prod.mk.inj heq
  rw [hsame e he hkeyed' hkey]

theorem find?_rowId {dimensions : List Dimension}
    (hnodup : ((dimensions.filter (·.isKeyed)).map fun d => normalizeColumn d.key).Nodup) (row : Row)
    {d : Dimension} (hd : d ∈ dimensions) (hkeyed : d.isKeyed = true) :
    Assoc.find? (normalizeColumn d.key) (rowId dimensions row) =
      some ((d.value? row).getD (.string notSet)) := by
  refine find?_rowId_of_forall hd hkeyed fun e he hkeyed' hkey => ?_
  rw [List.inj_on_of_nodup_map hnodup (List.mem_filter.2 ⟨he, hkeyed'⟩) (List.mem_filter.2 ⟨hd, hkeyed⟩) hkey]

theorem find?_rowId_eq_none {dimensions : List Dimension} {column : String}
    (h : isDimensionKey dimensions column = false) (row : Row) :
    Assoc.find? column (rowId dimensions row) = none := by
  rw [rowId_eq, Assoc.find?_ofList, Assoc.find?_eq_none_iff, List.map_reverse, List.mem_reverse,
    List.map_map]
  intro hmem
  obtain ⟨d, hd, hkey⟩ := List.mem_map.1 hmem
  obtain ⟨hd, hkeyed⟩ := List.mem_filter.1 hd
  rw [isDimensionKey_iff.2 ⟨d, hd, hkeyed, hkey⟩] at h
  cases h

/-- Normalising a row keeps its values canonical. -/
theorem canonical_normalizeRow {row : Row} (h : RowKept row) :
    ∀ cell ∈ normalizeRow row, cell.2.Canonical := by
  intro cell hcell
  obtain ⟨raw, hraw, rfl⟩ := List.mem_map.1 (Assoc.mem_ofList hcell)
  have hcanonical := h.canonical raw hraw
  unfold normalizeCell
  split_ifs
  · exact canonical_normalizeTime hcanonical
  · exact hcanonical

theorem canonical_rowId (dimensions : List Dimension) {row : Row} (h : RowKept row) :
    (Json.object (rowId dimensions (normalizeRow row))).Canonical := by
  refine .object fun cell hcell => ?_
  obtain ⟨d, -, rfl⟩ := List.mem_map.1 (Assoc.mem_ofList hcell)
  cases hv : d.value? (normalizeRow row) with
  | none => exact .string _
  | some v =>
    obtain ⟨column, -, hfind⟩ := List.exists_of_findSome?_eq_some hv
    exact canonical_normalizeRow h (column, v) (Assoc.mem_of_find? hfind)

/-- Under a hash without collisions, rows are of one group if and only if they have one identity. -/
theorem rowKey_eq_iff_rowId_eq {hash : String → String} (hhash : Function.Injective hash)
    (dimensions : List Dimension) {row other : Row} (hrow : RowKept row) (hother : RowKept other) :
    rowKey hash dimensions (normalizeRow row) = rowKey hash dimensions (normalizeRow other) ↔
      rowId dimensions (normalizeRow row) = rowId dimensions (normalizeRow other) := by
  unfold rowKey
  rw [hhash.eq_iff]
  constructor
  · intro he
    exact Json.object.inj
      (Json.compress_injective (canonical_rowId dimensions hrow) (canonical_rowId dimensions hother) he)
  · intro he
    rw [he]

section Fitting

variable {q : QueryDescriptor} {s t : SubQuery} {row other : Row} (hq : q.Clean)
  (h : RowFits q s row) (hrow : RowKept row)

include hq h hrow

/-- Rows have one identity if and only if they have one tuple. -/
theorem rowId_eq_iff (h' : RowFits q t other) (hother : RowKept other) :
    rowId q.dimensions (normalizeRow row) = rowId q.dimensions (normalizeRow other) ↔
      tuple q.dimensions row = tuple q.dimensions other := by
  unfold tuple
  rw [List.map_inj_left]
  constructor
  · intro he d hd
    obtain ⟨hd, hkeyed⟩ := List.mem_filter.1 hd
    obtain ⟨hvalue, v, hv, -⟩ := value?_normalizeRow hq h hrow hd hkeyed
    obtain ⟨hvalue', v', hv', -⟩ := value?_normalizeRow hq h' hother hd hkeyed
    have hfind := congrArg (Assoc.find? (normalizeColumn d.key)) he
    rw [find?_rowId hq.nodup_keyed _ hd hkeyed, find?_rowId hq.nodup_keyed _ hd hkeyed, hvalue, hvalue',
      hv, hv'] at hfind
    rw [hv, hv']
    exact hfind
  · intro he
    unfold rowId
    congr 1
    refine List.map_congr_left fun d hd => ?_
    have hraw := he d hd
    obtain ⟨hd, hkeyed⟩ := List.mem_filter.1 hd
    rw [(value?_normalizeRow hq h hrow hd hkeyed).1, (value?_normalizeRow hq h' hother hd hkeyed).1,
      hraw]

/-- Under a hash without collisions, rows are of one group if and only if they have one tuple. -/
theorem rowKey_eq_iff {hash : String → String} (hhash : Function.Injective hash)
    (h' : RowFits q t other) (hother : RowKept other) :
    rowKey hash q.dimensions (normalizeRow row) = rowKey hash q.dimensions (normalizeRow other) ↔
      tuple q.dimensions row = tuple q.dimensions other := by
  rw [← rowId_eq_iff hq h hrow h' hother]
  exact rowKey_eq_iff_rowId_eq hhash q.dimensions hrow hother

theorem missing_eq_nil (name : String) : missing q.dimensions name (normalizeRow row) = [] := by
  unfold missing
  rw [List.map_eq_nil_iff, List.filter_eq_nil_iff]
  intro d hd
  obtain ⟨hd, hkeyed⟩ := List.mem_filter.1 hd
  obtain ⟨hvalue, v, hv, -⟩ := value?_normalizeRow hq h hrow hd hkeyed
  rw [hvalue, hv]
  simp

end Fitting

end Pivot

end SeriesPivot
