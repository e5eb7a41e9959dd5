import SeriesPivot.Pivot
import SeriesPivot.Proofs.Assoc
import SeriesPivot.Proofs.Keyed
import Mathlib.Data.List.Forall2

/-!
# Folding rows is grouping them

A pivot puts in one row after another and keeps a table of documents. Looked at as a whole, it groups
all rows by the hashes of their identities.

* `underscored` is the name of a column in documents, with underscores for dots.
* `rowId` and `rowKey` are the identity and the group of a normalised row, from the dimensions alone.
* `groupDocument` is the document of a group: it opens with the identity of the first row, and the rows
  put in their columns one after another.
* `foldRows_start`: after any rows, a pivot holds the documents of their groups, in the order in which
  the groups came in, and what was noted about each row.
* `groupColumn?` says what each column of a finished document holds, from the rows of its group alone.
* `finish_foldAll`: results that are folded one after another make the documents of the groups of all rows.
-/

namespace SeriesPivot

/-- A name with underscores for dots. -/
def Pivot.underscored (name : String) : String :=
  String.ofList (name.toList.map fun c => if c = '.' then '_' else c)

theorem Pivot.normalizeColumn_eq : normalizeColumn = underscored := by
  funext name
  rw [normalizeColumn, Text.expand, underscored, ← List.flatMap_pure_eq_map]
  congr 1
  refine List.flatMap_congr fun c _ => ?_
  by_cases hc : c = '.' <;> simp [hc]

namespace Dimension

/-- Dates, addresses, numbers and texts are keyed. -/
def isKeyed (d : Dimension) : Bool :=
  match d.datatype with
  | .date | .ip | .number | .string => true
  | .geo | .unknown _ => false

/-- The columns of a normalised row that may hold the dimension, the first one first. -/
def candidates (d : Dimension) : List String :=
  if d.datatype = .date then ["timestamp"]
  else [Pivot.underscored (d.source.getD d.key), Pivot.underscored d.key]

/-- The value of the dimension in a normalised row. -/
def value? (d : Dimension) (row : Row) : Option Json :=
  d.candidates.findSome? fun column => Assoc.find? column row

/-- A date is the time of the row. -/
theorem value?_of_date {d : Dimension} (h : d.datatype = .date) (row : Row) :
    d.value? row = Assoc.find? Pivot.timestampField row := by
  rw [value?, candidates, if_pos h, List.findSome?_singleton]
  rfl

/-- Every other dimension is the value of its column, or else the one under its key. -/
theorem value?_of_ne_date {d : Dimension} (h : d.datatype ≠ .date) (row : Row) :
    d.value? row = (Assoc.find? (Pivot.normalizeColumn d.column) row).or
      (Assoc.find? (Pivot.normalizeColumn d.key) row) := by
  rw [value?, candidates, if_neg h, column, Pivot.normalizeColumn_eq, List.findSome?_cons,
    List.findSome?_singleton]
  cases Assoc.find? (Pivot.underscored (d.source.getD d.key)) row <;> rfl

end Dimension

namespace Pivot

/-- The identity of a normalised row; of two dimensions with one name the later counts. -/
def rowId (dimensions : List Dimension) (row : Row) : Row :=
  Assoc.ofList ((dimensions.filter (·.isKeyed)).map fun d =>
    (underscored d.key, (d.value? row).getD (.string "(not set)")))

/-- The group of a normalised row. -/
def rowKey (hash : String → String) (dimensions : List Dimension) (row : Row) : String :=
  hash (Json.object (rowId dimensions row)).compress

/-- What is noted about a row of a sub-query: each keyed dimension that the row does not have. -/
def missing (dimensions : List Dimension) (subQuery : String) (row : Row) : List String :=
  ((dimensions.filter (·.isKeyed)).filter fun d => (d.value? row).isNone).map fun d =>
    "sub-query " ++ subQuery ++ " returned a row without dimension [" ++ underscored d.key ++ "]"

/-- Whether a column is the key of a keyed dimension. -/
def isDimensionKey (dimensions : List Dimension) (column : String) : Bool :=
  (dimensions.filter (·.isKeyed)).any fun d => underscored d.key == column

theorem rowId_eq (dimensions : List Dimension) (row : Row) :
    rowId dimensions row = Assoc.ofList ((dimensions.filter (·.isKeyed)).map fun d =>
      (normalizeColumn d.key, (d.value? row).getD (.string notSet))) := by
  rw [normalizeColumn_eq]
  rfl

theorem isDimensionKey_iff {dimensions : List Dimension} {name : String} :
    isDimensionKey dimensions name = true ↔
      ∃ d ∈ dimensions, d.isKeyed = true ∧ normalizeColumn d.key = name := by
  simp [isDimensionKey, normalizeColumn_eq]

/-- How the dimensions are keyed. -/
def sourcesOf (dimensions : List Dimension) : List Source :=
  dimensions.filterMap Source.ofDimension?

/-! ### Sources and dimensions -/

theorem ofDimension?_eq_none {d : Dimension} (h : d.isKeyed = false) : Source.ofDimension? d = none := by
  unfold Dimension.isKeyed at h
  unfold Source.ofDimension?
  cases hd : d.datatype <;> simp_all

theorem ofDimension?_of_isKeyed {d : Dimension} (h : d.isKeyed = true) :
    ∃ s, Source.ofDimension? d = some s ∧ s.key = normalizeColumn d.key ∧
      ∀ row, s.value? row = d.value? row := by
  have hplain : ∀ row : Row, (Source.value? ⟨normalizeColumn d.key,
      if normalizeColumn d.column = normalizeColumn d.key then [normalizeColumn d.column]
      else [normalizeColumn d.column, normalizeColumn d.key]⟩ row) =
      [normalizeColumn d.column, normalizeColumn d.key].findSome? fun c => Assoc.find? c row := by
    intro row
    unfold Source.value?
    split_ifs with he
    · rw [he]
      cases hf : Assoc.find? (normalizeColumn d.key) row <;> simp [hf]
    · rfl
  unfold Dimension.isKeyed at h
  unfold Source.ofDimension? Dimension.value? Dimension.candidates
  rw [← normalizeColumn_eq]
  cases hd : d.datatype <;> simp only [hd] at h ⊢
  case date => exact ⟨_, rfl, rfl, fun row => rfl⟩
  case ip => exact ⟨_, rfl, rfl, hplain⟩
  case number => exact ⟨_, rfl, rfl, hplain⟩
  case string => exact ⟨_, rfl, rfl, hplain⟩
  case geo => cases h
  case unknown => cases h

/-- Sources stand for the keyed dimensions, in their order. -/
theorem forall₂_sourcesOf (dimensions : List Dimension) :
    List.Forall₂ (fun s d => s.key = normalizeColumn d.key ∧ ∀ row, s.value? row = d.value? row)
      (sourcesOf dimensions) (dimensions.filter (·.isKeyed)) := by
  induction dimensions with
  | nil => exact .nil
  | cons d rest ih =>
    cases hd : d.isKeyed with
    | false => simpa [sourcesOf, List.filterMap_cons, ofDimension?_eq_none hd, hd] using ih
    | true =>
      obtain ⟨s, hs, hkey, hvalue⟩ := ofDimension?_of_isKeyed hd
      simpa [sourcesOf, List.filterMap_cons, hs, hd] using ⟨⟨hkey, hvalue⟩, ih⟩

theorem identity_sourcesOf (dimensions : List Dimension) (row : Row) :
    identity (sourcesOf dimensions) row = rowId dimensions row := by
  rw [identity, rowId_eq]
  congr 1
  have h := forall₂_sourcesOf dimensions
  generalize sourcesOf dimensions = sources, dimensions.filter (·.isKeyed) = keyed at h
  induction h with
  | nil => rfl
  | cons h _ ih => simp [h.1, h.2, ih]

theorem anomaliesOf_sourcesOf (subQuery : String) (dimensions : List Dimension) (row : Row) :
    anomaliesOf subQuery (sourcesOf dimensions) row = missing dimensions subQuery row := by
  unfold anomaliesOf missing
  rw [← normalizeColumn_eq]
  have h := forall₂_sourcesOf dimensions
  generalize sourcesOf dimensions = sources, dimensions.filter (·.isKeyed) = keyed at h
  induction h with
  | nil => rfl
  | @cons s d _ _ h _ ih => cases hv : d.value? row <;> simp_all

theorem any_sourcesOf (dimensions : List Dimension) (column : String) :
    ((sourcesOf dimensions).any fun s => s.key == column) = isDimensionKey dimensions column := by
  unfold isDimensionKey
  rw [← normalizeColumn_eq]
  have h := forall₂_sourcesOf dimensions
  generalize sourcesOf dimensions = sources, dimensions.filter (·.isKeyed) = keyed at h
  induction h with
  | nil => rfl
  | cons h _ ih => simp [h.1, ih]

/-! ### Documents of groups -/

/-- The rows of a group, in order. -/
def groupRows (hash : String → String) (dimensions : List Dimension) (rows : List Row) (key : String) :
    List Row :=
  rows.filter fun row => rowKey hash dimensions row == key

/-- The start of the document of a group, from its first row. -/
def opening (dimensions : List Dimension) (key : String) : List Row → Row
  | [] => []
  | row :: _ => newDocument (rowId dimensions row) key

/-- The document of a group: its rows put in their columns one after another. -/
def groupDocument (hash : String → String) (dimensions : List Dimension) (rows : List Row)
    (key : String) : Row :=
  let group := groupRows hash dimensions rows key
  Assoc.insertAll (opening dimensions key group) (group.flatMap (ownColumns (sourcesOf dimensions)))

variable (hash : String → String) (dimensions : List Dimension) (metrics : List Metric)

theorem groupRows_append (rows more : List Row) (key : String) :
    groupRows hash dimensions (rows ++ more) key =
      groupRows hash dimensions rows key ++ groupRows hash dimensions more key :=
  List.filter_append ..

theorem groupRows_concat (rows : List Row) (row : Row) (key : String) :
    groupRows hash dimensions (rows ++ [row]) key =
      groupRows hash dimensions rows key ++ if rowKey hash dimensions row = key then [row] else [] := by
  rw [groupRows_append]
  by_cases h : rowKey hash dimensions row = key <;> simp [groupRows, h]

theorem groupRows_eq_nil_iff (rows : List Row) (key : String) :
    groupRows hash dimensions rows key = [] ↔ key ∉ rows.map (rowKey hash dimensions) := by
  simp [groupRows, List.filter_eq_nil_iff]

/-- One more row changes the document of its own group only. -/
theorem groupDocument_concat (rows : List Row) (row : Row) :
    groupDocument hash dimensions (rows ++ [row]) =
      let key := rowKey hash dimensions row
      let document := if key ∈ rows.map (rowKey hash dimensions) then groupDocument hash dimensions rows key
        else newDocument (rowId dimensions row) key
      Function.update (groupDocument hash dimensions rows) key
        (Assoc.insertAll document (ownColumns (sourcesOf dimensions) row)) := by
  funext key
  by_cases hk : rowKey hash dimensions row = key
  · subst hk
    rw [Function.update_self]
    simp only [groupDocument, groupRows_concat, if_true]
    -- a group with rows keeps its opening, and a new one is opened by the row
    split_ifs with hmem
    · have hne := mt (groupRows_eq_nil_iff hash dimensions rows _).1 (not_not.2 hmem)
      obtain ⟨first, rest, hgroup⟩ := List.exists_cons_of_ne_nil hne
      rw [hgroup]
      simp [opening, Assoc.insertAll_append]
    · rw [(groupRows_eq_nil_iff hash dimensions rows _).2 hmem]
      simp [opening]
  · rw [Function.update_of_ne (Ne.symm hk)]
    simp [groupDocument, groupRows_concat, hk]

/-! ### The invariant of a pivot -/

/-- Put in rows one after another, each under the name of its sub-query. -/
def foldRows (p : Pivot) (rows : List (String × Row)) : Pivot :=
  rows.foldl (fun p r => p.foldRow hash r.1 r.2) p

/-- What a pivot holds after some rows. -/
def ofRows (rows : List (String × Row)) : Pivot where
  dimensions := dimensions
  metrics := metrics
  sources := sourcesOf dimensions
  documents := Keyed.table ((rows.map Prod.snd).map (rowKey hash dimensions)).eraseDups
    (groupDocument hash dimensions (rows.map Prod.snd))
  anomalies := rows.flatMap fun r => missing dimensions r.1 r.2

/-- One step keeps the invariant. -/
theorem foldRow_ofRows (rows : List (String × Row)) (r : String × Row) :
    (ofRows hash dimensions metrics rows).foldRow hash r.1 r.2 =
      ofRows hash dimensions metrics (rows ++ [r]) := by
  have hfind : ∀ document, (Keyed.find? (rowKey hash dimensions r.2)
      (ofRows hash dimensions metrics rows).documents).getD document =
      if rowKey hash dimensions r.2 ∈ (rows.map Prod.snd).map (rowKey hash dimensions) then
        groupDocument hash dimensions (rows.map Prod.snd) (rowKey hash dimensions r.2)
      else document := by
    intro document
    simp only [ofRows, Keyed.find?_table, List.mem_eraseDups]
    split_ifs <;> rfl
  unfold foldRow
  -- sources say the same as dimensions, so both pivots have one identity and one note for the row
  simp only [show (ofRows hash dimensions metrics rows).sources = sourcesOf dimensions from rfl,
    identity_sourcesOf, anomaliesOf_sourcesOf]
  change Pivot.mk _ _ _ _ _ = Pivot.mk _ _ _ _ _
  congr 1
  · change Keyed.put (rowKey hash dimensions r.2) _ _ = _
    rw [show hash (Json.object (rowId dimensions r.2)).compress = rowKey hash dimensions r.2 from rfl,
      hfind]
    simp only [ofRows, Keyed.put_table, List.map_append, List.map_cons, List.map_nil,
      groupDocument_concat]
  · simp [ofRows]

/-- After any rows, a pivot holds the documents of their groups. -/
theorem foldRows_start (rows : List (String × Row)) :
    foldRows hash (start dimensions metrics) rows = ofRows hash dimensions metrics rows := by
  induction rows using List.reverseRecOn with
  | nil => rfl
  | append_singleton rows r ih =>
    rw [← foldRow_ofRows, ← ih]
    simp [foldRows]

/-! ### Columns of finished documents -/

/-- What a column of the finished document of a group holds: the value of the last row of the group that
carries the column, unless the column is the key of a dimension; else what the first row of the group gives,
which is the hash under `key`, its identity under `_id`, and each component of the identity under the name of
its dimension; else null if it is the column of a metric. -/
def groupColumn? (rows : List Row) (key column : String) : Option Json :=
  let group := groupRows hash dimensions rows key
  let carried := if isDimensionKey dimensions column then none
    else (group.filterMap (Assoc.find? column)).getLast?
  let opened := group.head?.bind fun first =>
    if column = "key" then some (.string key)
    else if column = "_id" then some (.object (rowId dimensions first))
    else Assoc.find? column (rowId dimensions first)
  let filled := if ∃ m ∈ metrics, m.isPlaceholder = false ∧ underscored m.key = column then some .null
    else none
  (carried.or opened).or filled

theorem mem_metricColumns_iff {column : String} : column ∈ metricColumns metrics ↔
    ∃ m ∈ metrics, m.isPlaceholder = false ∧ underscored m.key = column := by
  simp only [metricColumns, List.mem_map, List.mem_filter, Bool.not_eq_true', and_assoc,
    normalizeColumn_eq]

theorem find?_newDocument (id : Row) (key column : String) :
    Assoc.find? column (newDocument id key) =
      if column = "key" then some (.string key)
      else if column = "_id" then some (.object id) else Assoc.find? column id := by
  simp only [newDocument, Assoc.find?_insert, keyField, idField]

theorem find?_ownColumns (row : Row) (column : String) :
    Assoc.find? column (ownColumns (sourcesOf dimensions) row) =
      if isDimensionKey dimensions column then none else Assoc.find? column row := by
  unfold ownColumns
  simp only [any_sourcesOf, Assoc.find?_filter_key fun c => !isDimensionKey dimensions c]
  cases isDimensionKey dimensions column <;> simp

theorem find?_opening (key column : String) (group : List Row) :
    Assoc.find? column (opening dimensions key group) = group.head?.bind fun first =>
      if column = "key" then some (.string key)
      else if column = "_id" then some (.object (rowId dimensions first))
      else Assoc.find? column (rowId dimensions first) := by
  cases group with
  | nil => rfl
  | cons first rest => exact find?_newDocument _ _ _

/-- A column of a finished document, with the start of the document and the columns of metrics taken
together. -/
theorem groupColumn?_eq (rows : List Row) (key column : String) :
    groupColumn? hash dimensions metrics rows key column =
      ((if isDimensionKey dimensions column then none
        else ((groupRows hash dimensions rows key).filterMap (Assoc.find? column)).getLast?).or
        (Assoc.find? column (opening dimensions key (groupRows hash dimensions rows key)))).or
        (if column ∈ metricColumns metrics then some .null else none) := by
  simp only [groupColumn?, find?_opening, mem_metricColumns_iff]

/-- Of the rows that carry a column, the last one counts. -/
theorem find?_flatMap_ownColumns {rows : List Row} (h : ∀ row ∈ rows, Assoc.Sorted row)
    (column : String) :
    Assoc.find? column (rows.flatMap (ownColumns (sourcesOf dimensions))).reverse =
      if isDimensionKey dimensions column then none
      else (rows.filterMap (Assoc.find? column)).getLast? := by
  induction rows using List.reverseRecOn with
  | nil => simp
  | append_singleton rows row ih =>
    have hrow : Assoc.Sorted (ownColumns (sourcesOf dimensions) row) :=
      Assoc.sorted_filter _ (h row (by simp))
    rw [List.flatMap_append, List.reverse_append, Assoc.find?_append,
      ih fun r hr => h r (List.mem_append_left _ hr), List.flatMap_singleton,
      Assoc.find?_reverse (Assoc.nodup_keys hrow), find?_ownColumns]
    split_ifs
    · rfl
    · cases hf : Assoc.find? column row <;> simp [hf]

theorem sorted_opening (key : String) (group : List Row) :
    Assoc.Sorted (opening dimensions key group) := by
  cases group with
  | nil => exact Assoc.sorted_nil
  | cons row _ => exact Assoc.sorted_insert _ _ (Assoc.sorted_insert _ _ (Assoc.sorted_ofList _))

theorem find?_fillNull (document : Row) (name column : String) :
    Assoc.find? column (fillNull document name) =
      (Assoc.find? column document).or (if column = name then some .null else none) := by
  unfold fillNull Assoc.contains
  by_cases hc : column = name
  · subst hc
    cases hf : Assoc.find? column document <;> simp [hf, Assoc.find?_insert]
  · split_ifs <;> simp [Assoc.find?_insert, hc]

theorem find?_foldl_fillNull (document : Row) (names : List String) (column : String) :
    Assoc.find? column (names.foldl fillNull document) =
      (Assoc.find? column document).or (if column ∈ names then some .null else none) := by
  induction names generalizing document with
  | nil => simp
  | cons name names ih =>
    rw [List.foldl_cons, ih, find?_fillNull, Option.or_assoc]
    by_cases hc : column = name <;> simp [hc]

theorem sorted_foldl_fillNull {document : Row} (h : Assoc.Sorted document) (names : List String) :
    Assoc.Sorted (names.foldl fillNull document) := by
  induction names generalizing document with
  | nil => exact h
  | cons name names ih =>
    refine ih ?_
    unfold fillNull
    split_ifs
    · exact h
    · exact Assoc.sorted_insert _ _ h

theorem find?_filled_groupDocument {rows : List Row} (h : ∀ row ∈ rows, Assoc.Sorted row)
    (key column : String) :
    Assoc.find? column ((metricColumns metrics).foldl fillNull (groupDocument hash dimensions rows key)) =
      groupColumn? hash dimensions metrics rows key column := by
  rw [find?_foldl_fillNull, groupColumn?_eq]
  simp only [groupDocument, Assoc.find?_insertAll]
  rw [find?_flatMap_ownColumns]
  exact fun row hr => h row (List.mem_filter.1 hr).1

/-! ### Results -/

/-- Put in results one after another, each under the name of its sub-query. -/
def foldAll (p : Pivot) (results : List (String × RawResult)) : Pivot :=
  results.foldl (fun p r => p.fold hash r.1 r.2) p

/-- The normalised rows of all series of results in order, each with the name of its sub-query. A row holds
the tags of its series, overlaid by the columns with their values. -/
def rowsOf (results : List (String × RawResult)) : List (String × Row) :=
  results.flatMap fun r => r.2.series.flatMap fun s => s.values.map fun values =>
    (r.1, normalizeRow (Assoc.insertAll s.tags (s.columns.zip values)))

theorem rowsOf_eq (results : List (String × RawResult)) :
    rowsOf results = results.flatMap fun r => r.2.rows.map fun row => (r.1, normalizeRow row) := by
  refine List.flatMap_congr fun r _ => ?_
  rw [RawResult.rows, List.map_flatMap]
  refine List.flatMap_congr fun s _ => ?_
  rw [Series.rows, List.map_map]
  rfl

theorem foldAll_eq_foldRows (p : Pivot) (results : List (String × RawResult)) :
    foldAll hash p results = foldRows hash p (rowsOf results) := by
  induction results generalizing p with
  | nil => rfl
  | cons r results ih =>
    rw [rowsOf_eq, List.flatMap_cons, foldRows, List.foldl_append, List.foldl_map]
    simpa [foldAll, fold, foldRows, rowsOf_eq, List.foldl_map] using ih (p.fold hash r.1 r.2)

theorem sorted_of_mem_rowsOf {results : List (String × RawResult)} {row : Row}
    (h : row ∈ (rowsOf results).map Prod.snd) : Assoc.Sorted row := by
  simp only [rowsOf_eq, List.map_flatMap, List.mem_flatMap, List.map_map, List.mem_map] at h
  obtain ⟨r, -, raw, -, rfl⟩ := h
  exact Assoc.sorted_ofList _

/-- The documents of rows are those of their groups. -/
theorem forall₂_documents_ofRows {rows : List (String × Row)}
    (h : ∀ row ∈ rows.map Prod.snd, Assoc.Sorted row) :
    let groups := ((rows.map Prod.snd).map (rowKey hash dimensions)).eraseDups
    List.Forall₂ (fun key document => Assoc.Sorted document ∧ ∀ column,
        Assoc.find? column document =
          groupColumn? hash dimensions metrics (rows.map Prod.snd) key column)
      groups (ofRows hash dimensions metrics rows).finish.documents := by
  intro groups
  change List.Forall₂ _ groups (List.map _ (Keyed.table groups _))
  rw [Keyed.table, List.map_map, List.forall₂_map_right_iff, List.forall₂_same]
  intro key _
  constructor
  · exact sorted_foldl_fillNull (Assoc.sorted_insertAll _ (sorted_opening dimensions key _)) _
  · intro column
    exact find?_filled_groupDocument hash dimensions metrics h key column

theorem foldAll_start (results : List (String × RawResult)) :
    foldAll hash (start dimensions metrics) results = ofRows hash dimensions metrics (rowsOf results) := by
  rw [← foldRows_start, ← foldAll_eq_foldRows]

/-- Folding results one after another and finishing is a grouping of all their rows: one document for
each hash of an identity, in the order in which the hashes came in first, with the columns that
`groupColumn?` gives and no other. -/
theorem finish_foldAll (results : List (String × RawResult)) :
    let rows := rowsOf results
    let groups := ((rows.map Prod.snd).map (rowKey hash dimensions)).eraseDups
    let result := (foldAll hash (start dimensions metrics) results).finish
    result.dimensions = dimensions ∧ result.metrics = metrics ∧
      List.Forall₂ (fun key document => Assoc.Sorted document ∧ ∀ column,
        Assoc.find? column document =
          groupColumn? hash dimensions metrics (rows.map Prod.snd) key column)
        groups result.documents ∧
      result.anomalies = rows.flatMap fun r => missing dimensions r.1 r.2 := by
  intro rows groups result
  have hresult : result = (ofRows hash dimensions metrics rows).finish := by
    rw [← foldAll_start]
  rw [hresult]
  exact ⟨rfl, rfl, forall₂_documents_ofRows hash dimensions metrics fun _ hrow =>
    sorted_of_mem_rowsOf hrow, rfl⟩

end Pivot

end SeriesPivot
