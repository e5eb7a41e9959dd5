import SeriesPivot.Proofs.Pivot.Reordering

/-!
# Documents describe themselves

A document shows the tuple that it stands for three times: as one value under `_id`, by its hash under
`key`, and as the columns of the dimensions. Rows put their columns into the document after these, and a
column of a row that is the key of a dimension is left out. Only `_id` and `key` are not kept from rows,
and a dimension that is called so has no column.

* `CarriesOwn` says that results have a column of a name that is no key of a dimension.
* `Describes` is what a document shows of its identity.
* `groupColumn?_of_not_carried`: what no row puts into a document is as the document opened.
* `finish_describes`: every document describes itself, but for names that results carry themselves.
-/

namespace SeriesPivot.Pivot

/-- The results put a column of that name into documents. -/
def CarriesOwn (dimensions : List Dimension) (results : List (String × RawResult)) (name : String) :
    Prop :=
  isDimensionKey dimensions name = false ∧ ∃ r ∈ results, name ∈ r.2.documentColumns

instance (dimensions : List Dimension) (results : List (String × RawResult)) (name : String) :
    Decidable (CarriesOwn dimensions results name) :=
  inferInstanceAs (Decidable (_ ∧ _))

/-- An identity has one value for each name of a keyed dimension, and a document shows these values under
their names, except for a name that the document uses itself. -/
structure Describes (dimensions : List Dimension) (document id : Row) : Prop where
  sorted : Assoc.Sorted id
  keys : ∀ name, name ∈ id.map Prod.fst ↔
    ∃ d ∈ dimensions, d.isKeyed = true ∧ normalizeColumn d.key = name
  columns : ∀ d ∈ dimensions, d.isKeyed = true → normalizeColumn d.key ∉ ["_id", "key"] →
    ∃ v, Assoc.find? (normalizeColumn d.key) id = some v ∧
      Assoc.find? (normalizeColumn d.key) document = some v

/-! ### Identities of rows -/

/-- An identity has the names of the keyed dimensions. -/
theorem mem_names_rowId {dimensions : List Dimension} {row : Row} {name : String} :
    name ∈ (rowId dimensions row).map Prod.fst ↔
      ∃ d ∈ dimensions, d.isKeyed = true ∧ normalizeColumn d.key = name := by
  rw [rowId_eq, ← Assoc.find?_isSome_iff, Assoc.find?_ofList, Assoc.find?_isSome_iff, List.map_reverse,
    List.mem_reverse, List.map_map]
  simp [and_assoc]

/-! ### What rows leave as it was -/

section Groups

variable {hash : String → String} {dimensions : List Dimension} {metrics : List Metric}

/-- What no row puts into a document is as the document opened. -/
theorem groupColumn?_of_not_carried {rows : List Row} {key column : String} {v : Json}
    (hopening : Assoc.find? column
      (opening dimensions key (groupRows hash dimensions rows key)) = some v)
    (hnot : isDimensionKey dimensions column = true ∨ ∀ row ∈ rows, Assoc.find? column row = none) :
    groupColumn? hash dimensions metrics rows key column = some v := by
  have hcarried : (if isDimensionKey dimensions column then none
      else ((groupRows hash dimensions rows key).filterMap (Assoc.find? column)).getLast?) = none := by
    rcases hnot with hkey | hnone
    · rw [if_pos hkey]
    · have hnil : (groupRows hash dimensions rows key).filterMap (Assoc.find? column) = [] :=
        List.filterMap_eq_nil_iff.2 fun row hrow => hnone row (List.mem_filter.1 hrow).1
      rw [hnil, List.getLast?_nil, ite_self]
  simp only [groupColumn?_eq, hcarried, hopening, Option.none_or, Option.some_or]

/-- Rows of results without a column have no value for it. -/
theorem find?_eq_none_of_not_carriesOwn {results : List (String × RawResult)} {name : String}
    (h : ¬ CarriesOwn dimensions results name) :
    isDimensionKey dimensions name = true ∨
      ∀ row ∈ (rowsOf results).map Prod.snd, Assoc.find? name row = none := by
  rw [CarriesOwn, not_and_or, Bool.not_eq_false] at h
  refine h.imp_right fun hnot row hrow => ?_
  obtain ⟨r, hr, raw, hraw, rfl⟩ := mem_rowsOf.1 hrow
  rw [Assoc.find?_eq_none_iff]
  exact fun hmem => hnot ⟨r, hr, List.mem_flatMap.2 ⟨raw, hraw, hmem⟩⟩

/-- The document of a group opens with the identity of one of its rows. -/
theorem exists_opening {rows : List Row} {key : String}
    (hkey : key ∈ (rows.map (rowKey hash dimensions)).eraseDups) :
    ∃ row, rowKey hash dimensions row = key ∧
      opening dimensions key (groupRows hash dimensions rows key) =
        newDocument (rowId dimensions row) key := by
  cases hgroup : groupRows hash dimensions rows key with
  | nil =>
    rw [groupRows_eq_nil_iff] at hgroup
    exact absurd (List.mem_eraseDups.1 hkey) hgroup
  | cons row rest =>
    have hrow : row ∈ groupRows hash dimensions rows key := by simp [hgroup]
    exact ⟨row, beq_iff_eq.1 (List.mem_filter.1 hrow).2, rfl⟩

end Groups

/-- Every document shows an identity that has a value for each keyed dimension and no others. It is shown
as one value under `_id` and by the hash of its text under `key`, unless the results carry a column of that
name, and by the columns of the dimensions, unless one of them is called so. -/
theorem finish_describes (hash : String → String) (dimensions : List Dimension) (metrics : List Metric)
    (results : List (String × RawResult)) :
    ∀ document ∈ (foldAll hash (start dimensions metrics) results).finish.documents, ∃ id : Row,
      Describes dimensions document id ∧
      (¬ CarriesOwn dimensions results "_id" →
        Assoc.find? "_id" document = some (.object id)) ∧
      (¬ CarriesOwn dimensions results "key" →
        Assoc.find? "key" document = some (.string (hash (Json.object id).compress))) := by
  intro document hdocument
  rw [foldAll_start, documents_ofRows] at hdocument
  obtain ⟨key, hkey, rfl⟩ := List.mem_map.1 hdocument
  obtain ⟨row, hrow, hopening⟩ := exists_opening hkey
  have hsorted : ∀ row ∈ (rowsOf results).map Prod.snd, Assoc.Sorted row :=
    fun _ => sorted_of_mem_rowsOf
  have hcolumn := find?_filled_groupDocument hash dimensions metrics hsorted key
  refine ⟨rowId dimensions row, ⟨Assoc.sorted_ofList _, fun name => mem_names_rowId,
    fun d hd hkeyed hname => ?_⟩, fun hnot => ?_, fun hnot => ?_⟩
  · -- a row does not put in what is the key of a dimension
    have hdimension : ∃ e ∈ dimensions, e.isKeyed = true ∧ normalizeColumn e.key = normalizeColumn d.key :=
      ⟨d, hd, hkeyed, rfl⟩
    have hmember : normalizeColumn d.key ∈ (rowId dimensions row).map Prod.fst :=
      mem_names_rowId.2 hdimension
    obtain ⟨v, hv⟩ := Option.isSome_iff_exists.1 (Assoc.find?_isSome_iff.2 hmember)
    refine ⟨v, hv, ?_⟩
    rw [List.mem_cons, List.mem_singleton, not_or] at hname
    rw [hcolumn]
    refine groupColumn?_of_not_carried ?_ (.inl (isDimensionKey_iff.2 hdimension))
    rw [hopening, find?_newDocument, if_neg hname.2, if_neg hname.1, hv]
  · have hne : "_id" ≠ "key" := by decide
    rw [hcolumn]
    refine groupColumn?_of_not_carried ?_ (find?_eq_none_of_not_carriesOwn hnot)
    rw [hopening, find?_newDocument, if_neg hne, if_pos rfl]
  · rw [hcolumn]
    refine groupColumn?_of_not_carried ?_ (find?_eq_none_of_not_carriesOwn hnot)
    rw [hopening, find?_newDocument, if_pos rfl, ← hrow]
    rfl

/-- Visits by day, by a dotted column and by a column called `key`, and views without two of these. -/
def taggedVisits : List (String × RawResult) :=
  [("visits", ⟨[⟨"events", [("key", .string "a"), ("user.os", .string "linux")], ["time", "visits"],
      [[.ofInt 1704067200000, .ofInt 3], [.ofInt 1704153600000, .ofInt 4]]⟩]⟩),
    ("views", ⟨[⟨"pages", [("user.os", .string "linux")], ["views", "os"],
      [[.ofInt 9, .string "bsd"]]⟩]⟩)]

/-- The dimensions of these visits, and a geographic one. -/
def tagDimensions : List Dimension :=
  [⟨"day", .date, none, none⟩, ⟨"os", .string, some "user.os", none⟩, ⟨"key", .string, none, none⟩,
    ⟨"place", .geo, none, none⟩]

theorem finish_describes_taggedVisits :
    let documents := (foldAll id (start tagDimensions [Metric.named "visits", Metric.named "_id"])
      taggedVisits).finish.documents
    documents.length = 3 ∧ ¬ CarriesOwn tagDimensions taggedVisits "_id" ∧
    ¬ CarriesOwn tagDimensions taggedVisits "key" ∧
    ∀ document ∈ documents, ∃ id : Row, Describes tagDimensions document id ∧
      Assoc.find? "_id" document = some (.object id) ∧
      Assoc.find? "key" document = some (.string (Json.object id).compress) := by
  have hid : ¬ CarriesOwn tagDimensions taggedVisits "_id" := by decide +kernel
  have hkey : ¬ CarriesOwn tagDimensions taggedVisits "key" := by decide +kernel
  refine ⟨by decide +kernel, hid, hkey, fun document hdocument => ?_⟩
  obtain ⟨id, hdescribes, hobject, hhash⟩ := finish_describes _ _ _ _ document hdocument
  exact ⟨id, hdescribes, hobject hid, hhash hkey⟩

/-- A dimension that is called `key` has no column, and a column of the store that is called `_id` takes
the place of the identity. -/
theorem own_names_collide :
    (∃ document ∈ (foldAll id (start [⟨"key", .string, none, none⟩] [])
        [("q", ⟨[⟨"events", [("key", .string "a")], ["time"], [[.ofInt 0]]⟩]⟩)]).finish.documents,
      Assoc.find? "_id" document = some (.object [("key", .string "a")]) ∧
      Assoc.find? "key" document ≠ some (.string "a")) ∧
    ∃ document ∈ (foldAll id (start [⟨"os", .string, none, none⟩] [Metric.named "_id"])
        [("q", ⟨[⟨"events", [("os", .string "linux")], ["time", "_id"],
          [[.ofInt 0, .ofInt 3]]⟩]⟩)]).finish.documents,
      ∀ id, Assoc.find? "_id" document ≠ some (.object id) :=
  ⟨⟨_, List.mem_cons_self, by decide, by decide⟩, ⟨_, List.mem_cons_self, nofun⟩⟩

end SeriesPivot.Pivot
