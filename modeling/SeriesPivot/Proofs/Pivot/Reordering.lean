import SeriesPivot.Proofs.Pivot.Tuples

/-!
# The order of results

The results of sub-queries come in any order. The first row of a group opens its document, and of two
rows with one column the later one counts, so the order could show in the documents. It does not, if two
results have no columns in common but those that the identity of a row determines.

* `determinedColumns` are these: the keys of the keyed dimensions and their first candidates.
* `RawResult.documentColumns` are the columns that a result puts into documents.
* `groupColumn?_eq_of_perm`: a column of a document does not depend on the order of the results.
* `foldAll_eq_of_perm`: results in any order give the same documents and the same notes, up to the order
  of these.
-/

namespace SeriesPivot

/-- The columns of the rows of a result under their names in documents. -/
def RawResult.documentColumns (raw : RawResult) : List String :=
  raw.rows.flatMap fun row => (Pivot.normalizeRow row).map Prod.fst

namespace Pivot

/-- The columns that the identity of a row determines if the row has them: the keys of the keyed
dimensions and their first candidates. -/
def determinedColumns (dimensions : List Dimension) : List String :=
  (dimensions.filter (·.isKeyed)).flatMap fun d => normalizeColumn d.key :: d.candidates.take 1

/-! ### Permuted lists -/

/-- If a function finds no two values in a list, the order of the list does not matter. -/
theorem findSome?_eq_of_perm {α β : Type} {l m : List α} {f : α → Option β} (h : l.Perm m)
    (hf : ∀ a ∈ l, ∀ b ∈ l, ∀ x ∈ f a, ∀ y ∈ f b, x = y) : l.findSome? f = m.findSome? f := by
  cases hl : l.findSome? f with
  | none =>
    rw [List.findSome?_eq_none_iff] at hl
    exact (List.findSome?_eq_none_iff.2 fun b hb => hl b (h.mem_iff.2 hb)).symm
  | some x =>
    obtain ⟨a, ha, hx⟩ := List.exists_of_findSome?_eq_some hl
    cases hm : m.findSome? f with
    | none =>
      rw [List.findSome?_eq_none_iff.1 hm a (h.mem_iff.1 ha)] at hx
      cases hx
    | some y =>
      obtain ⟨b, hb, hy⟩ := List.exists_of_findSome?_eq_some hm
      rw [hf a ha b (h.mem_iff.2 hb) x hx y hy]

/-- If the last items of the parts of a list agree, the order of the parts does not matter for the last
item of the whole. -/
theorem getLast?_flatMap_eq_of_perm {α β : Type} {l m : List α} {f : α → List β} (h : l.Perm m)
    (hf : ∀ a ∈ l, ∀ b ∈ l, ∀ x ∈ (f a).getLast?, ∀ y ∈ (f b).getLast?, x = y) :
    (l.flatMap f).getLast? = (m.flatMap f).getLast? := by
  rw [List.getLast?_flatMap, List.getLast?_flatMap]
  refine findSome?_eq_of_perm (l.reverse_perm.trans (h.trans m.reverse_perm.symm)) ?_
  intro a ha b hb
  exact hf a (List.mem_reverse.1 ha) b (List.mem_reverse.1 hb)

theorem eraseDups_perm {α : Type} [DecidableEq α] {l m : List α} (h : l.Perm m) :
    l.eraseDups.Perm m.eraseDups := by
  refine (List.perm_ext_iff_of_nodup (nodup_eraseDups l) (nodup_eraseDups m)).2 fun a => ?_
  rw [List.mem_eraseDups, List.mem_eraseDups, h.mem_iff]

/-! ### Groups of several results -/

section Groups

variable (hash : String → String) (dimensions : List Dimension)

theorem mem_rowsOf {results : List (String × RawResult)} {row : Row} :
    row ∈ (rowsOf results).map Prod.snd ↔
      ∃ r ∈ results, ∃ raw ∈ r.2.rows, normalizeRow raw = row := by
  simp [rowsOf_eq]

/-- The group of several results is made of the groups of each. -/
theorem groupRows_rowsOf (results : List (String × RawResult)) (key : String) :
    groupRows hash dimensions ((rowsOf results).map Prod.snd) key =
      results.flatMap fun r => groupRows hash dimensions (r.2.rows.map normalizeRow) key := by
  simp only [groupRows, rowsOf_eq, List.map_flatMap, List.filter_flatMap, List.map_map, Function.comp_def]

theorem rowsOf_perm {results results' : List (String × RawResult)} (h : results.Perm results') :
    (rowsOf results).Perm (rowsOf results') :=
  h.flatMap_right _

/-- A group opens with the identity that its rows have in common. -/
theorem opening_eq {group : List Row} {row : Row} (hrow : row ∈ group)
    (hall : ∀ r ∈ group, rowId dimensions r = rowId dimensions row) (key : String) :
    opening dimensions key group = newDocument (rowId dimensions row) key := by
  cases group with
  | nil => cases hrow
  | cons first rest => rw [opening, hall first List.mem_cons_self]

/-- A row that has the first candidate of a dimension is identified by it. -/
theorem find?_rowId_of_candidate
    (hkeys : ((dimensions.filter (·.isKeyed)).map fun d => normalizeColumn d.key).Nodup)
    {d : Dimension} (hd : d ∈ dimensions) (hkeyed : d.isKeyed = true) {column : String}
    (hcolumn : column ∈ d.candidates.take 1) {row : Row} {v : Json}
    (hv : Assoc.find? column row = some v) :
    Assoc.find? (normalizeColumn d.key) (rowId dimensions row) = some v := by
  have hvalue : d.value? row = some v := by
    unfold Dimension.value?
    cases hc : d.candidates with
    | nil => simp [hc] at hcolumn
    | cons first rest =>
      rw [hc] at hcolumn
      rw [List.findSome?_cons, ← List.mem_singleton.1 hcolumn, hv]
  rw [find?_rowId hkeys row hd hkeyed, hvalue]
  rfl

end Groups

section Results

variable {hash : String → String} (hhash : Function.Injective hash) {dimensions : List Dimension}
  {results results' : List (String × RawResult)} (hkept : ∀ r ∈ results, r.2.Kept)

include hhash hkept

/-- Rows of one group have one identity. -/
theorem rowId_eq_of_mem_groupRows {key : String} {row other : Row}
    (hrow : row ∈ groupRows hash dimensions ((rowsOf results).map Prod.snd) key)
    (hother : other ∈ groupRows hash dimensions ((rowsOf results).map Prod.snd) key) :
    rowId dimensions row = rowId dimensions other := by
  obtain ⟨hrow, hkey⟩ := List.mem_filter.1 hrow
  obtain ⟨hother, hkey'⟩ := List.mem_filter.1 hother
  obtain ⟨r, hr, raw, hraw, rfl⟩ := mem_rowsOf.1 hrow
  obtain ⟨r', hr', raw', hraw', rfl⟩ := mem_rowsOf.1 hother
  refine (rowKey_eq_iff_rowId_eq hhash dimensions ((hkept r hr).row hraw) ((hkept r' hr').row hraw')).1 ?_
  rw [beq_iff_eq.1 hkey, beq_iff_eq.1 hkey']

variable (hkeys : ((dimensions.filter (·.isKeyed)).map fun d => normalizeColumn d.key).Nodup)
  (happart : ∀ r ∈ results, ∀ r' ∈ results, r.2 ≠ r'.2 → ∀ column ∈ r.2.documentColumns,
    column ∈ r'.2.documentColumns → column ∈ determinedColumns dimensions)

include hkeys happart

/-- Two different results put the same value into a column of one document. -/
theorem eq_of_carried {r r' : String × RawResult} (hr : r ∈ results) (hr' : r' ∈ results)
    (hne : r.2 ≠ r'.2) {column : String} (hcolumn : isDimensionKey dimensions column = false)
    {key : String} {row row' : Row} {v w : Json}
    (hrow : row ∈ groupRows hash dimensions (r.2.rows.map normalizeRow) key)
    (hrow' : row' ∈ groupRows hash dimensions (r'.2.rows.map normalizeRow) key)
    (hv : Assoc.find? column row = some v) (hw : Assoc.find? column row' = some w) : v = w := by
  have hcarried : ∀ {r : String × RawResult} {row : Row} {v : Json},
      row ∈ groupRows hash dimensions (r.2.rows.map normalizeRow) key →
      Assoc.find? column row = some v → column ∈ r.2.documentColumns := by
    intro r row v hrow hv
    obtain ⟨raw, hraw, rfl⟩ := List.mem_map.1 (List.mem_filter.1 hrow).1
    exact List.mem_flatMap.2 ⟨raw, hraw, List.mem_map.2 ⟨_, Assoc.mem_of_find? hv, rfl⟩⟩
  have hgroup : ∀ {r : String × RawResult} {row : Row}, r ∈ results →
      row ∈ groupRows hash dimensions (r.2.rows.map normalizeRow) key →
      row ∈ groupRows hash dimensions ((rowsOf results).map Prod.snd) key := by
    intro r row hr hrow
    rw [groupRows_rowsOf]
    exact List.mem_flatMap.2 ⟨r, hr, hrow⟩
  obtain ⟨d, hd, hdetermined⟩ := List.mem_flatMap.1
    (happart r hr r' hr' hne column (hcarried hrow hv) (hcarried hrow' hw))
  obtain ⟨hd, hkeyed⟩ := List.mem_filter.1 hd
  rcases List.mem_cons.1 hdetermined with rfl | hcandidate
  · rw [isDimensionKey_iff.2 ⟨d, hd, hkeyed, rfl⟩] at hcolumn
    cases hcolumn
  · -- both values are the component of the one identity
    have hid := rowId_eq_of_mem_groupRows hhash hkept (hgroup hr hrow) (hgroup hr' hrow')
    have hfind := find?_rowId_of_candidate dimensions hkeys hd hkeyed hcandidate hv
    rw [hid, find?_rowId_of_candidate dimensions hkeys hd hkeyed hcandidate hw] at hfind
    exact (Option.some.inj hfind).symm

/-- A column of a document does not depend on the order of the results. -/
theorem groupColumn?_eq_of_perm (hperm : results.Perm results') (metrics : List Metric) {key : String}
    (hkey : key ∈ ((rowsOf results).map Prod.snd).map (rowKey hash dimensions)) (column : String) :
    groupColumn? hash dimensions metrics ((rowsOf results).map Prod.snd) key column =
      groupColumn? hash dimensions metrics ((rowsOf results').map Prod.snd) key column := by
  have hmem : ∀ row, row ∈ groupRows hash dimensions ((rowsOf results).map Prod.snd) key ↔
      row ∈ groupRows hash dimensions ((rowsOf results').map Prod.snd) key :=
    fun row => (((rowsOf_perm hperm).map Prod.snd).filter _).mem_iff
  have hopening : opening dimensions key
        (groupRows hash dimensions ((rowsOf results).map Prod.snd) key) =
      opening dimensions key (groupRows hash dimensions ((rowsOf results').map Prod.snd) key) := by
    obtain ⟨row, hrow, hrowKey⟩ := List.mem_map.1 hkey
    have hgroup : row ∈ groupRows hash dimensions ((rowsOf results).map Prod.snd) key :=
      List.mem_filter.2 ⟨hrow, beq_iff_eq.2 hrowKey⟩
    rw [opening_eq dimensions hgroup fun r hr => rowId_eq_of_mem_groupRows hhash hkept hr hgroup,
      opening_eq dimensions ((hmem row).1 hgroup) fun r hr =>
        rowId_eq_of_mem_groupRows hhash hkept ((hmem r).2 hr) hgroup]
  have hcarried : isDimensionKey dimensions column = false →
      ((groupRows hash dimensions ((rowsOf results).map Prod.snd) key).filterMap
        (Assoc.find? column)).getLast? =
      ((groupRows hash dimensions ((rowsOf results').map Prod.snd) key).filterMap
        (Assoc.find? column)).getLast? := by
    intro hcolumn
    simp only [groupRows_rowsOf, List.filterMap_flatMap]
    refine getLast?_flatMap_eq_of_perm hperm fun r hr r' hr' v hv w hw => ?_
    -- one result alone has the column, or the identity determines it
    by_cases hne : r.2 = r'.2
    · rw [hne] at hv
      exact Option.some.inj (hv.symm.trans hw)
    · obtain ⟨row, hrow, hv⟩ := List.mem_filterMap.1 (List.mem_of_getLast? hv)
      obtain ⟨row', hrow', hw⟩ := List.mem_filterMap.1 (List.mem_of_getLast? hw)
      exact eq_of_carried hhash hkept hkeys happart hr hr' hne hcolumn hrow hrow' hv hw
  simp only [groupColumn?_eq, hopening]
  cases hcolumn : isDimensionKey dimensions column with
  | true => rfl
  | false => rw [hcarried hcolumn]

/-- The finished document of a group does not depend on the order of the results. -/
theorem filled_groupDocument_eq_of_perm (hperm : results.Perm results') (metrics : List Metric)
    {key : String} (hkey : key ∈ ((rowsOf results).map Prod.snd).map (rowKey hash dimensions)) :
    (metricColumns metrics).foldl fillNull
        (groupDocument hash dimensions ((rowsOf results).map Prod.snd) key) =
      (metricColumns metrics).foldl fillNull
        (groupDocument hash dimensions ((rowsOf results').map Prod.snd) key) := by
  have hsorted : ∀ rows : List Row, Assoc.Sorted
      ((metricColumns metrics).foldl fillNull (groupDocument hash dimensions rows key)) := fun rows =>
    sorted_foldl_fillNull (Assoc.sorted_insertAll _ (sorted_opening dimensions key _)) _
  refine Assoc.eq_of_find?_eq (hsorted _) (hsorted _) fun column => ?_
  rw [find?_filled_groupDocument hash dimensions metrics (fun _ => sorted_of_mem_rowsOf),
    find?_filled_groupDocument hash dimensions metrics (fun _ => sorted_of_mem_rowsOf)]
  exact groupColumn?_eq_of_perm hhash hkept hkeys happart hperm metrics hkey column

end Results

theorem documents_ofRows (hash : String → String) (dimensions : List Dimension)
    (metrics : List Metric) (rows : List (String × Row)) :
    (ofRows hash dimensions metrics rows).finish.documents =
      ((rows.map Prod.snd).map (rowKey hash dimensions)).eraseDups.map fun key =>
        (metricColumns metrics).foldl fillNull
          (groupDocument hash dimensions (rows.map Prod.snd) key) := by
  simp only [finish, ofRows, Keyed.table, List.map_map, Function.comp_def]

/-- Under a hash without collisions, results that have no columns in common but those that identities
determine may be folded in any order: the documents are the same and so is what is noted, up to the order
of either. -/
theorem foldAll_eq_of_perm {hash : String → String} (hhash : Function.Injective hash)
    {dimensions : List Dimension} (hkeys : (dimensions.map fun d => normalizeColumn d.key).Nodup)
    (metrics : List Metric) {results results' : List (String × RawResult)}
    (hkept : ∀ r ∈ results, r.2.Kept)
    (happart : ∀ r ∈ results, ∀ r' ∈ results, r.2 ≠ r'.2 → ∀ column ∈ r.2.documentColumns,
      column ∈ r'.2.documentColumns → column ∈ determinedColumns dimensions)
    (hperm : results.Perm results') :
    let result := (foldAll hash (start dimensions metrics) results).finish
    let result' := (foldAll hash (start dimensions metrics) results').finish
    result.dimensions = result'.dimensions ∧ result.metrics = result'.metrics ∧
      result.documents.Perm result'.documents ∧ result.anomalies.Perm result'.anomalies := by
  intro result result'
  have hresult : result = (ofRows hash dimensions metrics (rowsOf results)).finish := by
    rw [← foldAll_start]
  have hresult' : result' = (ofRows hash dimensions metrics (rowsOf results')).finish := by
    rw [← foldAll_start]
  have hkeyed : ((dimensions.filter (·.isKeyed)).map fun d => normalizeColumn d.key).Nodup :=
    hkeys.sublist (List.filter_sublist.map _)
  rw [hresult, hresult']
  refine ⟨rfl, rfl, ?_, (rowsOf_perm hperm).flatMap_right _⟩
  rw [documents_ofRows, documents_ofRows]
  have hrows := ((rowsOf_perm hperm).map Prod.snd).map (rowKey hash dimensions)
  refine ((eraseDups_perm hrows).map _).trans (List.Perm.of_eq (List.map_congr_left fun key hkey => ?_))
  exact filled_groupDocument_eq_of_perm hhash hkept hkeyed happart hperm metrics
    (hrows.mem_iff.2 (List.mem_eraseDups.1 hkey))

/-- Visits grouped by the tag of the browser, views with the browser under its key, and clicks that come
without a browser. -/
def visitsAndViews : List (String × RawResult) :=
  [("visits", ⟨[⟨"web", [("ua.browser", .string "firefox")], ["time", "visits"],
      [[.ofInt 0, .ofInt 3], [.ofInt 3600000, .ofInt 4]]⟩]⟩),
    ("views", ⟨[⟨"pages", [], ["browser", "time", "page.views"],
      [[.string "firefox", .ofInt 0, .ofInt 9], [.string "chrome", .ofInt 0, .ofInt 1]]⟩]⟩),
    ("clicks", ⟨[⟨"clicks", [], ["time", "clicks"], [[.ofInt 0, .ofInt 2]]⟩]⟩)]

theorem foldAll_eq_of_perm_visitsAndViews :
    let dimensions : List Dimension :=
      [⟨"hour", .date, none, none⟩, ⟨"browser", .string, some "ua.browser", none⟩]
    let metrics := [Metric.named "visits", Metric.named "page.views", Metric.named "clicks"]
    let result := (foldAll id (start dimensions metrics) visitsAndViews).finish
    let result' := (foldAll id (start dimensions metrics) visitsAndViews.reverse).finish
    Function.Injective (id : String → String) ∧
    (dimensions.map fun d => normalizeColumn d.key).Nodup ∧
    (∀ r ∈ visitsAndViews, r.2.Kept) ∧
    (∀ r ∈ visitsAndViews, ∀ r' ∈ visitsAndViews, r.2 ≠ r'.2 → ∀ column ∈ r.2.documentColumns,
      column ∈ r'.2.documentColumns → column ∈ determinedColumns dimensions) ∧
    visitsAndViews.Perm visitsAndViews.reverse ∧
    result.documents.length = 4 ∧ result.documents ≠ result'.documents ∧
    result.dimensions = result'.dimensions ∧ result.metrics = result'.metrics ∧
      result.documents.Perm result'.documents ∧ result.anomalies.Perm result'.anomalies := by
  intro dimensions metrics result result'
  have happart : ∀ r ∈ visitsAndViews, ∀ r' ∈ visitsAndViews, r.2 ≠ r'.2 →
      ∀ column ∈ r.2.documentColumns, column ∈ r'.2.documentColumns →
        column ∈ determinedColumns dimensions := by decide +kernel
  have hperm := visitsAndViews.reverse_perm.symm
  exact ⟨Function.injective_id, by decide, by decide, happart, hperm, by decide +kernel,
    by decide +kernel, foldAll_eq_of_perm Function.injective_id (by decide) metrics (by decide) happart
      hperm⟩

end Pivot

end SeriesPivot
