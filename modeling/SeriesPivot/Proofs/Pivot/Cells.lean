import SeriesPivot.Proofs.Pivot.Tags
import Mathlib.Data.Finset.Card

/-!
# Cells of rows in documents

A document has a cell of a row under another name: dots become underscores, and the time is a timestamp. As
long as no two columns of a row have one name in documents, all cells are there. Of several columns with one
name the last one in the order of columns counts, and the others are lost.

* `Assoc.length_ofList`: a map has one binding for each key of the pairs that it is made of.
* `Series.row_perm`: the row of a list of values has the tags of its series and the columns with their values.
* `Pivot.Shows` says that a document has a cell of a row, and `Pivot.Hides` that a column takes the name of
  another one.
* `Pivot.normalizeRow_shows`: which cells a document has of a row, and how many columns.
-/

namespace SeriesPivot

/-- A map has one binding for each key of the pairs that it is made of. -/
theorem Assoc.length_ofList {κ α : Type} [LT κ] [DecidableLT κ] [DecidableEq κ]
    [IsStrictTotalOrder κ (· < ·)] (l : List (κ × α)) :
    (ofList l).length = (l.map Prod.fst).toFinset.card := by
  have hkeys : ((ofList l).map Prod.fst).toFinset = (l.map Prod.fst).toFinset := by
    ext k
    rw [List.mem_toFinset, List.mem_toFinset, ← find?_isSome_iff, find?_ofList, find?_isSome_iff,
      List.map_reverse, List.mem_reverse]
  rw [← hkeys, List.toFinset_card_of_nodup (nodup_keys (sorted_ofList l)), List.length_map]

/-- The row of a list of values has the tags of its series and the columns with their values, if they all
have names of their own. -/
theorem Series.row_perm {series : Series} (hsorted : Assoc.Sorted series.tags)
    (hcolumns : series.columns.Nodup) (htags : ∀ column ∈ series.columns, column ∉ series.tags.map Prod.fst)
    (values : List Json) : (series.row values).Perm (series.tags ++ series.columns.zip values) := by
  have hrow : series.row values = Assoc.ofList (series.tags ++ series.columns.zip values) := by
    rw [row, Assoc.ofList, Assoc.insertAll_append]
    change _ = Assoc.insertAll (Assoc.ofList series.tags) _
    rw [Assoc.ofList_eq_self hsorted]
  have hzip : ((series.columns.zip values).map Prod.fst).Nodup := by
    rw [List.zip_eq_zip_take_min, List.map_fst_zip (by simp)]
    exact hcolumns.sublist (List.take_sublist _ _)
  rw [hrow]
  refine Assoc.ofList_perm ?_
  rw [List.map_append, List.nodup_append]
  refine ⟨Assoc.nodup_keys hsorted, hzip, fun name htag column hcolumn he => ?_⟩
  obtain ⟨cell, hcell, rfl⟩ := List.mem_map.1 hcolumn
  exact htags cell.1 (List.of_mem_zip hcell).1 (he ▸ htag)

namespace Pivot

/-- A document has a cell of a row: the time as a timestamp, and any other cell unchanged under its name
with underscores for dots. -/
def Shows (document : Row) (cell : String × Json) : Prop :=
  if cell.1 = "time" then Assoc.find? "timestamp" document = some (normalizeTime cell.2)
  else Assoc.find? (underscored cell.1) document = some cell.2

instance (document : Row) (cell : String × Json) : Decidable (Shows document cell) :=
  inferInstanceAs (Decidable (if cell.1 = "time" then _ else _))

/-- A column takes the name of another one in documents: it has the same name there and comes later in the
order of columns. -/
def Hides (column hidden : String) : Prop :=
  documentColumn column = documentColumn hidden ∧ hidden < column

theorem shows_iff (document : Row) (cell : String × Json) :
    Shows document cell ↔
      Assoc.find? (documentColumn cell.1) document = some (normalizeCell cell).2 := by
  unfold Shows documentColumn normalizeCell timeColumn
  rw [normalizeColumn_eq]
  split_ifs <;> rfl

/-- A document has a cell if no other column of the row takes its name. -/
theorem shows_of_not_hides {row : Row} (hrow : Assoc.Sorted row) {cell : String × Json} (hcell : cell ∈ row)
    (h : ∀ other ∈ row, ¬ Hides other.1 cell.1) : Shows (normalizeRow row) cell := by
  have hfind : Assoc.find? cell.1 row = some cell.2 :=
    (Assoc.find?_eq_some_iff (Assoc.nodup_keys hrow)).2 hcell
  rw [shows_iff]
  refine find?_normalizeRow_of_last hrow hfind fun column hcolumn hname hlt => ?_
  obtain ⟨other, hother, rfl⟩ := List.mem_map.1 hcolumn
  exact h other hother ⟨hname, hlt⟩

/-- A document has one column for each name that the columns of a row have in documents. -/
theorem length_normalizeRow (row : Row) :
    (normalizeRow row).length = (row.map fun cell => documentColumn cell.1).toFinset.card := by
  rw [normalizeRow, Assoc.length_ofList, List.map_map]
  exact congrArg (fun names : List String => names.toFinset.card)
    (List.map_congr_left fun cell _ => normalizeCell_fst cell)

/-- What a document has of a row. The row has the tags of its series and the columns with their values. The
document has one column for each name that they have in documents, so it has as many columns as the row if
and only if these names are distinct, and then it has all cells. In any case it has the cells whose names no
later column takes. -/
theorem normalizeRow_shows {series : Series} (hsorted : Assoc.Sorted series.tags)
    (hcolumns : series.columns.Nodup)
    (htags : ∀ column ∈ series.columns, column ∉ series.tags.map Prod.fst) :
    ∀ values ∈ series.values,
      let row := series.row values
      let names := row.map fun cell => documentColumn cell.1
      row.Perm (series.tags ++ series.columns.zip values) ∧
      (normalizeRow row).length = names.toFinset.card ∧
      ((normalizeRow row).length = row.length ↔ names.Nodup) ∧
      (names.Nodup → ∀ cell ∈ row, Shows (normalizeRow row) cell) ∧
      ∀ cell ∈ row, (∀ other ∈ row, ¬ Hides other.1 cell.1) → Shows (normalizeRow row) cell := by
  intro values _ row names
  have hrow : Assoc.Sorted row := Assoc.sorted_insertAll _ hsorted
  have hshows : ∀ cell ∈ row, (∀ other ∈ row, ¬ Hides other.1 cell.1) →
      Shows (normalizeRow row) cell := fun _ hcell => shows_of_not_hides hrow hcell
  refine ⟨Series.row_perm hsorted hcolumns htags values, length_normalizeRow row, ?_,
    fun hnames cell hcell => ?_, hshows⟩
  · have hlength : names.length = row.length := List.length_map _
    rw [length_normalizeRow, ← hlength]
    exact Multiset.toFinset_card_eq_card_iff_nodup (m := (↑names : Multiset String))
  · refine hshows cell hcell fun other hother hhides => ?_
    have hsame : other = cell := List.inj_on_of_nodup_map hnames hother hcell hhides.1
    exact lt_irrefl cell.1 (hsame ▸ hhides.2)

/-- Visits by country on one system, the second of them without a count. -/
def visitsByCountry : Series :=
  ⟨"events", [("client.os", .string "linux")], ["time", "user.country", "visits"],
    [[.ofInt (-60000), .string "US", .ofInt 3], [.ofInt 0, .null]]⟩

theorem normalizeRow_shows_visitsByCountry :
    Assoc.Sorted visitsByCountry.tags ∧ visitsByCountry.columns.Nodup ∧
    (∀ column ∈ visitsByCountry.columns, column ∉ visitsByCountry.tags.map Prod.fst) ∧
    visitsByCountry.values.length = 2 ∧
    ∀ values ∈ visitsByCountry.values,
      let row := visitsByCountry.row values
      row.Perm (visitsByCountry.tags ++ visitsByCountry.columns.zip values) ∧
      (row.map fun cell => documentColumn cell.1).Nodup ∧
      (normalizeRow row).length = row.length ∧ ∀ cell ∈ row, Shows (normalizeRow row) cell := by
  have hsorted : Assoc.Sorted visitsByCountry.tags := List.pairwise_singleton _ _
  have hcolumns : visitsByCountry.columns.Nodup := by decide
  have htags : ∀ column ∈ visitsByCountry.columns,
      column ∉ visitsByCountry.tags.map Prod.fst := by decide
  have hnames : ∀ values ∈ visitsByCountry.values,
      ((visitsByCountry.row values).map fun cell => documentColumn cell.1).Nodup := by decide
  refine ⟨hsorted, hcolumns, htags, rfl, fun values hvalues => ?_⟩
  obtain ⟨hperm, -, hlength, hshows, -⟩ := normalizeRow_shows hsorted hcolumns htags values hvalues
  have hdistinct := hnames values hvalues
  exact ⟨hperm, hdistinct, hlength.2 hdistinct, hshows hdistinct⟩

/-- A time and a country that are each kept under two names. -/
def keptTwice : Series :=
  ⟨"events", [], ["time", "timestamp", "user.country", "user_country"],
    [[.ofInt 0, .string "noon", .string "US", .string "DE"]]⟩

/-- Two of the four cells are lost, and one of them is the time. -/
theorem keptTwice_loses_cells :
    keptTwice.columns.Nodup ∧ (∀ column ∈ keptTwice.columns, column ∉ keptTwice.tags.map Prod.fst) ∧
    ∃ row ∈ keptTwice.rows, row.length = 4 ∧ (normalizeRow row).length = 2 ∧
      ("user.country", .string "US") ∈ row ∧ ¬ Shows (normalizeRow row) ("user.country", .string "US") ∧
      ("time", .ofInt 0) ∈ row ∧ ¬ Shows (normalizeRow row) ("time", .ofInt 0) := by
  refine ⟨by decide, by decide, _, List.mem_cons_self, ?_⟩
  decide

end Pivot

end SeriesPivot
