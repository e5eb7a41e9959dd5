import SeriesPivot.Proofs.Pivot.Groups

/-!
# Results that come twice

A result that is folded a second time right after the first changes no document: its rows fall into the same
groups, and of two rows with one column the later one counts, which is the same row in both rounds. Only the
notes about its rows are made again.

* `groupDocument_repeat`: rows that come again do not change the document of their group.
* `ofRows_repeat`: what a pivot holds after rows that come again.
* `fold_fold`: what folding a result twice does to a pivot that is reached by folding results.
-/

namespace SeriesPivot

namespace Pivot

section Groups

variable (hash : String → String) (dimensions : List Dimension) (metrics : List Metric)

/-- A group keeps its opening when rows come again. -/
theorem opening_repeat (key : String) (group more : List Row) :
    opening dimensions key (group ++ more ++ more) = opening dimensions key (group ++ more) := by
  cases group with
  | cons row group => rfl
  | nil =>
    cases more with
    | nil => rfl
    | cons row more => rfl

/-- Rows that come again do not change the document of their group. -/
theorem groupDocument_repeat (rows more : List Row) :
    groupDocument hash dimensions (rows ++ more ++ more) =
      groupDocument hash dimensions (rows ++ more) := by
  funext key
  simp only [groupDocument, groupRows_append, opening_repeat, List.flatMap_append, Assoc.insertAll_append]
  exact Assoc.insertAll_insertAll_self _ (Assoc.sorted_insertAll _ (sorted_opening dimensions key _))

/-- Rows that come again are noted again, and this is all. -/
theorem ofRows_repeat (rows more : List (String × Row)) :
    ofRows hash dimensions metrics (rows ++ more ++ more) =
      { ofRows hash dimensions metrics (rows ++ more) with
        anomalies := (ofRows hash dimensions metrics (rows ++ more)).anomalies ++
          more.flatMap fun r => missing dimensions r.1 r.2 } := by
  have hkeys : ∀ key ∈ (more.map Prod.snd).map (rowKey hash dimensions),
      key ∈ ((rows ++ more).map Prod.snd).map (rowKey hash dimensions) := fun key hkey => by
    rw [List.map_append, List.map_append]
    exact List.mem_append_right _ hkey
  unfold ofRows
  congr 1
  · rw [List.map_append, List.map_append, eraseDups_append_of_subset hkeys, List.map_append,
      groupDocument_repeat]
  · rw [List.flatMap_append]

/-- One more result adds its rows to what a pivot holds. -/
theorem fold_ofRows (rows : List (String × Row)) (subQuery : String) (raw : RawResult) :
    (ofRows hash dimensions metrics rows).fold hash subQuery raw =
      ofRows hash dimensions metrics
        (rows ++ raw.rows.map fun row => (subQuery, normalizeRow row)) := by
  rw [← foldRows_start, ← foldRows_start, foldRows, foldRows, List.foldl_append, fold, List.foldl_map,
    List.foldl_map]

end Groups

theorem rows_of_isEmpty {raw : RawResult} (h : raw.isEmpty = true) : raw.rows = [] := by
  refine List.flatMap_eq_nil_iff.2 fun series hseries => ?_
  rw [Series.rows, List.isEmpty_iff.1 (List.all_eq_true.1 h series hseries), List.map_nil]

/-- A pivot that has folded any results folds one more, and the same again. The second time leaves everything
as it is after the first, the documents under their hashes and in their order too, but for the notes about
the rows of the result, which are made again. A result without rows changes nothing. -/
theorem fold_fold (hash : String → String) (dimensions : List Dimension) (metrics : List Metric)
    (results : List (String × RawResult)) (subQuery : String) (raw : RawResult) :
    let reached := foldAll hash (start dimensions metrics) results
    let once := reached.fold hash subQuery raw
    let twice := once.fold hash subQuery raw
    (∃ noted : List String, once.anomalies = reached.anomalies ++ noted ∧
      twice = { once with anomalies := once.anomalies ++ noted }) ∧
    (raw.isEmpty = true → once = reached) := by
  intro reached once twice
  have hreached : reached = ofRows hash dimensions metrics (rowsOf results) := foldAll_start ..
  have honce : once = ofRows hash dimensions metrics
      (rowsOf results ++ raw.rows.map fun row => (subQuery, normalizeRow row)) := by
    rw [← fold_ofRows, ← hreached]
  have htwice : twice = _ := congrArg (fold hash subQuery · raw) honce
  rw [fold_ofRows, ofRows_repeat, ← honce] at htwice
  refine ⟨⟨_, ?_, htwice⟩, fun hempty => ?_⟩
  · rw [honce, hreached]
    exact List.flatMap_append
  · rw [honce, hreached, rows_of_isEmpty hempty, List.map_nil, List.append_nil]

/-- Visits with ragged rows, one country twice and none for the last row. -/
def raggedVisits : RawResult :=
  ⟨[⟨"visits", [], ["time", "country", "visits"],
      [[.ofInt 0, .string "NO", .ofInt 3], [.ofInt 0, .string "SE"],
        [.ofInt 0, .string "NO", .ofInt 4, .null]]⟩,
    ⟨"visits", [], ["visits"], [[.ofInt 9]]⟩]⟩

/-- Under a hash that does not tell rows apart, ragged rows are folded twice. -/
theorem fold_fold_raggedVisits :
    let hash : String → String := fun _ => "h"
    let dimensions : List Dimension := [⟨"country", .string, none, none⟩]
    let empty := foldAll hash (start dimensions [Metric.named "visits"]) []
    let once := empty.fold hash "visits" raggedVisits
    let twice := once.fold hash "visits" raggedVisits
    once.documents.length = 1 ∧ once.anomalies.length = 1 ∧
      twice = { once with anomalies := once.anomalies ++ once.anomalies } ∧
      RawResult.empty.isEmpty = true ∧ empty.fold hash "views" RawResult.empty = empty := by
  intro hash dimensions empty once twice
  obtain ⟨⟨noted, hnoted, htwice⟩, -⟩ :=
    fold_fold hash dimensions [Metric.named "visits"] [] "visits" raggedVisits
  obtain ⟨-, hempty⟩ := fold_fold hash dimensions [Metric.named "visits"] [] "views" RawResult.empty
  have hall : once.anomalies = noted := hnoted
  rw [← hall] at htwice
  exact ⟨by decide +kernel, by decide +kernel, htwice, rfl, hempty rfl⟩

end Pivot

end SeriesPivot
