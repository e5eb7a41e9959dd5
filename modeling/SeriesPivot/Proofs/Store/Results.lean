import SeriesPivot.Proofs.Json.Reading
import SeriesPivot.Store.Response
import Mathlib.Tactic.MkIffOfInductiveProp

/-!
# Results as they are kept

* `RawResult.Kept` says that the tags of each series are a map and that all values are canonical.
* `RawResult.Kept.row`: so are the rows of the result.
* `Response.kept_of_read`: every result that is read from a body is kept so.
-/

namespace SeriesPivot

/-- A row has one value for each name, and its values are canonical. -/
structure RowKept (row : Row) : Prop where
  sorted : Assoc.Sorted row
  canonical : ∀ cell ∈ row, cell.2.Canonical

/-- A series has one value for each tag, and its values are canonical. -/
@[mk_iff]
structure Series.Kept (s : Series) : Prop where
  tags : Assoc.Sorted s.tags
  canonical_tags : ∀ tag ∈ s.tags, tag.2.Canonical
  canonical_values : ∀ values ∈ s.values, ∀ v ∈ values, v.Canonical

instance (s : Series) : Decidable s.Kept :=
  have (m : Row) : Decidable (Assoc.Sorted m) := inferInstanceAs (Decidable (List.Pairwise _ m))
  decidable_of_iff _ (Series.kept_iff s).symm

/-- All series of a result are kept so. -/
def RawResult.Kept (raw : RawResult) : Prop :=
  ∀ s ∈ raw.series, s.Kept

instance (raw : RawResult) : Decidable raw.Kept :=
  inferInstanceAs (Decidable (∀ s ∈ raw.series, s.Kept))

/-- The rows of a result are kept as the result is. -/
theorem RawResult.Kept.row {raw : RawResult} (h : raw.Kept) {row : Row} (hrow : row ∈ raw.rows) :
    RowKept row := by
  obtain ⟨s, hs, hvalues⟩ := List.mem_flatMap.1 hrow
  obtain ⟨values, hmem, rfl⟩ := List.mem_map.1 hvalues
  have hkept := h s hs
  refine ⟨Assoc.sorted_insertAll _ hkept.tags, ?_⟩
  rintro ⟨column, v⟩ hcell
  rcases Assoc.mem_insertAll hcell with hzip | htag
  · exact hkept.canonical_values values hmem v (List.of_mem_zip hzip).2
  · exact hkept.canonical_tags _ htag

/-! ### Reading -/

open Json.Decode (Keeps)

theorem Series.keeps_decode : Keeps Series.decode Series.Kept := by
  refine Keeps.record ⟨Assoc.sorted_nil, by simp, by simp⟩ ?_
  simp only [List.forall_mem_cons]
  refine ⟨fun s hs => ?_, fun s hs => ?_, fun s hs => ?_, fun s hs => ?_, by simp⟩
  · exact (Json.Decode.keeps_true _).map fun _ _ => ⟨hs.tags, hs.canonical_tags, hs.canonical_values⟩
  · exact Json.Decode.keeps_json.dictionary.map fun _ h => ⟨h.1, h.2, hs.canonical_values⟩
  · exact (Json.Decode.keeps_true _).map fun _ _ => ⟨hs.tags, hs.canonical_tags, hs.canonical_values⟩
  · exact Json.Decode.keeps_json.listOf.listOf.map fun _ h => ⟨hs.tags, hs.canonical_tags, h⟩

theorem RawResult.keeps_decode : Keeps RawResult.decode RawResult.Kept := by
  refine Keeps.record (by simp [RawResult.Kept, RawResult.empty]) ?_
  simp only [List.forall_mem_cons]
  refine ⟨fun _ _ => ?_, by simp⟩
  exact Series.keeps_decode.listOf.map fun _ h => h

theorem StatementResult.keeps_decode :
    Keeps StatementResult.decode fun r => ∀ s ∈ r.series, s.Kept := by
  refine Keeps.record (by simp) ?_
  simp only [List.forall_mem_cons]
  refine ⟨fun _ _ => ?_, fun _ hr => ?_, by simp⟩
  · exact Series.keeps_decode.listOf.map fun _ h => h
  · exact (Json.Decode.keeps_true _).map fun _ _ => hr

namespace Response

theorem keeps_decode : Keeps decode fun r => ∀ x ∈ r.results, ∀ s ∈ x.series, s.Kept := by
  refine Keeps.record (by simp) ?_
  simp only [List.forall_mem_cons]
  refine ⟨fun _ _ => ?_, fun _ hr => ?_, by simp⟩
  · exact StatementResult.keeps_decode.listOf.map fun _ h => h
  · exact (Json.Decode.keeps_true _).map fun _ _ => hr

theorem mem_of_collect {results : List StatementResult} {series : List Series}
    (h : collect results = .ok series) {s : Series} (hs : s ∈ series) :
    ∃ r ∈ results, s ∈ r.series := by
  induction results generalizing series with
  | nil =>
    cases h
    cases hs
  | cons r results ih =>
    unfold collect at h
    split at h
    · cases h
    · obtain ⟨rest, hrest, rfl⟩ := map_eq_ok_iff.1 h
      rcases List.mem_append.1 hs with hs | hs
      · exact ⟨r, List.mem_cons_self, hs⟩
      · obtain ⟨x, hx, hs⟩ := ih hrest hs
        exact ⟨x, List.mem_cons_of_mem _ hx, hs⟩

/-- Every result that is read from a body is kept as results are. -/
theorem kept_of_read {body : String} {raw : RawResult} (h : read body = .ok raw) : raw.Kept := by
  unfold read at h
  split at h
  · rename_i r hr
    have hkept := keeps_decode.fromText? hr
    unfold toResult at h
    split at h
    · cases h
    · obtain ⟨series, hseries, rfl⟩ := map_eq_ok_iff.1 h
      intro s hs
      obtain ⟨x, hx, hs⟩ := mem_of_collect hseries hs
      exact hkept x hx s hs
  · cases h

end Response

end SeriesPivot
