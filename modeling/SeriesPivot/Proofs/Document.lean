import SeriesPivot.Document
import SeriesPivot.Proofs.Assoc
import SeriesPivot.Proofs.Json.Shape

/-!
# Flat documents have scalars only

Flattening walks down to the leaves of a document, so no column of a flat document is an array or an
object.

* `isScalar_of_mem_leaves`: all leaves are scalars.
* `isScalar_of_mem_flatten`: so are the columns of a flat document.
-/

namespace SeriesPivot.Document

theorem isScalar_of_mem_scalarLeaf {path : Option String} {j : Json} (hj : j.isScalar = true)
    {leaf : String × Json} (h : leaf ∈ scalarLeaf path j) : leaf.2.isScalar = true := by
  cases path with
  | none => cases h
  | some p =>
    obtain rfl := List.mem_singleton.1 h
    exact hj

/-- All leaves are scalars. -/
theorem isScalar_of_mem_leaves (j : Json) : ∀ path, ∀ leaf ∈ leaves path j, leaf.2.isScalar = true := by
  induction j using Json.induct with
  | null => exact fun path leaf => isScalar_of_mem_scalarLeaf rfl
  | bool b => exact fun path leaf => isScalar_of_mem_scalarLeaf rfl
  | number n => exact fun path leaf => isScalar_of_mem_scalarLeaf rfl
  | string s => exact fun path leaf => isScalar_of_mem_scalarLeaf rfl
  | array items ih =>
    intro path
    change ∀ leaf ∈ itemLeaves path 0 items, _
    generalize 0 = index
    induction items generalizing index with
    | nil => simp [itemLeaves]
    | cons j items ihItems =>
      rw [List.forall_mem_cons] at ih
      rw [itemLeaves, List.forall_mem_append]
      exact ⟨ih.1 _, ihItems ih.2 (index + 1)⟩
  | object fields ih =>
    intro path
    change ∀ leaf ∈ fieldLeaves path fields, _
    induction fields with
    | nil => simp [fieldLeaves]
    | cons field fields ihFields =>
      rw [List.forall_mem_cons] at ih
      rw [fieldLeaves, List.forall_mem_append]
      exact ⟨ih.1 _, ihFields ih.2⟩

theorem isScalar_of_mem_flatten {document : Json} {leaf : String × Json} (h : leaf ∈ flatten document) :
    leaf.2.isScalar = true :=
  isScalar_of_mem_leaves document none leaf (Assoc.mem_ofList h)

end SeriesPivot.Document
