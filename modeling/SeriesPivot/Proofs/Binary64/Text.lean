import SeriesPivot.Binary64.Shortest
import Mathlib.Tactic.Common

/-!
# The text of a double

The characters that written doubles are made of.

* `isDigit_of_mem_split`: on both sides of the decimal point stand digits only.
* `isNumeric_of_mem_toExponential`: besides digits, a written double has signs, a point and an `e`.
-/

namespace SeriesPivot

namespace Decimal

/-- The characters of written numbers. -/
def isNumeric (c : Char) : Bool :=
  c.isDigit || c == '-' || c == '+' || c == '.' || c == 'e'

theorem isNumeric_of_isDigit {c : Char} (h : c.isDigit = true) : isNumeric c = true := by
  simp [isNumeric, h]

theorem isDigit_of_mem_toString {n : Nat} {c : Char} (h : c ∈ (toString n).toList) :
    c.isDigit = true := by
  rw [Nat.toString_eq_repr, Nat.toList_repr] at h
  exact Nat.isDigit_of_mem_toDigits (by decide) (by decide) h

theorem isDigit_of_mem_render {ds : List Nat} {c : Char} (h : c ∈ (render ds).toList) :
    c.isDigit = true := by
  simp only [render, String.toList_join, List.flatMap_map, List.mem_flatMap] at h
  obtain ⟨d, -, hd⟩ := h
  exact isDigit_of_mem_toString hd

theorem isDigit_of_mem_zeros {n : Nat} {c : Char} (h : c ∈ (zeros n).toList) : c.isDigit = true := by
  simp only [zeros, String.toList_ofList, List.mem_replicate] at h
  rw [h.2]
  rfl

theorem isDigit_of_mem_split {d : Decimal} {c : Char}
    (h : c ∈ d.split.1.toList ∨ c ∈ d.split.2.toList) : c.isDigit = true := by
  unfold split at h
  simp only at h
  split_ifs at h <;> simp only [String.toList_append, List.mem_append] at h
  · rcases h with h | h | h
    · rw [show c = '0' by simpa using h]
      rfl
    · exact isDigit_of_mem_zeros h
    · exact isDigit_of_mem_render h
  · rcases h with h | h <;> exact isDigit_of_mem_render h
  · rcases h with (h | h) | h
    · exact isDigit_of_mem_render h
    · exact isDigit_of_mem_zeros h
    · simp at h

theorem isNumeric_of_mem_exponential {d : Decimal} {c : Char} (h : c ∈ d.exponential.toList) :
    isNumeric c = true := by
  have hdigit := fun {ds : List Nat} {c : Char} (h : c ∈ (render ds).toList) =>
    isNumeric_of_isDigit (isDigit_of_mem_render h)
  unfold exponential at h
  simp only [String.toList_append, List.mem_append] at h
  rcases h with ((h | h) | h) | h
  · split_ifs at h
    · exact hdigit h
    · simp only [String.toList_append, List.mem_append] at h
      rcases h with (h | h) | h
      · exact hdigit h
      · rw [show c = '.' by simpa using h]
        rfl
      · exact hdigit h
  · rw [show c = 'e' by simpa using h]
    rfl
  · split_ifs at h
    · rw [show c = '-' by simpa using h]
      rfl
    · rw [show c = '+' by simpa using h]
      rfl
  · exact isNumeric_of_isDigit (isDigit_of_mem_toString h)

end Decimal

namespace Binary64

theorem isNumeric_of_mem_toExponential {x : Binary64} {c : Char} (h : c ∈ x.toExponential.toList) :
    Decimal.isNumeric c = true := by
  unfold toExponential at h
  simp only [String.toList_append, List.mem_append] at h
  rcases h with h | h
  · unfold signText at h
    split_ifs at h
    · rw [show c = '-' by simpa using h]
      rfl
    · simp at h
  · split_ifs at h with hpoint hempty
    · simp only [String.toList_append, List.mem_append] at h
      rcases h with (h | h) | h
      · exact Decimal.isNumeric_of_isDigit (Decimal.isDigit_of_mem_split (.inl h))
      · rw [show c = '.' by simpa using h]
        rfl
      · rw [show c = '0' by simpa using h]
        rfl
    · simp only [String.toList_append, List.mem_append] at h
      rcases h with (h | h) | h
      · exact Decimal.isNumeric_of_isDigit (Decimal.isDigit_of_mem_split (.inl h))
      · rw [show c = '.' by simpa using h]
        rfl
      · exact Decimal.isNumeric_of_isDigit (Decimal.isDigit_of_mem_split (.inr h))
    · exact Decimal.isNumeric_of_mem_exponential h

theorem toExponential_ne_empty (x : Binary64) : x.toExponential.toList ≠ [] := by
  unfold toExponential Decimal.exponential
  simp only
  split_ifs <;> simp

end Binary64

end SeriesPivot
