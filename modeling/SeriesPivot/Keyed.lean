/-!
# Lists with a name for each entry

A list of named entries in the order in which the names came in first.

* `put` replaces the entry of a name in its place, or appends a new one.
* `putNew` appends an entry only if its name is new.
* `find?` is the entry of a name.

Main statements: `find?_put` and `find?_putNew`.
-/

namespace SeriesPivot.Keyed

variable {α : Type}

/-- Replace the entry of `name` in its place, or append one. -/
def put (name : String) (a : α) : List (String × α) → List (String × α)
  | [] => [(name, a)]
  | (k, b) :: rest => if k = name then (name, a) :: rest else (k, b) :: put name a rest

/-- The entry of `name`. -/
def find? (name : String) : List (String × α) → Option α
  | [] => none
  | (k, b) :: rest => if k = name then some b else find? name rest

/-- Append an entry if its name is new. -/
def putNew (name : String) (a : α) (l : List (String × α)) : List (String × α) :=
  if (find? name l).isSome then l else l ++ [(name, a)]

theorem find?_append (name : String) (l m : List (String × α)) :
    find? name (l ++ m) = (find? name l).or (find? name m) := by
  induction l with
  | nil => rfl
  | cons p l ih =>
    by_cases h : p.1 = name <;> simp [find?, h, ih]

theorem find?_put (name j : String) (a : α) (l : List (String × α)) :
    find? j (put name a l) = if j = name then some a else find? j l := by
  induction l with
  | nil => by_cases h : j = name <;> simp [put, find?, h, Ne.symm]
  | cons p l ih =>
    obtain ⟨k, b⟩ := p
    by_cases hk : k = name
    · subst hk
      by_cases hj : j = k
      · simp [put, find?, hj]
      · simp [put, find?, hj, Ne.symm hj]
    · by_cases hj : k = j
      · subst hj
        simp [put, find?, hk]
      · simp [put, find?, hk, hj, ih]

theorem find?_putNew (name j : String) (a : α) (l : List (String × α)) :
    find? j (putNew name a l) = (find? j l).or (if j = name then some a else none) := by
  by_cases h : (find? name l).isSome
  · obtain ⟨b, hb⟩ := Option.isSome_iff_exists.1 h
    by_cases hj : j = name
    · subst hj
      simp [putNew, hb]
    · simp [putNew, h, hj]
  · by_cases hj : j = name
    · subst hj
      simp [putNew, h, find?_append, find?]
    · simp [putNew, h, hj, find?_append, find?, Ne.symm hj]

end SeriesPivot.Keyed
