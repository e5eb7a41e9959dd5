/-!
# Association lists in key order

A map is a list of pairs with strictly increasing keys, so two maps with the same bindings are the
same list and printing a map needs no sorting.

* `insert k v m` binds `k` to `v`, in place if `k` is bound already.
* `find? k m` is the value bound to `k`.
* `ofList l` inserts the pairs of `l` one after another, so of two pairs with one key the later counts.

Main statement: `find?_insert`, the value under a key after an insertion.
-/

namespace SeriesPivot.Assoc

variable {κ α : Type} [LT κ] [DecidableLT κ] [DecidableEq κ]

/-- Bind `k` to `v`, keeping the keys in increasing order. -/
def insert (k : κ) (v : α) : List (κ × α) → List (κ × α)
  | [] => [(k, v)]
  | (k', v') :: rest =>
    if k = k' then (k, v) :: rest
    else if k < k' then (k, v) :: (k', v') :: rest
    else (k', v') :: insert k v rest

/-- The value bound to `k`. -/
def find? (k : κ) : List (κ × α) → Option α
  | [] => none
  | (k', v) :: rest => if k = k' then some v else find? k rest

/-- Whether `k` is bound. -/
def contains (k : κ) (m : List (κ × α)) : Bool :=
  (find? k m).isSome

/-- Drop the binding of `k`. -/
def erase (k : κ) (m : List (κ × α)) : List (κ × α) :=
  m.filter (fun p => !decide (p.1 = k))

/-- Insert the pairs of a list in order, starting from `m`. -/
def insertAll (m : List (κ × α)) (l : List (κ × α)) : List (κ × α) :=
  l.foldl (fun m p => insert p.1 p.2 m) m

/-- The map of a list of pairs; a later pair overrides an earlier one. -/
def ofList (l : List (κ × α)) : List (κ × α) :=
  insertAll [] l

theorem find?_insert (k j : κ) (v : α) (m : List (κ × α)) :
    find? j (insert k v m) = if j = k then some v else find? j m := by
  induction m with
  | nil => simp [insert, find?]
  | cons p m ih =>
    obtain ⟨k', v'⟩ := p
    by_cases h : k = k'
    · subst h
      by_cases hj : j = k <;> simp [insert, find?, hj]
    · by_cases hlt : k < k'
      · by_cases hj : j = k <;> simp [insert, find?, h, hlt, hj]
      · by_cases hj : j = k'
        · subst hj
          simp [insert, find?, h, hlt, Ne.symm h]
        · simp [insert, find?, h, hlt, hj, ih]

theorem find?_insert_self (k : κ) (v : α) (m : List (κ × α)) : find? k (insert k v m) = some v := by
  simp [find?_insert]

theorem find?_insert_of_ne {k j : κ} (h : j ≠ k) (v : α) (m : List (κ × α)) :
    find? j (insert k v m) = find? j m := by
  simp [find?_insert, h]

end SeriesPivot.Assoc
