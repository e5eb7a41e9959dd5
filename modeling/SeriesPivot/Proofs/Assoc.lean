import SeriesPivot.Assoc
import SeriesPivot.Descriptor.Tokens
import Mathlib.Data.List.Nodup
import Mathlib.Data.String.Basic
import Mathlib.Order.RelClasses

/-!
# Association lists as finite maps

The laws of `Assoc` over any strict total order of keys.

* `Sorted` says that keys increase strictly; every map that is built by insertions is sorted.
* `eq_of_find?_eq`: sorted lists with the same bindings are equal.
* `find?_insertAll`, `find?_ofList`: of the pairs with one key the last one counts, which is the first
  one of the reversed list.
* `nodup_keys`: a sorted list has one binding for each key.
-/

namespace SeriesPivot

instance : IsStrictTotalOrder Operator (· < ·) where
  trichotomous a b := by cases a <;> cases b <;> decide
  irrefl a := by cases a <;> decide
  trans a b c := by
    change a.rank < b.rank → b.rank < c.rank → a.rank < c.rank
    omega

namespace Assoc

section Sorted

variable {κ α : Type} [LT κ]

/-- Keys increase strictly. -/
def Sorted (m : List (κ × α)) : Prop :=
  m.Pairwise fun p q => p.1 < q.1

@[simp] theorem sorted_nil : Sorted ([] : List (κ × α)) := List.Pairwise.nil

theorem sorted_filter (p : κ × α → Bool) {m : List (κ × α)} (h : Sorted m) : Sorted (m.filter p) :=
  List.Pairwise.filter p h

/-- Entries may be left out and values replaced. -/
theorem sorted_filterMap {β : Type} {f : κ × α → Option (κ × β)} (hf : ∀ p q, f p = some q → q.1 = p.1)
    {m : List (κ × α)} (h : Sorted m) : Sorted (m.filterMap f) := by
  refine List.Pairwise.filterMap f (fun p q hlt p' hp q' hq => ?_) h
  rw [hf p p' hp, hf q q' hq]
  exact hlt

theorem nodup_keys [IsStrictTotalOrder κ (· < ·)] {m : List (κ × α)} (h : Sorted m) :
    (m.map Prod.fst).Nodup := by
  refine List.pairwise_map.2 (h.imp fun {p q} hlt he => ?_)
  rw [he] at hlt
  exact irrefl_of (· < ·) _ hlt

end Sorted

variable {κ α : Type} [DecidableEq κ]

/-! ### Looking up -/

@[simp] theorem find?_nil (k : κ) : find? k ([] : List (κ × α)) = none := rfl

theorem find?_cons (k : κ) (p : κ × α) (m : List (κ × α)) :
    find? k (p :: m) = if k = p.1 then some p.2 else find? k m := rfl

theorem find?_append (k : κ) (l m : List (κ × α)) :
    find? k (l ++ m) = (find? k l).or (find? k m) := by
  induction l with
  | nil => simp
  | cons p l ih => by_cases h : k = p.1 <;> simp [find?_cons, h, ih]

theorem mem_of_find? {k : κ} {v : α} {m : List (κ × α)} (h : find? k m = some v) : (k, v) ∈ m := by
  induction m with
  | nil => simp at h
  | cons p m ih =>
    rw [find?_cons] at h
    split_ifs at h with hk
    · cases h
      simp [hk]
    · exact List.mem_cons_of_mem _ (ih h)

theorem find?_eq_none_iff {k : κ} {m : List (κ × α)} :
    find? k m = none ↔ k ∉ m.map Prod.fst := by
  induction m with
  | nil => simp
  | cons p m ih => by_cases h : k = p.1 <;> simp [find?_cons, h, ih]

theorem find?_isSome_iff {k : κ} {m : List (κ × α)} :
    (find? k m).isSome ↔ k ∈ m.map Prod.fst := by
  rw [← not_iff_not, ← find?_eq_none_iff]
  simp

/-- With one binding for each key, looking up is membership. -/
theorem find?_eq_some_iff {k : κ} {v : α} {m : List (κ × α)} (h : (m.map Prod.fst).Nodup) :
    find? k m = some v ↔ (k, v) ∈ m := by
  refine ⟨mem_of_find?, fun hm => ?_⟩
  induction m with
  | nil => simp at hm
  | cons p m ih =>
    rw [List.map_cons, List.nodup_cons] at h
    rcases List.mem_cons.1 hm with rfl | hm
    · simp [find?_cons]
    · have hk : k ≠ p.1 := by
        rintro rfl
        exact h.1 (List.mem_map.2 ⟨_, hm, rfl⟩)
      rw [find?_cons, if_neg hk]
      exact ih h.2 hm

/-- With one binding for each key, the order of the bindings does not matter. -/
theorem find?_reverse {k : κ} {m : List (κ × α)} (h : (m.map Prod.fst).Nodup) :
    find? k m.reverse = find? k m := by
  have hr : (m.reverse.map Prod.fst).Nodup := by
    rwa [List.map_reverse, List.nodup_reverse]
  apply Option.ext
  intro v
  rw [find?_eq_some_iff hr, find?_eq_some_iff h, List.mem_reverse]

/-- Of the pairs with a key the last one counts. -/
theorem find?_reverse_eq_some_iff {k : κ} {v : α} {l : List (κ × α)} : find? k l.reverse = some v ↔
      ∃ i : ℕ, l[i]? = some (k, v) ∧ ∀ j w, i < j → l[j]? ≠ some (k, w) := by
  induction l with
  | nil => simp
  | cons p l ih =>
    rw [List.reverse_cons, find?_append, Option.or_eq_some_iff, ih]
    constructor
    · rintro (⟨i, hi, hlast⟩ | ⟨hnone, hp⟩)
      · refine ⟨i + 1, hi, fun j w hj => ?_⟩
        cases j with
        | zero => omega
        | succ j => exact hlast j w (by omega)
      · rw [find?_eq_none_iff, List.map_reverse, List.mem_reverse] at hnone
        refine ⟨0, ?_, fun j w hj hw => ?_⟩
        · exact congrArg some (List.mem_singleton.1 (mem_of_find? hp)).symm
        · cases j with
          | zero => omega
          | succ j => exact hnone (List.mem_map.2 ⟨_, List.mem_of_getElem? hw, rfl⟩)
    · rintro ⟨i, hi, hlast⟩
      cases i with
      | succ i => exact .inl ⟨i, hi, fun j w hj => hlast (j + 1) w (by omega)⟩
      | zero =>
        cases hi
        refine .inr ⟨?_, by simp [find?_cons]⟩
        rw [find?_eq_none_iff, List.map_reverse, List.mem_reverse]
        intro hmem
        obtain ⟨⟨_, w⟩, hw, rfl⟩ := List.mem_map.1 hmem
        obtain ⟨j, hj⟩ := List.mem_iff_getElem?.1 hw
        exact hlast (j + 1) w (by omega) hj

theorem find?_filter_key (p : κ → Bool) (k : κ) (m : List (κ × α)) :
    find? k (m.filter fun c => p c.1) = if p k then find? k m else none := by
  induction m with
  | nil => simp
  | cons c m ih =>
    by_cases hk : k = c.1
    · subst hk
      by_cases hp : p c.1 <;> simp [find?_cons, hp, ih]
    · by_cases hp : p c.1 <;> simp [find?_cons, hp, hk, ih]

variable [LT κ]

/-- Sorted lists with the same bindings are equal. -/
theorem eq_of_find?_eq [IsStrictTotalOrder κ (· < ·)] {m m' : List (κ × α)} (h : Sorted m) (h' : Sorted m')
    (hf : ∀ k, find? k m = find? k m') : m = m' := by
  have hmem : ∀ p, p ∈ m ↔ p ∈ m' := fun p => by
    rw [← find?_eq_some_iff (nodup_keys h), hf, find?_eq_some_iff (nodup_keys h')]
  have hperm : m.Perm m' :=
    (List.perm_ext_iff_of_nodup (nodup_keys h).of_map (nodup_keys h').of_map).2 hmem
  exact hperm.eq_of_pairwise (fun p q _ _ hpq hqp => absurd hqp (asymm_of (· < ·) hpq)) h h'

variable [DecidableLT κ]

@[simp] theorem insertAll_nil (m : List (κ × α)) : insertAll m [] = m := rfl

theorem insertAll_cons (m : List (κ × α)) (p : κ × α) (l : List (κ × α)) :
    insertAll m (p :: l) = insertAll (insert p.1 p.2 m) l := rfl

theorem insertAll_append (m l l' : List (κ × α)) :
    insertAll m (l ++ l') = insertAll (insertAll m l) l' := by
  simp [insertAll]

/-- The last pair with a key decides, or the old binding if there is no such pair. -/
theorem find?_insertAll (k : κ) (m l : List (κ × α)) :
    find? k (insertAll m l) = (find? k l.reverse).or (find? k m) := by
  induction l generalizing m with
  | nil => simp
  | cons p l ih =>
    rw [insertAll_cons, ih, find?_insert, List.reverse_cons, find?_append, find?_cons, Option.or_assoc]
    by_cases h : k = p.1 <;> simp [h]

theorem find?_ofList (k : κ) (l : List (κ × α)) : find? k (ofList l) = find? k l.reverse := by
  simp [ofList, find?_insertAll]

theorem find?_ofList_of_nodup (k : κ) {l : List (κ × α)} (h : (l.map Prod.fst).Nodup) :
    find? k (ofList l) = find? k l := by
  rw [find?_ofList, find?_reverse h]

/-- A key with one value is bound to it. -/
theorem find?_ofList_of_forall {k : κ} {v : α} {l : List (κ × α)} (h : (k, v) ∈ l)
    (hall : ∀ w, (k, w) ∈ l → w = v) : find? k (ofList l) = some v := by
  have hsome : (find? k l.reverse).isSome := by
    rw [find?_isSome_iff, List.map_reverse, List.mem_reverse]
    exact List.mem_map.2 ⟨_, h, rfl⟩
  obtain ⟨w, hw⟩ := Option.isSome_iff_exists.1 hsome
  rw [find?_ofList, hw, hall w (List.mem_reverse.1 (mem_of_find? hw))]

/-! ### What a map holds after insertions -/

theorem mem_insert {k : κ} {v : α} {m : List (κ × α)} {p : κ × α} (h : p ∈ insert k v m) :
    p = (k, v) ∨ p ∈ m := by
  induction m with
  | nil => simpa [insert] using h
  | cons q m ih =>
    simp only [insert] at h
    split_ifs at h
    · rcases List.mem_cons.1 h with h | h
      · exact .inl h
      · exact .inr (List.mem_cons_of_mem _ h)
    · exact List.mem_cons.1 h
    · rcases List.mem_cons.1 h with rfl | h
      · exact .inr List.mem_cons_self
      · exact (ih h).imp_right (List.mem_cons_of_mem _)

theorem mem_insertAll {l m : List (κ × α)} {p : κ × α} (h : p ∈ insertAll m l) : p ∈ l ∨ p ∈ m := by
  induction l generalizing m with
  | nil => exact .inr h
  | cons q l ih =>
    rcases ih h with h | h
    · exact .inl (List.mem_cons_of_mem _ h)
    · rcases mem_insert h with rfl | h
      · exact .inl List.mem_cons_self
      · exact .inr h

theorem mem_ofList {l : List (κ × α)} {p : κ × α} (h : p ∈ ofList l) : p ∈ l :=
  (mem_insertAll h).resolve_right List.not_mem_nil

/-! ### Insertions keep a list sorted -/

variable [IsStrictTotalOrder κ (· < ·)]

theorem sorted_insert (k : κ) (v : α) {m : List (κ × α)} (h : Sorted m) :
    Sorted (insert k v m) := by
  induction m with
  | nil => simp [insert, Sorted]
  | cons q m ih =>
    obtain ⟨j, w⟩ := q
    obtain ⟨hj, hm⟩ := List.pairwise_cons.1 h
    simp only [insert]
    split_ifs with he hlt
    · subst he
      exact List.pairwise_cons.2 ⟨hj, hm⟩
    · refine List.pairwise_cons.2 ⟨fun p hp => ?_, h⟩
      rcases List.mem_cons.1 hp with rfl | hp
      · exact hlt
      · exact trans_of (· < ·) hlt (hj p hp)
    · have hjk : j < k := (trichotomous_of (· < ·) j k).resolve_right (by tauto)
      refine List.pairwise_cons.2 ⟨fun p hp => ?_, ih hm⟩
      rcases mem_insert hp with rfl | hp
      · exact hjk
      · exact hj p hp

theorem sorted_insertAll (l : List (κ × α)) {m : List (κ × α)} (h : Sorted m) :
    Sorted (insertAll m l) := by
  induction l generalizing m with
  | nil => exact h
  | cons p l ih => exact ih (sorted_insert p.1 p.2 h)

theorem sorted_ofList (l : List (κ × α)) : Sorted (ofList l) :=
  sorted_insertAll l sorted_nil

/-- To insert pairs again changes nothing. -/
theorem insertAll_insertAll_self (l : List (κ × α)) {m : List (κ × α)} (h : Sorted m) :
    insertAll (insertAll m l) l = insertAll m l := by
  refine eq_of_find?_eq (sorted_insertAll l (sorted_insertAll l h)) (sorted_insertAll l h) fun k => ?_
  rw [find?_insertAll, find?_insertAll, ← Option.or_assoc, Option.or_self]

/-- With one pair for each key, the order of the pairs does not matter. -/
theorem ofList_eq_of_perm {l m : List (κ × α)} (hlm : l.Perm m) (h : (l.map Prod.fst).Nodup) :
    ofList l = ofList m := by
  have hm : (m.map Prod.fst).Nodup := (hlm.map Prod.fst).nodup_iff.1 h
  refine eq_of_find?_eq (sorted_ofList l) (sorted_ofList m) fun k => ?_
  rw [find?_ofList_of_nodup k h, find?_ofList_of_nodup k hm]
  apply Option.ext
  intro v
  rw [find?_eq_some_iff h, find?_eq_some_iff hm, hlm.mem_iff]

/-- With one pair for each key, a map holds just the pairs of the list. -/
theorem ofList_perm {l : List (κ × α)} (h : (l.map Prod.fst).Nodup) : (ofList l).Perm l := by
  have hkeys := nodup_keys (sorted_ofList l)
  refine (List.perm_ext_iff_of_nodup hkeys.of_map h.of_map).2 fun p => ?_
  rw [← find?_eq_some_iff hkeys, find?_ofList_of_nodup _ h, find?_eq_some_iff h]

/-- A sorted list is its own map. -/
theorem ofList_eq_self {m : List (κ × α)} (h : Sorted m) : ofList m = m :=
  eq_of_find?_eq (sorted_ofList m) h fun k => find?_ofList_of_nodup k (nodup_keys h)

end Assoc

end SeriesPivot
