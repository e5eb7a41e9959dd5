import SeriesPivot.Keyed
import Mathlib.Data.List.Induction
import Mathlib.Data.List.Nodup
import Mathlib.Logic.Function.Basic

/-!
# Tables in the order of first occurrence

`Keyed.put` keeps the entries of a list in the order in which their names came in first.

* `table names f` has the entry `f name` for each of `names`.
* `put_table`: to put an entry into the table of the distinct names of a list is to add the name to the
  list and to change `f` in one place.
* `foldl_putNew_eq_self`: appending the new entries of a list changes nothing when no name is new.
* `keys_put_of_eq`, `keys_foldl_putNew`: names stay in the order in which they came in first, whether an
  entry is put in or appended.
* `putAll` puts in the entries of a list one after another (`keys_putAll`), and the entry of a name is the
  last one that was put in (`find?_putAll`). `foldl_eq_putAll` is for runs that do so step by step.
-/

namespace SeriesPivot

/-- The distinct items of a longer list, in the order of first occurrence. -/
theorem eraseDups_concat {α : Type} [DecidableEq α] (l : List α) (a : α) :
    (l ++ [a]).eraseDups = if a ∈ l then l.eraseDups else l.eraseDups ++ [a] := by
  rw [List.eraseDups_append]
  by_cases h : a ∈ l <;> simp [List.removeAll, h, List.eraseDups_cons]

theorem nodup_eraseDups {α : Type} [DecidableEq α] (l : List α) : l.eraseDups.Nodup := by
  induction l using List.reverseRecOn with
  | nil => simp
  | append_singleton l a ih =>
    rw [eraseDups_concat]
    split_ifs with h
    · exact ih
    · rw [List.nodup_append]
      refine ⟨ih, by simp, fun x hx y hy => ?_⟩
      rw [List.mem_singleton] at hy
      rintro rfl
      exact h (hy ▸ List.mem_eraseDups.1 hx)

/-- Items that a list has already leave its distinct items as they are. -/
theorem eraseDups_append_of_subset {α : Type} [DecidableEq α] {l m : List α} (h : ∀ a ∈ m, a ∈ l) :
    (l ++ m).eraseDups = l.eraseDups := by
  induction m using List.reverseRecOn with
  | nil => rw [List.append_nil]
  | append_singleton m a ih =>
    rw [← List.append_assoc, eraseDups_concat, if_pos (List.mem_append_left _ (h a (by simp)))]
    exact ih fun b hb => h b (List.mem_append_left _ hb)

/-- The distinct values of a function come from some of the items. -/
theorem exists_eraseDups_eq_map {α β : Type} [DecidableEq β] (l : List α) (f : α → β) :
    ∃ first : List α, (∀ a ∈ first, a ∈ l) ∧ (l.map f).eraseDups = first.map f := by
  induction l using List.reverseRecOn with
  | nil => exact ⟨[], by simp⟩
  | append_singleton l a ih =>
    obtain ⟨first, hfirst, hf⟩ := ih
    rw [List.map_append, List.map_singleton, eraseDups_concat]
    split_ifs with hfa
    · exact ⟨first, fun b hb => List.mem_append_left _ (hfirst b hb), hf⟩
    · refine ⟨first ++ [a], fun b hb => ?_, by simp [hf]⟩
      rcases List.mem_append.1 hb with hb | hb
      · exact List.mem_append_left _ (hfirst b hb)
      · exact List.mem_append_right _ hb

namespace Keyed

variable {α : Type}

/-- The entry `f name` for each of `names`. -/
def table (names : List String) (f : String → α) : List (String × α) :=
  names.map fun name => (name, f name)

theorem find?_table (names : List String) (f : String → α) (name : String) :
    find? name (table names f) = if name ∈ names then some (f name) else none := by
  induction names with
  | nil => rfl
  | cons n names ih =>
    change (if n = name then some (f n) else find? name (table names f)) = _
    by_cases h : n = name
    · simp [h]
    · simp [h, ih, Ne.symm h]

theorem table_congr {names : List String} {f g : String → α} (h : ∀ name ∈ names, f name = g name) :
    table names f = table names g :=
  List.map_congr_left fun name hn => by rw [h name hn]

theorem put_table_of_mem {names : List String} {name : String} (a : α) (f : String → α)
    (hn : names.Nodup) (h : name ∈ names) :
    put name a (table names f) = table names (Function.update f name a) := by
  induction names with
  | nil => simp at h
  | cons n names ih =>
    obtain ⟨hn', hn⟩ := List.nodup_cons.1 hn
    change (if n = name then (name, a) :: table names f else (n, f n) :: put name a (table names f)) = _
    by_cases he : n = name
    · subst he
      have hrest : table names f = table names (Function.update f n a) := by
        refine table_congr fun m hm => ?_
        rw [Function.update_of_ne]
        rintro rfl
        exact hn' hm
      rw [if_pos rfl, hrest]
      simp [table]
    · rw [if_neg he, ih hn ((List.mem_cons.1 h).resolve_left (Ne.symm he))]
      simp [table, he]

theorem put_table_of_not_mem {names : List String} {name : String} (a : α) (f : String → α)
    (h : name ∉ names) :
    put name a (table names f) = table (names ++ [name]) (Function.update f name a) := by
  induction names with
  | nil => simp [table, put]
  | cons n names ih =>
    rw [List.mem_cons, not_or] at h
    change (if n = name then (name, a) :: table names f else (n, f n) :: put name a (table names f)) = _
    rw [if_neg (Ne.symm h.1), ih h.2]
    simp [table, Ne.symm h.1]

/-- To put an entry into the table of the distinct names of a list is to add its name to the list. -/
theorem put_table (names : List String) (name : String) (a : α) (f : String → α) :
    put name a (table names.eraseDups f) =
      table (names ++ [name]).eraseDups (Function.update f name a) := by
  rw [eraseDups_concat]
  split_ifs with h
  · exact put_table_of_mem a f (nodup_eraseDups names) (List.mem_eraseDups.2 h)
  · exact put_table_of_not_mem a f fun hm => h (List.mem_eraseDups.1 hm)

theorem find?_isSome_put {name n : String} (a : α) {l : List (String × α)}
    (h : (find? n l).isSome) : (find? n (put name a l)).isSome := by
  rw [find?_put]
  split_ifs
  · rfl
  · exact h

theorem find?_isSome_of_mem {p : String × α} {l : List (String × α)} (h : p ∈ l) :
    (find? p.1 l).isSome := by
  induction l with
  | nil => simp at h
  | cons q l ih =>
    obtain ⟨n, b⟩ := q
    rw [find?]
    split_ifs with hn
    · rfl
    · refine ih ((List.mem_cons.1 h).resolve_left ?_)
      rintro rfl
      exact hn rfl

theorem find?_foldl_putNew (name : String) (l entries : List (String × α)) :
    find? name (entries.foldl (fun l p => putNew p.1 p.2 l) l) = (find? name l).or (find? name entries) := by
  induction entries generalizing l with
  | nil => simp [find?]
  | cons p entries ih =>
    rw [List.foldl_cons, ih, find?_putNew, Option.or_assoc]
    by_cases hp : p.1 = name <;> simp [find?, hp, Ne.symm]

theorem foldl_putNew_eq_self {l m : List (String × α)} (h : ∀ p ∈ m, (find? p.1 l).isSome) :
    m.foldl (fun l p => putNew p.1 p.2 l) l = l := by
  induction m with
  | nil => rfl
  | cons p m ih =>
    rw [List.foldl_cons, putNew, if_pos (h p (by simp))]
    exact ih fun q hq => h q (List.mem_cons_of_mem _ hq)

/-! ### Many entries -/

theorem mem_of_find? {name : String} {a : α} {l : List (String × α)} (h : find? name l = some a) :
    (name, a) ∈ l := by
  induction l with
  | nil => cases h
  | cons p l ih =>
    obtain ⟨k, b⟩ := p
    rw [find?] at h
    split_ifs at h with hk
    · cases h
      simp [hk]
    · exact List.mem_cons_of_mem _ (ih h)

theorem find?_isSome_iff {name : String} {l : List (String × α)} :
    (find? name l).isSome ↔ name ∈ l.map Prod.fst := by
  constructor
  · intro h
    obtain ⟨a, ha⟩ := Option.isSome_iff_exists.1 h
    exact List.mem_map.2 ⟨(name, a), mem_of_find? ha, rfl⟩
  · intro h
    obtain ⟨p, hp, rfl⟩ := List.mem_map.1 h
    exact find?_isSome_of_mem hp

theorem find?_eq_none_of_not_mem {name : String} {l : List (String × α)} (h : ∀ p ∈ l, p.1 ≠ name) :
    find? name l = none := by
  rw [Option.eq_none_iff_forall_ne_some]
  intro a ha
  exact h _ (mem_of_find? ha) rfl

/-- Put in the entries of a list one after another. -/
def putAll (l entries : List (String × α)) : List (String × α) :=
  entries.foldl (fun l p => put p.1 p.2 l) l

theorem putAll_append (l entries more : List (String × α)) :
    putAll l (entries ++ more) = putAll (putAll l entries) more := by
  simp [putAll]

theorem putAll_concat (l entries : List (String × α)) (p : String × α) :
    putAll l (entries ++ [p]) = put p.1 p.2 (putAll l entries) := by
  simp [putAll]

/-- A run whose steps put in what an item asks for puts in what all items ask for. -/
theorem foldl_eq_putAll {σ β : Type} (view : σ → List (String × α)) {step : σ → β → σ}
    {asked? : β → Option (String × α)}
    (h : ∀ c b, view (step c b) = putAll (view c) (asked? b).toList) (items : List β) (c : σ) :
    view (items.foldl step c) = putAll (view c) (items.filterMap asked?) := by
  induction items generalizing c with
  | nil => rfl
  | cons b items ih =>
    rw [List.foldl_cons, ih, h, ← putAll_append]
    cases hb : asked? b <;> simp [hb]

theorem mem_put {name : String} {a : α} {l : List (String × α)} {p : String × α} (h : p ∈ put name a l) :
    p = (name, a) ∨ p ∈ l := by
  induction l with
  | nil => exact .inl (List.mem_singleton.1 h)
  | cons q l ih =>
    rw [put] at h
    split_ifs at h
    · exact (List.mem_cons.1 h).imp_right (List.mem_cons_of_mem _)
    · rcases List.mem_cons.1 h with rfl | h
      · exact .inr List.mem_cons_self
      · exact (ih h).imp_right (List.mem_cons_of_mem _)

/-- Entries come from those that were put in. -/
theorem mem_of_mem_putAll {entries : List (String × α)} {p : String × α} (h : p ∈ putAll [] entries) :
    p ∈ entries := by
  induction entries using List.reverseRecOn with
  | nil => exact h
  | append_singleton entries q ih =>
    rw [putAll_concat] at h
    rcases mem_put h with rfl | h
    · exact List.mem_append_right _ (List.mem_singleton_self _)
    · exact List.mem_append_left _ (ih h)

/-- The last entry with a name counts. -/
theorem find?_putAll (name : String) (l entries : List (String × α)) :
    find? name (putAll l entries) = (find? name entries.reverse).or (find? name l) := by
  induction entries using List.reverseRecOn with
  | nil => simp [putAll, find?]
  | append_singleton entries p ih =>
    rw [putAll_concat, find?_put, ih, List.reverse_append, List.reverse_singleton, List.singleton_append,
      find?]
    by_cases hp : name = p.1 <;> simp [hp, Ne.symm]

theorem keys_put (name : String) (a : α) (l : List (String × α)) :
    (put name a l).map Prod.fst =
      if name ∈ l.map Prod.fst then l.map Prod.fst else l.map Prod.fst ++ [name] := by
  induction l with
  | nil => simp [put]
  | cons p l ih =>
    obtain ⟨k, b⟩ := p
    rw [put]
    by_cases hk : k = name
    · simp [hk]
    · rw [if_neg hk, List.map_cons, ih]
      by_cases hmem : name ∈ l.map Prod.fst <;> simp_all [Ne.symm hk]

theorem keys_putNew (name : String) (a : α) (l : List (String × α)) :
    (putNew name a l).map Prod.fst =
      if name ∈ l.map Prod.fst then l.map Prod.fst else l.map Prod.fst ++ [name] := by
  unfold putNew
  by_cases h : name ∈ l.map Prod.fst
  · rw [if_pos h, if_pos (find?_isSome_iff.2 h)]
  · rw [if_neg h, if_neg (mt find?_isSome_iff.1 h), List.map_append, List.map_singleton]

section

variable {names : List String} {l : List (String × α)}

/-- To put in an entry is to add its name to the names that have come in. -/
theorem keys_put_of_eq (h : l.map Prod.fst = names.eraseDups) (name : String) (a : α) :
    (put name a l).map Prod.fst = (names ++ [name]).eraseDups := by
  rw [keys_put, h, eraseDups_concat]
  simp only [List.mem_eraseDups]

/-- To append new entries is to add their names, too. -/
theorem keys_foldl_putNew (h : l.map Prod.fst = names.eraseDups) (entries : List (String × α)) :
    (entries.foldl (fun l p => putNew p.1 p.2 l) l).map Prod.fst =
      (names ++ entries.map Prod.fst).eraseDups := by
  induction entries using List.reverseRecOn with
  | nil => simpa using h
  | append_singleton entries p ih =>
    rw [List.foldl_append, List.foldl_cons, List.foldl_nil, keys_putNew, ih, List.map_append,
      List.map_singleton, ← List.append_assoc, eraseDups_concat]
    simp only [List.mem_eraseDups]

end

/-- Names stay in the order in which they came in first. -/
theorem keys_putAll (entries : List (String × α)) :
    (putAll [] entries).map Prod.fst = (entries.map Prod.fst).eraseDups := by
  induction entries using List.reverseRecOn with
  | nil => rfl
  | append_singleton entries p ih =>
    rw [putAll_concat, keys_put_of_eq ih, List.map_append, List.map_singleton]

/-- An entry counts if no later one has its name. -/
theorem find?_putAll_of_last {l before after : List (String × α)} {p : String × α}
    (h : ∀ later ∈ after, later.1 ≠ p.1) : find? p.1 (putAll l (before ++ p :: after)) = some p.2 := by
  have hafter : find? p.1 after.reverse = none :=
    find?_eq_none_of_not_mem fun later hl => h later (List.mem_reverse.1 hl)
  rw [find?_putAll, List.reverse_append, List.reverse_cons, find?_append, find?_append, hafter,
    Option.none_or]
  simp [find?]

/-- All entries count if and only if entries with one name are the same. -/
theorem forall_find?_putAll_iff (entries : List (String × α)) :
    (∀ p ∈ entries, find? p.1 (putAll [] entries) = some p.2) ↔
      ∀ p ∈ entries, ∀ q ∈ entries, p.1 = q.1 → p.2 = q.2 := by
  constructor
  · intro h p hp q hq hpq
    have hboth := (h p hp).symm.trans ((congrArg (find? · _) hpq).trans (h q hq))
    exact Option.some.inj hboth
  · intro h p hp
    have hsome : (find? p.1 entries.reverse).isSome :=
      find?_isSome_of_mem (List.mem_reverse.2 hp)
    obtain ⟨a, ha⟩ := Option.isSome_iff_exists.1 hsome
    have hlast : (p.1, a) ∈ entries := List.mem_reverse.1 (mem_of_find? ha)
    rw [find?_putAll, ha, h p hp _ hlast rfl]
    rfl

end Keyed

end SeriesPivot
