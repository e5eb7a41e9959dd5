import SeriesPivot.Proofs.Json.Reading

/-!
# What a record keeps of its parts

A record is decoded from its parts one after another. Each part is the part of one field, so what this field
makes of it stays in the record, whatever the parts beside it are.

* `Decode.Owns fields f d get` says that `f` is the field of a record that sets what `get` finds in it.
* `Decode.Part fields f` are the trees that a tree of a record has for a field.
* `Decode.get_of_record`: a record has what is decoded from the part of a field.
* `Decode.get_of_record_of_absent`: without such a part it has what it started with.
* `Decode.Given` says both of a value, and `Decode.given_of_record` that a record has such values.
-/

namespace SeriesPivot.Json.Decode

variable {α β γ : Type}

/-- The field `f` puts what `d` makes of a tree where `get` finds it, and the fields of other names leave it
there. -/
structure Owns (fields : List (Field α)) (f : Field α) (d : Decoder β) (get : α → β) : Prop where
  mem : f ∈ fields
  nodup : (fields.map Field.name).Nodup
  sets : ∀ a s b, f.read a s = .ok b → d s = .ok (get b)
  keeps : ∀ g ∈ fields, g.name ≠ f.name → ∀ a s b, g.read a s = .ok b → get b = get a

/-- The tree for a field: the member of its name, or the item at its position. -/
inductive Part (fields : List (Field α)) (f : Field α) : Source → Source → Prop where
  | member {members : List (Option String × Source)} {s : Source} (h : (some f.name, s) ∈ members) :
    Part fields f (.object members) s
  | item {items : List Source} {s : Source} (i : ℕ) (hf : fields[i]? = some f)
    (h : items[i]? = some s) : Part fields f (.array items) s

/-- What is the same for all decoded values is so for the one that a field reads. -/
theorem get_of_read (get : α → β) {d : Decoder γ} {put : γ → α} {s : Source} {b : α} {c : β}
    (h : (do return put (← d s)) = (.ok b : Except Fault α)) (hput : ∀ x, get (put x) = c) :
    get b = c := by
  obtain ⟨x, -, h⟩ := bind_eq_ok_iff.1 h
  cases h
  exact hput x

/-- What is found of a decoded value is the value itself. -/
theorem eq_of_read (get : α → β) {d : Decoder β} {put : β → α} {s : Source} {b : α}
    (h : (do return put (← d s)) = (.ok b : Except Fault α)) (hput : ∀ x, get (put x) = x) :
    d s = .ok (get b) := by
  obtain ⟨x, hx, h⟩ := bind_eq_ok_iff.1 h
  cases h
  rw [hx, hput]

namespace Owns

variable {fields : List (Field α)} {f : Field α} {d : Decoder β} {get : α → β}

theorem find?_eq (hf : Owns fields f d get) : fields.find? (fun g => g.name == f.name) = some f := by
  cases h : fields.find? (fun g => g.name == f.name) with
  | none => simpa using List.find?_eq_none.1 h f hf.mem
  | some g =>
    have hname : g.name = f.name := by simpa using List.find?_some h
    rw [List.inj_on_of_nodup_map hf.nodup (List.mem_of_find?_eq_some h) hf.mem hname]

/-- Once the field is read, it is not read again. -/
theorem get_of_seen (hf : Owns fields f d get) {seen : List String} (hseen : f.name ∈ seen) {a b : α}
    {members : List (Option String × Source)} (h : recordMembers fields seen a members = .ok b) :
    get b = get a := by
  induction members generalizing seen a with
  | nil =>
    unfold recordMembers at h
    split_ifs at h
    cases h
    rfl
  | cons m members ih =>
    obtain ⟨name | name, s⟩ := m
    · cases h
    unfold recordMembers at h
    split at h
    · split_ifs at h
      exact ih hseen h
    · rename_i g hg
      split_ifs at h with hname
      obtain ⟨c, hc, h⟩ := bind_eq_ok_iff.1 h
      rw [ih (List.mem_cons_of_mem _ hseen) h]
      refine hf.keeps g (List.mem_of_find?_eq_some hg) ?_ a s c hc
      -- the name that is read now is new, and that of the field is not
      have hgname : g.name = name := by simpa using List.find?_some hg
      intro he
      exact hname (by simpa [← hgname, he] using hseen)

/-- What is read of a member stays. -/
theorem get_of_member (hf : Owns fields f d get) {seen : List String} {a b : α}
    {members : List (Option String × Source)} {s : Source} (hs : (some f.name, s) ∈ members)
    (h : recordMembers fields seen a members = .ok b) : d s = .ok (get b) := by
  induction members generalizing seen a with
  | nil => cases hs
  | cons m members ih =>
    obtain ⟨name | name, s'⟩ := m
    · cases h
    unfold recordMembers at h
    rcases List.mem_cons.1 hs with he | hs
    · cases he
      rw [hf.find?_eq] at h
      dsimp only at h
      split_ifs at h
      obtain ⟨c, hc, h⟩ := bind_eq_ok_iff.1 h
      rw [hf.get_of_seen List.mem_cons_self h]
      exact hf.sets a s c hc
    · split at h
      · split_ifs at h
        exact ih hs h
      · split_ifs at h
        obtain ⟨c, -, h⟩ := bind_eq_ok_iff.1 h
        exact ih hs h

/-- Items for other fields leave what was read. -/
theorem get_of_items {rest : List (Field α)}
    (hkeeps : ∀ g ∈ rest, ∀ a s b, g.read a s = .ok b → get b = get a) {surplus : Bool} {a b : α}
    {items : List Source} (h : recordItems surplus a rest items = .ok b) : get b = get a := by
  induction rest generalizing a items with
  | nil =>
    cases items with
    | nil =>
      cases h
      rfl
    | cons s items =>
      unfold recordItems at h
      split_ifs at h
      cases h
      rfl
  | cons g rest ih =>
    cases items with
    | nil =>
      unfold recordItems at h
      split_ifs at h
      cases h
      rfl
    | cons s items =>
      rw [List.forall_mem_cons] at hkeeps
      obtain ⟨c, hc, h⟩ := bind_eq_ok_iff.1 h
      rw [ih hkeeps.2 h]
      exact hkeeps.1 a s c hc

theorem tail {g : Field α} (hf : Owns (g :: fields) f d get) (hmem : f ∈ fields) :
    Owns fields f d get where
  mem := hmem
  nodup := (List.nodup_cons.1 hf.nodup).2
  sets := hf.sets
  keeps g hg := hf.keeps g (List.mem_cons_of_mem _ hg)

/-- What is read of an item stays. -/
theorem get_of_item (hf : Owns fields f d get) {surplus : Bool} {a b : α} {items : List Source}
    {s : Source} {i : ℕ} (hi : fields[i]? = some f) (hs : items[i]? = some s)
    (h : recordItems surplus a fields items = .ok b) : d s = .ok (get b) := by
  induction fields generalizing i items a with
  | nil => cases hi
  | cons g fields ih =>
    cases items with
    | nil => cases hs
    | cons s' items =>
      obtain ⟨c, hc, hrest⟩ := bind_eq_ok_iff.1 h
      cases i with
      | zero =>
        cases hi
        cases hs
        -- the fields after it have other names
        have hname : ∀ g ∈ fields, g.name ≠ f.name := fun g hg he =>
          (List.nodup_cons.1 hf.nodup).1 (he ▸ List.mem_map_of_mem hg)
        rw [get_of_items (fun g hg => hf.keeps g (List.mem_cons_of_mem _ hg) (hname g hg)) hrest]
        exact hf.sets a s c hc
      | succ i => exact ih (hf.tail (List.mem_of_getElem? hi)) hi hs hrest

end Owns

/-- A record has what is decoded from the part of a field. -/
theorem get_of_record {fields : List (Field α)} {f : Field α} {d : Decoder β} {get : α → β}
    (hf : Owns fields f d get) {surplus : Bool} {blank a : α} {source part : Source}
    (hpart : Part fields f source part) (h : record surplus fields blank source = .ok a) :
    d part = .ok (get a) := by
  cases hpart with
  | member hmem => exact hf.get_of_member hmem h
  | item i hi hs => exact hf.get_of_item hi hs h

/-! ### Fields without a part -/

namespace Owns

variable {fields : List (Field α)} {f : Field α} {d : Decoder β} {get : α → β}

/-- Members of other names leave what was there. -/
theorem get_of_members (hf : Owns fields f d get) {members : List (Option String × Source)}
    (hnone : ∀ s, (some f.name, s) ∉ members) {seen : List String} {a b : α}
    (h : recordMembers fields seen a members = .ok b) : get b = get a := by
  induction members generalizing seen a with
  | nil =>
    unfold recordMembers at h
    split_ifs at h
    cases h
    rfl
  | cons m members ih =>
    obtain ⟨name | name, s⟩ := m
    · cases h
    have hrest : ∀ s, (some f.name, s) ∉ members := fun s hs => hnone s (List.mem_cons_of_mem _ hs)
    unfold recordMembers at h
    split at h
    · split_ifs at h
      exact ih hrest h
    · rename_i g hg
      split_ifs at h
      obtain ⟨c, hc, h⟩ := bind_eq_ok_iff.1 h
      rw [ih hrest h]
      refine hf.keeps g (List.mem_of_find?_eq_some hg) (fun he => hnone s ?_) a s c hc
      have hname : g.name = name := by simpa using List.find?_some hg
      rw [← he, hname]
      exact List.mem_cons_self

/-- Items that end before the position of the field leave what was there. -/
theorem get_of_items_of_absent (hf : Owns fields f d get) {items : List Source}
    (hnone : ∀ i : ℕ, fields[i]? = some f → items[i]? = none) {surplus : Bool} {a b : α}
    (h : recordItems surplus a fields items = .ok b) : get b = get a := by
  induction fields generalizing items a with
  | nil => cases hf.mem
  | cons g fields ih =>
    cases items with
    | nil =>
      unfold recordItems at h
      split_ifs at h
      cases h
      rfl
    | cons s items =>
      obtain ⟨c, hc, hrest⟩ := bind_eq_ok_iff.1 h
      -- the field is not the one at the front, which has an item
      have hne : g ≠ f := by
        rintro rfl
        cases hnone 0 rfl
      have hmem : f ∈ fields := (List.mem_cons.1 hf.mem).resolve_left hne.symm
      have hname : g.name ≠ f.name := fun he =>
        (List.nodup_cons.1 hf.nodup).1 (he ▸ List.mem_map_of_mem hmem)
      rw [ih (hf.tail hmem) (fun i hi => hnone (i + 1) hi) hrest]
      exact hf.keeps g List.mem_cons_self hname a s c hc

end Owns

/-- A record without a part for a field has there what it started with. -/
theorem get_of_record_of_absent {fields : List (Field α)} {f : Field α} {d : Decoder β} {get : α → β}
    (hf : Owns fields f d get) {surplus : Bool} {blank a : α} {source : Source}
    (hnone : ∀ part, ¬ Part fields f source part) (h : record surplus fields blank source = .ok a) :
    get a = get blank := by
  cases source with
  | object members => exact hf.get_of_members (fun s hs => hnone s (.member hs)) h
  | array items =>
    refine hf.get_of_items_of_absent (fun i hi => ?_) h
    by_contra hsome
    obtain ⟨s, hs⟩ := Option.ne_none_iff_exists'.1 hsome
    exact hnone s (.item i hi hs)
  | _ => cases h

/-! ### Fields by name and position -/

/-- The tree that a tree of a record has under a name, or at a position if the record is written as an
array. -/
inductive Under (name : String) (position : ℕ) : Source → Source → Prop where
  | member {members : List (Option String × Source)} {s : Source} (h : (some name, s) ∈ members) :
    Under name position (.object members) s
  | item {items : List Source} {s : Source} (h : items[position]? = some s) :
    Under name position (.array items) s

/-- The part of a field is the tree under its name, or at its position. -/
theorem part_iff_under {fields : List (Field α)} {position : ℕ} {f : Field α}
    (hf : fields[position]? = some f) (hnodup : (fields.map Field.name).Nodup) {source part : Source} :
    Part fields f source part ↔ Under f.name position source part := by
  constructor
  · rintro (hmember | ⟨i, hi, hitem⟩)
    · exact .member hmember
    · have hnames : (fields.map Field.name)[i]? = (fields.map Field.name)[position]? := by
        rw [List.getElem?_map, List.getElem?_map, hi, hf]
      have hlt : i < (fields.map Field.name).length := by
        rw [List.length_map]
        exact (List.getElem?_eq_some_iff.1 hi).1
      obtain rfl : i = position := (List.getElem?_inj hlt hnodup).1 hnames
      exact .item hitem
  · rintro (hmember | hitem)
    · exact .member hmember
    · exact .item position hf hitem

/-- A value is what `d` makes of the tree under a name, and the default if there is none. -/
structure Given (name : String) (position : ℕ) (d : Decoder β) (source : Source) (value default : β) :
    Prop where
  present : ∀ part, Under name position source part → d part = .ok value
  absent : (∀ part, ¬ Under name position source part) → value = default

/-- The value of a field that nothing but its own tree sets. -/
theorem given_of_record {fields : List (Field α)} {name : String} {position : ℕ} {f : Field α}
    {d : Decoder β} {get : α → β} (hf : fields[position]? = some f) (hname : f.name = name)
    (hnodup : (fields.map Field.name).Nodup)
    (hsets : ∀ a s b, f.read a s = .ok b → d s = .ok (get b))
    (hkeeps : ∀ g ∈ fields, g.name ≠ f.name → ∀ a s b, g.read a s = .ok b → get b = get a)
    {surplus : Bool} {blank a : α} {source : Source} (h : record surplus fields blank source = .ok a) :
    Given name position d source (get a) (get blank) := by
  subst hname
  have howns : Owns fields f d get := ⟨List.mem_of_getElem? hf, hnodup, hsets, hkeeps⟩
  have hunder : ∀ part, Part fields f source part ↔ Under f.name position source part := fun _ =>
    part_iff_under hf hnodup
  refine ⟨fun part hpart => get_of_record howns ((hunder part).2 hpart) h, fun hnone => ?_⟩
  exact get_of_record_of_absent howns (fun part hpart => hnone part ((hunder part).1 hpart)) h

end SeriesPivot.Json.Decode
