import SeriesPivot.Proofs.Json.Reading
import Mathlib.Data.List.Forall2

/-!
# The order of fields

A value that is read lists the fields of every object by increasing names. A writer may list them in
another order, and what it writes is read as the same value.

* `Ordered` says that all objects in a value list their fields by increasing names.
* `Source.ordered_toJson`: the value of a tree is ordered.
* `Decode.Makes d P` says that whatever a decoder makes of a tree satisfies `P`.
* `Reorders` relates values that differ in nothing but the order of fields, at any depth.
* `Reorders.toJson_eq`: whatever the order of its fields, an ordered value is read as it is.
-/

namespace SeriesPivot.Json

/-- A value with the fields of its objects by increasing names. -/
inductive Ordered : Json → Prop where
  | null : Ordered .null
  | bool (b : Bool) : Ordered (.bool b)
  | number (n : Number) : Ordered (.number n)
  | string (s : String) : Ordered (.string s)
  | array {items : List Json} (h : ∀ j ∈ items, Ordered j) : Ordered (.array items)
  | object {fields : List (String × Json)} (hs : Assoc.Sorted fields)
    (h : ∀ field ∈ fields, Ordered field.2) : Ordered (.object fields)

namespace Source

mutual

/-- The value of a tree is ordered. -/
theorem ordered_toJson : (s : Source) → ∀ {j : Json}, s.toJson = .ok j → j.Ordered
  | .null, _, h => by
    cases h
    exact .null
  | .bool b, _, h => by
    cases h
    exact .bool b
  | .number none, _, h => by cases h
  | .number (some n), _, h => by
    cases h
    exact .number n
  | .string none, _, h => by cases h
  | .string (some s), _, h => by
    cases h
    exact .string s
  | .array sources, _, h => by
    obtain ⟨items, hitems, h⟩ := bind_eq_ok_iff.1 h
    cases h
    exact .array (ordered_toItems sources hitems)
  | .object members, _, h => by
    obtain ⟨fields, hfields, h⟩ := bind_eq_ok_iff.1 h
    cases h
    exact .object (Assoc.sorted_ofList fields)
      fun field hf => ordered_toFields members hfields field (Assoc.mem_ofList hf)
  | .tooDeep _, _, h => by cases h
  | .broken, _, h => by cases h

theorem ordered_toItems : (sources : List Source) → ∀ {items : List Json},
    toItems sources = .ok items → ∀ j ∈ items, j.Ordered
  | [], _, h => by
    cases h
    simp
  | s :: sources, _, h => by
    obtain ⟨j, hj, h⟩ := bind_eq_ok_iff.1 h
    obtain ⟨items, hitems, h⟩ := bind_eq_ok_iff.1 h
    cases h
    exact List.forall_mem_cons.2 ⟨ordered_toJson s hj, ordered_toItems sources hitems⟩

theorem ordered_toFields : (members : List (Option String × Source)) →
    ∀ {fields : List (String × Json)}, toFields members = .ok fields →
      ∀ field ∈ fields, field.2.Ordered
  | [], _, h => by
    cases h
    simp
  | (none, _) :: _, _, h => by cases h
  | (some _, s) :: members, _, h => by
    obtain ⟨j, hj, h⟩ := bind_eq_ok_iff.1 h
    obtain ⟨fields, hfields, h⟩ := bind_eq_ok_iff.1 h
    cases h
    exact List.forall_mem_cons.2 ⟨ordered_toJson s hj, ordered_toFields members hfields⟩

end

theorem eq_null_of_toJson {s : Source} (h : s.toJson = .ok .null) : s = .null := by
  cases s with
  | null => rfl
  | number n => cases n <;> cases h
  | string s => cases s <;> cases h
  | array sources =>
    obtain ⟨items, -, h⟩ := bind_eq_ok_iff.1 h
    cases h
  | object members =>
    obtain ⟨fields, -, h⟩ := bind_eq_ok_iff.1 h
    cases h
  | _ => cases h

end Source

/-- A value as it is read, where `null` is no value. -/
structure Present (j : Json) : Prop where
  ordered : j.Ordered
  ne_null : j ≠ .null

namespace Decode

/-- What a decoder makes of any tree satisfies `P`. -/
abbrev Makes {α : Type} (d : Decoder α) (P : α → Prop) : Prop :=
  KeepsOn (fun _ => True) d P

theorem hereditary_true : Hereditary fun _ => True where
  items _ _ _ := trivial
  members _ _ _ := trivial

theorem makes_true {α : Type} (d : Decoder α) : Makes d fun _ => True :=
  fun _ _ _ _ => trivial

theorem makes_natBelow (bound : ℕ) : Makes (natBelow bound) (· < bound) := by
  intro s _ n h
  unfold natBelow at h
  split at h
  · split_ifs at h with hrange
    cases h
    omega
  · cases h

theorem makes_json : Makes json Ordered :=
  fun s _ _ h => Source.ordered_toJson s h

theorem makes_dictionary : Makes (dictionary json) fun m => (Json.object m).Ordered :=
  fun s _ _ h => Source.ordered_toJson s (dictionary_json_eq_ok_iff.1 h)

theorem makes_optional_json : Makes (optional json) fun o => ∀ j ∈ o, j.Present := by
  intro s _ o h
  unfold Decode.optional at h
  split at h
  · cases h
    simp
  · rename_i hs
    obtain ⟨j, hj, rfl⟩ := map_eq_ok_iff.1 h
    rintro _ ⟨⟩
    refine ⟨Source.ordered_toJson s hj, ?_⟩
    rintro rfl
    exact hs (Source.eq_null_of_toJson hj)

end Decode

/-! ### Other orders -/

mutual

/-- The first value is the second with the fields of its objects in some other order. -/
inductive Reorders : Json → Json → Prop where
  | null : Reorders .null .null
  | bool (b : Bool) : Reorders (.bool b) (.bool b)
  | number (n : Number) : Reorders (.number n) (.number n)
  | string (s : String) : Reorders (.string s) (.string s)
  | array {items' items : List Json} (h : List.Forall₂ Reorders items' items) :
    Reorders (.array items') (.array items)
  | object {fields' moved fields : List (String × Json)} (h : List.Forall₂ ReordersField fields' moved)
    (hmoved : moved.Perm fields) : Reorders (.object fields') (.object fields)

/-- The same for the value of a field. -/
inductive ReordersField : String × Json → String × Json → Prop where
  | intro (name : String) {j' j : Json} (h : Reorders j' j) : ReordersField (name, j') (name, j)

end

/-- A relation on the items of two lists may use that the second item is in its list. -/
theorem forall₂_imp_of_mem {α β : Type} {R T : α → β → Prop} {l : List α} {m : List β}
    (h : List.Forall₂ R l m) (hRT : ∀ b ∈ m, ∀ a, R a b → T a b) : List.Forall₂ T l m := by
  induction h with
  | nil => exact .nil
  | cons hab _ ih =>
    rw [List.forall_mem_cons] at hRT
    exact .cons (hRT.1 _ hab) (ih hRT.2)

theorem exists_mem_of_forall₂ {α β : Type} {R : α → β → Prop} {l : List α} {m : List β}
    (h : List.Forall₂ R l m) {a : α} (ha : a ∈ l) : ∃ b ∈ m, R a b := by
  induction h with
  | nil => cases ha
  | cons hab _ ih =>
    rcases List.mem_cons.1 ha with rfl | ha
    · exact ⟨_, List.mem_cons_self, hab⟩
    · obtain ⟨b, hb, hab⟩ := ih ha
      exact ⟨b, List.mem_cons_of_mem _ hb, hab⟩

theorem Reorders.refl (j : Json) : j.Reorders j := by
  induction j using Json.induct with
  | null => exact .null
  | bool b => exact .bool b
  | number n => exact .number n
  | string s => exact .string s
  | array items ih => exact .array (List.forall₂_same.2 ih)
  | object fields ih =>
    exact .object (List.forall₂_same.2 fun field hf => .intro field.1 (ih field hf)) (.refl _)

theorem ReordersField.name_eq {field' field : String × Json} (h : ReordersField field' field) :
    field'.1 = field.1 := by
  cases h
  rfl

section Fields

variable {fields' moved fields : List (String × Json)}

theorem perm_names (h : List.Forall₂ ReordersField fields' moved) (hmoved : moved.Perm fields) :
    (fields'.map Prod.fst).Perm (fields.map Prod.fst) := by
  have hnames : fields'.map Prod.fst = moved.map Prod.fst := by
    clear hmoved
    induction h with
    | nil => rfl
    | cons hfield _ ih => rw [List.map_cons, List.map_cons, hfield.name_eq, ih]
  rw [hnames]
  exact hmoved.map _

/-- A field that is written is one of those that were to be written. -/
theorem exists_reordered (h : List.Forall₂ ReordersField fields' moved) (hmoved : moved.Perm fields)
    {field' : String × Json} (hf : field' ∈ fields') : ∃ field ∈ fields, ReordersField field' field := by
  obtain ⟨field, hfield, hr⟩ := exists_mem_of_forall₂ h hf
  exact ⟨field, hmoved.mem_iff.1 hfield, hr⟩

/-- A field that was to be written is written. -/
theorem exists_reordering (h : List.Forall₂ ReordersField fields' moved) (hmoved : moved.Perm fields)
    {field : String × Json} (hf : field ∈ fields) : ∃ field' ∈ fields', ReordersField field' field :=
  exists_mem_of_forall₂ h.flip (hmoved.mem_iff.2 hf)

end Fields

/-! ### Trees of values -/

theorem Source.ofFields_eq_map (fields : List (String × Json)) :
    Source.ofFields fields = fields.map fun field => (some field.1, Source.ofJson field.2) := by
  induction fields with
  | nil => rfl
  | cons field fields ih => rw [Source.ofFields, ih, List.map_cons]

namespace Decode

variable {α : Type} {d : Decoder α}

theorem items_ofItems {items : List Json} {as : List α}
    (h : List.Forall₂ (fun j a => d (Source.ofJson j) = .ok a) items as) :
    Decode.items d (Source.ofItems items) = .ok as := by
  induction h with
  | nil => rfl
  | cons ha _ ih =>
    rw [Source.ofItems, Decode.items, ha, ih]
    rfl

theorem entries_ofFields {fields : List (String × Json)} {entries : List (String × α)}
    (h : List.Forall₂ (fun field entry => field.1 = entry.1 ∧ d (Source.ofJson field.2) = .ok entry.2)
      fields entries) : Decode.entries d (Source.ofFields fields) = .ok entries := by
  induction h with
  | nil => rfl
  | cons ha _ ih =>
    rw [Source.ofFields, Decode.entries, ha.2, ih, ha.1]
    rfl

end Decode

/-- The tree of a value has a value again. -/
theorem Source.exists_toJson_ofJson (j : Json) : ∃ v, (Source.ofJson j).toJson = .ok v := by
  induction j using Json.induct with
  | null => exact ⟨_, rfl⟩
  | bool b => exact ⟨_, rfl⟩
  | number n => exact ⟨_, rfl⟩
  | string s => exact ⟨_, rfl⟩
  | array items ih =>
    choose! value hvalue using ih
    have hitems : Source.toItems (Source.ofItems items) = .ok (items.map value) := by
      rw [Source.toItems_eq]
      exact Decode.items_ofItems (List.forall₂_map_right_iff.2 (List.forall₂_same.2 hvalue))
    rw [Source.ofJson, Source.toJson, hitems]
    exact ⟨_, rfl⟩
  | object fields ih =>
    choose! value hvalue using ih
    have hfields : Source.toFields (Source.ofFields fields) =
        .ok (fields.map fun field => (field.1, value field)) := by
      rw [Source.toFields_eq]
      exact Decode.entries_ofFields
        (List.forall₂_map_right_iff.2 (List.forall₂_same.2 fun field hf => ⟨rfl, hvalue field hf⟩))
    rw [Source.ofJson, Source.toJson, hfields]
    exact ⟨_, rfl⟩

/-- Whatever the order of its fields, an ordered value is read as it is. -/
theorem Reorders.toJson_eq {j' j : Json} (h : j'.Reorders j) (hj : j.Ordered) :
    (Source.ofJson j').toJson = .ok j := by
  induction hj generalizing j' with
  | null => cases h; rfl
  | bool b => cases h; rfl
  | number n => cases h; rfl
  | string s => cases h; rfl
  | array _ ih =>
    cases h with
    | array h =>
      rw [Source.ofJson, Source.toJson, Source.toItems_eq,
        Decode.items_ofItems (forall₂_imp_of_mem h fun j hj j' hr => ih j hj hr)]
      rfl
  | object hs _ ih =>
    cases h with
    | @object fields' moved _ h hmoved =>
      have hread := Decode.entries_ofFields (forall₂_imp_of_mem h fun field hf field' hr =>
        ⟨hr.name_eq, by
          cases hr with
          | intro name hr => exact ih _ (hmoved.mem_iff.1 hf) hr⟩)
      have hnames := (hmoved.map Prod.fst).nodup_iff.2 (Assoc.nodup_keys hs)
      rw [Source.ofJson, Source.toJson, Source.toFields_eq, hread]
      change Except.ok (Json.object (Assoc.ofList moved)) = _
      rw [Assoc.ofList_eq_of_perm hmoved hnames, Assoc.ofList_eq_self hs]

end SeriesPivot.Json
