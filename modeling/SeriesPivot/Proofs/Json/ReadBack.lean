import SeriesPivot.Proofs.Json.Ordered

/-!
# Decoders read what is written

`Decode.Reads d j a` says that a decoder reads `a` from the value `j`, in whatever order a writer lists
the fields of its objects. For each decoder there is a law on the values that it reads.

A record is read field by field in an order that the writer chooses. What has been read of it is then the
record with its fields of the names that were met, and blank in all others, whatever their order.

* `Slot` says that a field of a record is written with a value, or left out, and read again.
* `Reads.record`: a record that is written slot by slot is read again.
-/

namespace SeriesPivot.Json.Decode

variable {α β : Type}

/-- A decoder reads `a` from `j`, in whatever order the fields of its objects are. -/
def Reads (d : Decoder α) (j : Json) (a : α) : Prop :=
  ∀ j' : Json, j'.Reorders j → d (Source.ofJson j') = .ok a

variable {d : Decoder α} {j : Json} {a : α}

theorem reads_string (s : String) : Reads string (.string s) s := by
  intro j' h
  cases h
  rfl

theorem reads_natBelow {n bound : ℕ} (hn : n < bound) : Reads (natBelow bound) (.ofInt n) n := by
  intro j' h
  cases h
  have hrange : (0 : ℤ) ≤ n ∧ (n : ℤ) < bound := by omega
  rw [Source.ofJson, natBelow, if_pos hrange, Int.toNat_natCast]

theorem reads_variant {token : String → Option α} {s : String} (h : token s = some a) :
    Reads (variant token) (.string s) a := by
  intro j' hj
  cases hj
  rw [Source.ofJson, variant, h]

theorem reads_json (hj : j.Ordered) : Reads json j j :=
  fun _ h => h.toJson_eq hj

theorem reads_dictionary {fields : List (String × Json)} (hfields : (Json.object fields).Ordered) :
    Reads (dictionary json) (.object fields) fields :=
  fun _ h => dictionary_json_eq_ok_iff.2 (h.toJson_eq hfields)

theorem Reads.map (hd : Reads d j a) {f : α → β} {b : β} (hb : f a = b) :
    Reads (fun s => do return f (← d s)) j b := by
  intro j' h
  change d (Source.ofJson j') >>= _ = _
  rw [hd j' h, ← hb]
  rfl

theorem Reads.optional (hd : Reads d j a) (hj : j ≠ .null) : Reads (optional d) j (some a) := by
  intro j' h
  have hread := hd j' h
  cases h with
  | null => exact absurd rfl hj
  | _ => exact congrArg (Except.map some) hread

theorem reads_optional_null (d : Decoder α) : Reads (optional d) .null none := by
  intro j' h
  cases h
  rfl

/-- A value that is written only if there is one. -/
theorem reads_optional (write : α → Json) (hnull : ∀ a, write a ≠ .null) {o : Option α}
    (hd : ∀ a ∈ o, Reads d (write a) a) : ∀ j ∈ o.map write, Reads (Decode.optional d) j o := by
  intro j hj
  obtain ⟨a, rfl, rfl⟩ := Option.map_eq_some_iff.1 hj
  exact (hd a rfl).optional (hnull a)

theorem reads_optional_string {o : Option String} :
    ∀ j ∈ o.map Json.string, Reads (Decode.optional string) j o :=
  reads_optional .string (by simp) fun s _ => reads_string s

theorem reads_optional_json {o : Option Json} (ho : ∀ j ∈ o, j.Present) :
    ∀ j ∈ o, Reads (Decode.optional json) j o := by
  rintro j rfl
  exact (reads_json (ho j rfl).ordered).optional (ho j rfl).ne_null

/-- The same for a value that is written as `null` if there is none. -/
theorem reads_optional_getD {o : Option Json} (ho : ∀ j ∈ o, j.Present) :
    Reads (Decode.optional json) (o.getD .null) o := by
  cases o with
  | none => exact reads_optional_null json
  | some j => exact reads_optional_json ho j rfl

theorem Reads.listOf {write : α → Json} {as : List α} (hd : ∀ a ∈ as, Reads d (write a) a) :
    Reads (listOf d) (.array (as.map write)) as := by
  intro j' h
  cases h with
  | array h =>
    exact items_ofItems
      (forall₂_imp_of_mem (List.forall₂_map_right_iff.1 h) fun a ha j' hr => hd a ha j' hr)

/-! ### Records -/

/-- The fields of an object, of those that have a value. -/
def present (slots : List (String × Option Json)) : List (String × Json) :=
  slots.filterMap fun slot => slot.2.map (slot.1, ·)

@[simp] theorem present_nil : present [] = [] := rfl

@[simp] theorem present_cons_some (name : String) (j : Json) (slots : List (String × Option Json)) :
    present ((name, some j) :: slots) = (name, j) :: present slots := rfl

@[simp] theorem present_cons_none (name : String) (slots : List (String × Option Json)) :
    present ((name, none) :: slots) = present slots := rfl

theorem mem_present {name : String} {j : Json} {slots : List (String × Option Json)} :
    (name, j) ∈ present slots ↔ (name, some j) ∈ slots := by
  induction slots with
  | nil => simp
  | cons slot slots ih =>
    obtain ⟨n, _ | v⟩ := slot <;> simp [ih]

theorem mem_names_present {name : String} {slots : List (String × Option Json)} :
    name ∈ (present slots).map Prod.fst ↔ ∃ j, (name, some j) ∈ slots := by
  simp [mem_present]

theorem sublist_names_present (slots : List (String × Option Json)) :
    ((present slots).map Prod.fst).Sublist (slots.map Prod.fst) := by
  induction slots with
  | nil => exact .slnil
  | cons slot slots ih =>
    obtain ⟨n, _ | v⟩ := slot
    · exact .cons _ ih
    · exact .cons_cons _ ih

/-- A field is written under its name with a value, which it must have if it is required, and reading that
value adds the field to the record of the fields that were read before. `only names` is the record with
its fields of these names. -/
structure Slot (only : List String → α) (f : Field α) (slot : String × Option Json) : Prop where
  name : f.name = slot.1
  required : f.required = true → slot.2.isSome
  reads : ∀ j ∈ slot.2, ∀ names, Reads (f.read (only names)) j (only (slot.1 :: names))

theorem Slot.written {only : List String → α} {f : Field α} {name : String} {j : Json}
    (hname : f.name = name)
    (hj : ∀ names, Reads (f.read (only names)) j (only (name :: names))) : Slot only f (name, some j) where
  name := hname
  required _ := rfl
  reads := by
    rintro _ ⟨⟩
    exact hj

theorem Slot.optional {only : List String → α} {f : Field α} {name : String} {value : Option Json}
    (hname : f.name = name) (hrequired : f.required = false)
    (hj : ∀ j ∈ value, ∀ names, Reads (f.read (only names)) j (only (name :: names))) :
    Slot only f (name, value) where
  name := hname
  required h := absurd (hrequired.symm.trans h) nofun
  reads := hj

/-- A field that is kept only if its name was met is the field, if its name is met whenever it has a
value. -/
theorem ite_none_eq_self {o : Option α} {p : Prop} [Decidable p] (h : o.isSome → p) :
    (if p then o else none) = o := by
  split_ifs with hp
  · rfl
  · cases o with
    | none => rfl
    | some a => exact absurd (h rfl) hp

theorem ite_nil_eq_self {l : List α} {p : Prop} [Decidable p] (h : l ≠ [] → p) :
    (if p then l else []) = l := by
  split_ifs with hp
  · rfl
  · exact (not_not.1 (mt h hp)).symm

section Record

variable {only : List String → α} {fields : List (Field α)}

/-- The field that a written name belongs to. -/
theorem exists_find?_of_slots {slots : List (String × Option Json)}
    (h : List.Forall₂ (Slot only) fields slots) (hnames : (slots.map Prod.fst).Nodup) {name : String}
    {j : Json} (hj : (name, some j) ∈ slots) :
    ∃ f, fields.find? (fun f => f.name == name) = some f ∧
      ∀ names, Reads (f.read (only names)) j (only (name :: names)) := by
  induction h with
  | nil => cases hj
  | @cons f slot _ _ hf _ ih =>
    rw [List.map_cons, List.nodup_cons] at hnames
    rcases List.mem_cons.1 hj with rfl | hj
    · exact ⟨f, List.find?_cons_of_pos (beq_iff_eq.2 hf.name), hf.reads j rfl⟩
    · have hne : f.name ≠ name := by
        rw [hf.name]
        rintro rfl
        exact hnames.1 (List.mem_map.2 ⟨_, hj, rfl⟩)
      rw [List.find?_cons_of_neg (by simpa using hne)]
      exact ih hnames.2 hj

/-- Members that are read one after another add their names to those of the record. -/
theorem recordMembers_ofFields {written : List (String × Json)} {seen : List String}
    (hread : ∀ field ∈ written, ∃ f, fields.find? (fun f => f.name == field.1) = some f ∧
      ∀ names, f.read (only names) (Source.ofJson field.2) = .ok (only (field.1 :: names)))
    (hnames : ((written.map Prod.fst).reverse ++ seen).Nodup) :
    recordMembers fields seen (only seen) (Source.ofFields written) =
      recordMembers fields ((written.map Prod.fst).reverse ++ seen)
        (only ((written.map Prod.fst).reverse ++ seen)) [] := by
  induction written generalizing seen with
  | nil => rfl
  | cons field written ih =>
    rw [List.forall_mem_cons] at hread
    obtain ⟨⟨f, hf, hstep⟩, hread⟩ := hread
    rw [List.map_cons, List.reverse_cons, List.append_assoc, List.singleton_append] at hnames ⊢
    have hseen : field.1 ∉ seen := (List.nodup_cons.1 hnames.of_append_right).1
    rw [Source.ofFields, ← ih hread hnames]
    conv_lhs => rw [recordMembers]
    simp only [hf, List.contains_iff_mem, hseen, if_false, hstep]
    rfl

/-- A record that is written slot by slot is read again. -/
theorem Reads.record (only : List String → α) {surplus : Bool} {blank a : α}
    {slots : List (String × Option Json)} (hslots : List.Forall₂ (Slot only) fields slots)
    (hnames : (slots.map Prod.fst).Nodup) (hblank : only [] = blank)
    (hall : ∀ names, (∀ slot ∈ slots, slot.2.isSome → slot.1 ∈ names) → only names = a) :
    Reads (record surplus fields blank) (.object (present slots)) a := by
  intro j' h
  cases h with
  | @object written moved _ h hmoved =>
    -- in any order, the names that have been seen at the end are those of the slots with a value
    have hperm := perm_names h hmoved
    have hnodup : (written.map Prod.fst).Nodup :=
      hperm.nodup_iff.2 (hnames.sublist (sublist_names_present slots))
    have hmem : ∀ slot ∈ slots, slot.2.isSome → slot.1 ∈ (written.map Prod.fst).reverse ++ [] := by
      intro slot hs hj
      obtain ⟨j, hj⟩ := Option.isSome_iff_exists.1 hj
      rw [List.append_nil, List.mem_reverse, hperm.mem_iff, mem_names_present]
      exact ⟨j, hj ▸ hs⟩
    have hrequired : (fields.all fun f =>
        !f.required || ((written.map Prod.fst).reverse ++ []).contains f.name) = true := by
      rw [List.all_eq_true]
      intro f hf
      obtain ⟨slot, hs, hslot⟩ := exists_mem_of_forall₂ hslots hf
      cases hr : f.required
      · rfl
      · simpa [hslot.name] using hmem slot hs (hslot.required hr)
    rw [Source.ofJson, Decode.record, ← hblank, recordMembers_ofFields _ (by simpa using hnodup),
      recordMembers, if_pos hrequired, hall _ hmem]
    intro field' hf
    obtain ⟨field, hfield, hr⟩ := exists_reordered h hmoved hf
    obtain ⟨f, hfind, hreads⟩ := exists_find?_of_slots hslots hnames (mem_present.1 hfield)
    cases hr with
    | intro name hr => exact ⟨f, hfind, fun names => hreads names _ hr⟩

end Record

end SeriesPivot.Json.Decode
