import SeriesPivot.Json.Decode
import SeriesPivot.Proofs.Assoc
import SeriesPivot.Proofs.Binary64.Arithmetic
import SeriesPivot.Proofs.Json.Canonical

/-!
# Values that are read are canonical

A text may write a number in many ways, but it is read as the integer or the double that it is kept as.

* `Source.Canonical` says that all doubles in a tree are canonical.
* `Source.canonical_read`: the tree of a text is canonical.
* `Source.canonical_toJson`: so is the value of a canonical tree.
* `canonical_of_parse?`: so is a value that a text is parsed as.
* `Decode.KeepsOn S d P` says that what a decoder makes of trees in `S` satisfies `P`, and `Decode.Keeps d P`
  says this of canonical trees.
-/

namespace SeriesPivot

/-! ### Outcomes -/

section Outcomes

variable {ε α β : Type}

theorem bind_eq_ok_iff {x : Except ε α} {f : α → Except ε β} {b : β} :
    x >>= f = .ok b ↔ ∃ a, x = .ok a ∧ f a = .ok b := by
  cases x <;> simp [bind, Except.bind]

theorem map_eq_ok_iff {x : Except ε α} {f : α → β} {b : β} :
    x.map f = .ok b ↔ ∃ a, x = .ok a ∧ f a = b := by
  cases x <;> simp [Except.map]

theorem toOption_eq_some_iff {x : Except ε α} {a : α} : x.toOption = some a ↔ x = .ok a := by
  cases x <;> simp [Except.toOption]

end Outcomes

namespace Json

namespace Decode

/-! ### Lists and dictionaries -/

variable {α : Type} {d : Decoder α} {P : α → Prop}

theorem forall_mem_of_items {sources : List Source} (h : ∀ s ∈ sources, ∀ a, d s = .ok a → P a)
    {as : List α} (has : items d sources = .ok as) : ∀ a ∈ as, P a := by
  induction sources generalizing as with
  | nil =>
    cases has
    simp
  | cons s sources ih =>
    rw [List.forall_mem_cons] at h
    obtain ⟨a, ha, has⟩ := bind_eq_ok_iff.1 has
    obtain ⟨rest, hrest, has⟩ := bind_eq_ok_iff.1 has
    cases has
    exact List.forall_mem_cons.2 ⟨h.1 a ha, ih h.2 hrest⟩

theorem forall_mem_of_entries {members : List (Option String × Source)}
    (h : ∀ m ∈ members, ∀ a, d m.2 = .ok a → P a) {m : List (String × α)}
    (hm : entries d members = .ok m) : ∀ entry ∈ m, P entry.2 := by
  induction members generalizing m with
  | nil =>
    cases hm
    simp
  | cons member members ih =>
    obtain ⟨name | name, s⟩ := member
    · cases hm
    · rw [List.forall_mem_cons] at h
      obtain ⟨a, ha, hm⟩ := bind_eq_ok_iff.1 hm
      obtain ⟨rest, hrest, hm⟩ := bind_eq_ok_iff.1 hm
      cases hm
      exact List.forall_mem_cons.2 ⟨h.1 a ha, ih h.2 hrest⟩

end Decode

namespace Source

/-- A tree all of whose numbers are kept as numbers are. -/
inductive Canonical : Source → Prop where
  | null : Canonical .null
  | bool (b : Bool) : Canonical (.bool b)
  | number {n : Option Number} (h : ∀ m ∈ n, m.Canonical) : Canonical (.number n)
  | string (s : Option String) : Canonical (.string s)
  | array {items : List Source} (h : ∀ s ∈ items, Canonical s) : Canonical (.array items)
  | object {members : List (Option String × Source)} (h : ∀ m ∈ members, Canonical m.2) :
    Canonical (.object members)
  | tooDeep (intact : Bool) : Canonical (.tooDeep intact)
  | broken : Canonical .broken

/-! ### Numbers -/

theorem canonical_map_float {x : Option Binary64} (h : ∀ y ∈ x, y.Canonical) :
    ∀ n ∈ x.map Number.float, n.Canonical := by
  intro n hn
  obtain ⟨y, hy, rfl⟩ := Option.map_eq_some_iff.1 hn
  exact h y hy

theorem canonical_numberValue (negative : Bool) (whole : List ℕ) (fraction : Option (List ℕ))
    (exponent : Option (Bool × List ℕ)) :
    ∀ n ∈ numberValue negative whole fraction exponent, n.Canonical := by
  have hdecimal (significand : ℕ) (scale : ℤ) :
      ∀ n ∈ (Binary64.ofDecimal negative significand scale).map Number.float, n.Canonical :=
    canonical_map_float fun _ => Binary64.canonical_ofDecimal
  unfold numberValue
  rcases absorb 0 whole with ⟨first, dropped⟩
  dsimp only
  split
  · split_ifs
    · rintro n ⟨⟩
      exact trivial
    · exact canonical_map_float fun _ => Binary64.canonical_ofRatio
    · rintro n ⟨⟩
      exact trivial
    · exact hdecimal _ _
  · rcases absorb first (fraction.getD []) with ⟨significand, unused⟩
    cases exponent with
    | none => exact hdecimal _ _
    | some e =>
      dsimp only
      split_ifs
      · rintro n ⟨⟩
      · rintro n ⟨⟩
        exact Binary64.canonical_mk_zero negative
      · exact hdecimal _ _
      · exact hdecimal _ _

theorem canonical_readNumber {cs rest : List Char} {n : Option Number}
    (h : readNumber cs = some (n, rest)) : ∀ m ∈ n, m.Canonical := by
  -- however a number is written, its value is made in one place
  have hvalue : ∃ negative whole fraction exponent,
      n = numberValue negative whole fraction exponent := by
    unfold readNumber at h
    grind
  obtain ⟨negative, whole, fraction, exponent, rfl⟩ := hvalue
  exact canonical_numberValue negative whole fraction exponent

/-! ### Trees of texts -/

theorem canonical_contain {source : Source} (h : source.Canonical) (level : ℕ)
    (rest : Option (List Char)) : (contain level source rest).1.Canonical := by
  unfold contain
  dsimp only
  split_ifs
  · exact h
  · exact .tooDeep _

section Step

variable {fuel : ℕ}

theorem canonical_readValue_succ (hitems : ∀ level cs, ∀ s ∈ (readItems level fuel cs).1, s.Canonical)
    (hmembers : ∀ level cs, ∀ m ∈ (readMembers level fuel cs).1, m.2.Canonical) (level : ℕ)
    (cs : List Char) : (readValue level (fuel + 1) cs).1.Canonical := by
  unfold readValue
  split
  · split
    · exact .string _
    · exact .broken
  · split
    · exact canonical_contain (.array (by simp)) _ _
    · exact canonical_contain (.array (hitems _ _)) _ _
  · split
    · exact canonical_contain (.object (by simp)) _ _
    · exact canonical_contain (.object (hmembers _ _)) _ _
  · exact .null
  · exact .bool true
  · exact .bool false
  · split
    · exact .number (canonical_readNumber ‹_›)
    · exact .broken

theorem canonical_readItems_succ (hvalue : ∀ level cs, (readValue level fuel cs).1.Canonical)
    (hitems : ∀ level cs, ∀ s ∈ (readItems level fuel cs).1, s.Canonical) (level : ℕ)
    (cs : List Char) : ∀ s ∈ (readItems level (fuel + 1) cs).1, s.Canonical := by
  have hitem := hvalue level cs
  unfold readItems
  split <;> rename_i heq <;> rw [heq] at hitem
  · simpa using hitem
  · split
    · simpa using hitem
    · exact List.forall_mem_cons.2 ⟨hitem, hitems _ _⟩
    · simpa using ⟨hitem, .broken⟩

theorem canonical_readMembers_succ (hvalue : ∀ level cs, (readValue level fuel cs).1.Canonical)
    (hmembers : ∀ level cs, ∀ m ∈ (readMembers level fuel cs).1, m.2.Canonical) (level : ℕ)
    (cs : List Char) : ∀ m ∈ (readMembers level (fuel + 1) cs).1, m.2.Canonical := by
  unfold readMembers
  split
  · split
    · simpa using .broken
    · split
      · rename_i rest _
        have hmember := hvalue level rest
        split <;> rename_i heq <;> rw [heq] at hmember
        · simpa using hmember
        · split
          · simpa using hmember
          · exact List.forall_mem_cons.2 ⟨hmember, hmembers _ _⟩
          · simpa using ⟨hmember, .broken⟩
      · simpa using .broken
  · simpa using .broken

end Step

/-- Whatever the fuel, what is read is canonical: values, items of arrays and members of objects. -/
theorem canonical_readWith (fuel : ℕ) :
    (∀ level cs, (readValue level fuel cs).1.Canonical) ∧
    (∀ level cs, ∀ s ∈ (readItems level fuel cs).1, s.Canonical) ∧
    ∀ level cs, ∀ m ∈ (readMembers level fuel cs).1, m.2.Canonical := by
  induction fuel with
  | zero =>
    refine ⟨fun _ _ => .broken, fun _ _ => ?_, fun _ _ => ?_⟩
    · simpa [readItems] using .broken
    · simpa [readMembers] using .broken
  | succ fuel ih =>
    obtain ⟨hvalue, hitems, hmembers⟩ := ih
    exact ⟨canonical_readValue_succ hitems hmembers, canonical_readItems_succ hvalue hitems,
      canonical_readMembers_succ hvalue hmembers⟩

theorem canonical_readFront (text : String) : (readFront text).1.Canonical :=
  (canonical_readWith _).1 _ _

/-- The tree of a text is canonical. -/
theorem canonical_read (text : String) : (read text).1.Canonical := by
  have hfront := canonical_readFront text
  unfold read
  split <;> rename_i heq <;> rw [heq] at hfront <;> exact hfront

/-! ### Values of trees -/

theorem toItems_eq (sources : List Source) : toItems sources = Decode.items toJson sources := by
  induction sources with
  | nil => rfl
  | cons s sources ih => rw [toItems, Decode.items, ih]

theorem toFields_eq (members : List (Option String × Source)) :
    toFields members = Decode.entries toJson members := by
  induction members with
  | nil => rfl
  | cons m members ih =>
    obtain ⟨name | name, s⟩ := m
    · rfl
    · rw [toFields, Decode.entries, ih]

/-- The value of a canonical tree is canonical. -/
theorem canonical_toJson {s : Source} (hs : s.Canonical) {j : Json} (h : s.toJson = .ok j) :
    j.Canonical := by
  induction hs generalizing j with
  | null =>
    cases h
    exact .null
  | bool b =>
    cases h
    exact .bool b
  | @number n hn =>
    cases n with
    | none => cases h
    | some m =>
      cases h
      exact .number (hn m rfl)
  | string s =>
    cases s <;> cases h
    exact .string _
  | array _ ih =>
    obtain ⟨js, hjs, h⟩ := bind_eq_ok_iff.1 h
    cases h
    rw [toItems_eq] at hjs
    exact .array (Decode.forall_mem_of_items (fun s hs j => ih s hs) hjs)
  | object _ ih =>
    obtain ⟨fields, hfields, h⟩ := bind_eq_ok_iff.1 h
    cases h
    rw [toFields_eq] at hfields
    have hall := Decode.forall_mem_of_entries (fun m hm j => ih m hm) hfields
    exact .object fun field hfield => hall field (Assoc.mem_ofList hfield)
  | tooDeep _ => cases h
  | broken => cases h

end Source

namespace Decode

/-! ### Decoders -/

variable {α β : Type} {d : Decoder α} {P : α → Prop} {S : Source → Prop}

/-- What is said of a tree is said of its parts. -/
structure Hereditary (S : Source → Prop) : Prop where
  items {items : List Source} : S (.array items) → ∀ s ∈ items, S s
  members {members : List (Option String × Source)} : S (.object members) → ∀ m ∈ members, S m.2

theorem hereditary_canonical : Hereditary Source.Canonical where
  items h := by
    cases h
    assumption
  members h := by
    cases h
    assumption

/-- What a decoder makes of trees in `S` satisfies `P`. -/
def KeepsOn (S : Source → Prop) (d : Decoder α) (P : α → Prop) : Prop :=
  ∀ s : Source, S s → ∀ a, d s = .ok a → P a

/-- What a decoder makes of canonical trees satisfies `P`. -/
def Keeps (d : Decoder α) (P : α → Prop) : Prop :=
  ∀ s : Source, s.Canonical → ∀ a, d s = .ok a → P a

theorem keeps_json : Keeps json Canonical :=
  fun _ hs _ h => Source.canonical_toJson hs h

theorem keeps_true (d : Decoder α) : Keeps d fun _ => True :=
  fun _ _ _ _ => trivial

theorem KeepsOn.map (hd : KeepsOn S d P) {f : α → β} {Q : β → Prop} (hf : ∀ a, P a → Q (f a)) :
    KeepsOn S (fun s => do return f (← d s)) Q := by
  intro s hs b h
  obtain ⟨a, ha, h⟩ := bind_eq_ok_iff.1 h
  cases h
  exact hf a (hd s hs a ha)

theorem Keeps.map (hd : Keeps d P) {f : α → β} {Q : β → Prop} (hf : ∀ a, P a → Q (f a)) :
    Keeps (fun s => do return f (← d s)) Q :=
  KeepsOn.map hd hf

theorem KeepsOn.optional (hd : KeepsOn S d P) : KeepsOn S (optional d) fun o => ∀ a ∈ o, P a := by
  intro s hs o h
  unfold Decode.optional at h
  split at h
  · cases h
    simp
  · obtain ⟨a, ha, rfl⟩ := map_eq_ok_iff.1 h
    simpa using hd s hs a ha

theorem KeepsOn.listOf (hS : Hereditary S) (hd : KeepsOn S d P) :
    KeepsOn S (listOf d) fun as => ∀ a ∈ as, P a := by
  intro s hs as h
  cases s with
  | array sources => exact forall_mem_of_items (fun s hm => hd s (hS.items hs s hm)) h
  | _ => cases h

theorem Keeps.listOf (hd : Keeps d P) : Keeps (listOf d) fun as => ∀ a ∈ as, P a :=
  KeepsOn.listOf hereditary_canonical hd

theorem Keeps.dictionary (hd : Keeps d P) :
    Keeps (dictionary d) fun m => Assoc.Sorted m ∧ ∀ entry ∈ m, P entry.2 := by
  intro s hs m h
  cases hs with
  | object hmembers =>
    obtain ⟨l, hl, rfl⟩ := map_eq_ok_iff.1 h
    have hall := forall_mem_of_entries (fun member hm => hd member.2 (hmembers member hm)) hl
    exact ⟨Assoc.sorted_ofList l, fun entry he => hall entry (Assoc.mem_ofList he)⟩
  | _ => cases h

theorem keepsOn_recordMembers {fields : List (Field α)}
    (hfields : ∀ f ∈ fields, ∀ a, P a → KeepsOn S (f.read a) P) {seen : List String} {a b : α}
    (ha : P a) {members : List (Option String × Source)} (hmembers : ∀ m ∈ members, S m.2)
    (h : recordMembers fields seen a members = .ok b) : P b := by
  induction members generalizing seen a with
  | nil =>
    unfold recordMembers at h
    split_ifs at h
    cases h
    exact ha
  | cons m members ih =>
    obtain ⟨name | name, s⟩ := m
    · cases h
    rw [List.forall_mem_cons] at hmembers
    unfold recordMembers at h
    -- an unknown name is skipped, a known one changes the record
    split at h
    · split_ifs at h
      exact ih ha hmembers.2 h
    · rename_i f hf
      split_ifs at h
      obtain ⟨c, hc, h⟩ := bind_eq_ok_iff.1 h
      exact ih (hfields f (List.mem_of_find?_eq_some hf) a ha s hmembers.1 c hc) hmembers.2 h

theorem keepsOn_recordItems {surplus : Bool} {fields : List (Field α)}
    (hfields : ∀ f ∈ fields, ∀ a, P a → KeepsOn S (f.read a) P) {a b : α} (ha : P a)
    {sources : List Source} (hsources : ∀ s ∈ sources, S s)
    (h : recordItems surplus a fields sources = .ok b) : P b := by
  induction fields generalizing a sources with
  | nil =>
    cases sources with
    | nil =>
      cases h
      exact ha
    | cons s sources =>
      unfold recordItems at h
      split_ifs at h
      cases h
      exact ha
  | cons f fields ih =>
    cases sources with
    | nil =>
      unfold recordItems at h
      split_ifs at h
      cases h
      exact ha
    | cons s sources =>
      rw [List.forall_mem_cons] at hfields hsources
      obtain ⟨c, hc, h⟩ := bind_eq_ok_iff.1 h
      exact ih hfields.2 (hfields.1 a ha s hsources.1 c hc) hsources.2 h

/-- A record has what each of its fields keeps. -/
theorem KeepsOn.record (hS : Hereditary S) {surplus : Bool} {fields : List (Field α)} {blank : α}
    (hblank : P blank) (hfields : ∀ f ∈ fields, ∀ a, P a → KeepsOn S (f.read a) P) :
    KeepsOn S (record surplus fields blank) P := by
  intro s hs a h
  cases s with
  | object members => exact keepsOn_recordMembers hfields hblank (hS.members hs) h
  | array sources => exact keepsOn_recordItems hfields hblank (hS.items hs) h
  | _ => cases h

theorem Keeps.record {surplus : Bool} {fields : List (Field α)} {blank : α} (hblank : P blank)
    (hfields : ∀ f ∈ fields, ∀ a, P a → Keeps (f.read a) P) : Keeps (record surplus fields blank) P :=
  KeepsOn.record hereditary_canonical hblank hfields

/-- A dictionary of values is what an object has. -/
theorem dictionary_json_eq_ok_iff {s : Source} {m : List (String × Json)} :
    dictionary json s = .ok m ↔ s.toJson = .ok (.object m) := by
  cases s with
  | object members =>
    rw [Source.toJson, Source.toFields_eq, dictionary]
    change (entries Source.toJson members).map _ = _ ↔ _
    cases entries Source.toJson members <;> simp [Except.map, bind, Except.bind, pure, Except.pure]
  | number n => cases n <;> simp [dictionary, Source.toJson]
  | string s => cases s <;> simp [dictionary, Source.toJson]
  | array sources =>
    simp only [dictionary, reduceCtorEq, false_iff]
    intro h
    obtain ⟨items, -, h⟩ := bind_eq_ok_iff.1 h
    cases h
  | _ => simp [dictionary, Source.toJson]

/-- What is decoded from a text satisfies `P`. -/
theorem Keeps.fromText? (hd : Keeps d P) {text : String} {a : α} (h : fromText? d text = some a) :
    P a := by
  have hsource := Source.canonical_read text
  unfold Decode.fromText? at h
  split at h
  · rename_i source hread
    rw [hread] at hsource
    exact hd source hsource a (toOption_eq_some_iff.1 h)
  · cases h

end Decode

/-- The value that a text is read as is canonical. -/
theorem canonical_of_parse? {text : String} {j : Json} (h : parse? text = some j) : j.Canonical :=
  Decode.keeps_json.fromText? h

end Json

end SeriesPivot
