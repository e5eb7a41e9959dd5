import SeriesPivot.Json.Print
import SeriesPivot.Json.Source
import SeriesPivot.Proofs.Binary64.Text
import SeriesPivot.Proofs.Text

/-!
# A JSON text has one meaning

What `Json.compress` writes can be taken apart in one way only.

* `Source.readString_quote`: a written string is read back as it was, and the text behind it is left.
* `Json.Shape` is a value with its numbers as they are written.
* `compress_append_inj`: where no number can go on, the written value at the front of a text is unique up
  to its shape, and so is the text behind it.
* `compress_eq_iff`: two values are written alike if and only if they have one shape.
-/

namespace SeriesPivot.Json

/-! ### Induction on values -/

mutual

/-- A property of values follows from the items of arrays and from the fields of objects. -/
@[elab_as_elim]
theorem induct {P : Json → Prop} (null : P .null) (bool : ∀ b, P (.bool b))
    (number : ∀ n, P (.number n)) (string : ∀ s, P (.string s))
    (array : ∀ items, (∀ j ∈ items, P j) → P (.array items))
    (object : ∀ fields, (∀ field ∈ fields, P field.2) → P (.object fields)) : ∀ j, P j
  | .null => null
  | .bool b => bool b
  | .number n => number n
  | .string s => string s
  | .array items => array items (inductItems null bool number string array object items)
  | .object fields => object fields (inductFields null bool number string array object fields)

theorem inductItems {P : Json → Prop} (null : P .null) (bool : ∀ b, P (.bool b))
    (number : ∀ n, P (.number n)) (string : ∀ s, P (.string s))
    (array : ∀ items, (∀ j ∈ items, P j) → P (.array items))
    (object : ∀ fields, (∀ field ∈ fields, P field.2) → P (.object fields)) :
    ∀ items : List Json, ∀ j ∈ items, P j
  | [] => by simp
  | j :: items => by
    rw [List.forall_mem_cons]
    exact ⟨induct null bool number string array object j,
      inductItems null bool number string array object items⟩

theorem inductFields {P : Json → Prop} (null : P .null) (bool : ∀ b, P (.bool b))
    (number : ∀ n, P (.number n)) (string : ∀ s, P (.string s))
    (array : ∀ items, (∀ j ∈ items, P j) → P (.array items))
    (object : ∀ fields, (∀ field ∈ fields, P field.2) → P (.object fields)) :
    ∀ fields : List (String × Json), ∀ field ∈ fields, P field.2
  | [] => by simp
  | (k, j) :: fields => by
    rw [List.forall_mem_cons]
    exact ⟨induct null bool number string array object j,
      inductFields null bool number string array object fields⟩

end

/-! ### Strings -/

theorem hexDigit?_hexChar {n : Nat} (h : n < 16) : Text.hexDigit? (hexChar n) = some n := by
  revert n
  decide

/-- The escape of a control character is read as that character. -/
theorem hexUnit?_control {c : Char} (h : c.toNat < 0x20) :
    Source.hexUnit? '0' '0' (hexChar (c.toNat / 16)) (hexChar (c.toNat % 16)) =
      some (.char c) := by
  have hzero : Text.hexDigit? '0' = some 0 := rfl
  have hlow : ¬ (0xD800 ≤ c.toNat / 16 * 0x10 + c.toNat % 16 ∧
      c.toNat / 16 * 0x10 + c.toNat % 16 < 0xE000) := by omega
  have hsum : c.toNat / 16 * 0x10 + c.toNat % 16 = c.toNat := by omega
  simp [Source.hexUnit?, hzero, hexDigit?_hexChar (show c.toNat / 16 < 16 by omega),
    hexDigit?_hexChar (show c.toNat % 16 < 16 by omega), hsum]
  omega

theorem readUnits_escapeChar (units : List Source.Unit16) (c : Char) (cs : List Char) :
    Source.readUnits units (escapeChar c ++ cs) = Source.readUnits (.char c :: units) cs := by
  unfold escapeChar
  split_ifs with h1 h2 h3 h4 h5 h6 h7 h8
  · subst h1; simp [Source.readUnits, Source.escapeLetter?]
  · subst h2; simp [Source.readUnits, Source.escapeLetter?]
  · subst h3; simp [Source.readUnits, Source.escapeLetter?]
  · subst h4; simp [Source.readUnits, Source.escapeLetter?]
  · subst h5; simp [Source.readUnits, Source.escapeLetter?]
  · subst h6; simp [Source.readUnits, Source.escapeLetter?]
  · subst h7; simp [Source.readUnits, Source.escapeLetter?]
  · simp [Source.readUnits, hexUnit?_control h8]
  · rw [List.singleton_append, Source.readUnits]
    · simp [h2, h8]
    all_goals simp_all

theorem readUnits_flatMap_escapeChar (units : List Source.Unit16) (s cs : List Char) :
    Source.readUnits units (s.flatMap escapeChar ++ '"' :: cs) =
      some (units.reverse ++ s.map .char, cs) := by
  induction s generalizing units with
  | nil => simp [Source.readUnits]
  | cons c s ih => simp [readUnits_escapeChar, ih]

theorem joinUnits_map_char (s : List Char) : Source.joinUnits (s.map .char) = some s := by
  induction s with
  | nil => rfl
  | cons c s ih => simp [Source.joinUnits, ih]

theorem toList_quote (s : String) :
    (quote s).toList = '"' :: (s.toList.flatMap escapeChar ++ ['"']) := by
  simp [quote, Text.expand]

/-- A written string is read back as it was. -/
theorem Source.readString_quote (s : String) (cs : List Char) :
    ∃ inside, (quote s).toList = '"' :: inside ∧
      Source.readString (inside ++ cs) = some (some s, cs) := by
  refine ⟨_, toList_quote s, ?_⟩
  rw [List.append_assoc, List.singleton_append]
  simp [Source.readString, readUnits_flatMap_escapeChar, joinUnits_map_char]

theorem quote_append_inj {s t : String} {r u : List Char}
    (h : (quote s).toList ++ r = (quote t).toList ++ u) : s = t ∧ r = u := by
  obtain ⟨inside, hs, hread⟩ := Source.readString_quote s r
  obtain ⟨inside', ht, hread'⟩ := Source.readString_quote t u
  rw [hs, ht, List.cons_append, List.cons_append, List.cons.injEq] at h
  rw [h.2, hread'] at hread
  simpa [eq_comm] using hread

/-! ### Numbers -/

theorem isNumeric_of_mem_render {n : Number} {c : Char} (h : c ∈ n.render.toList) :
    Decimal.isNumeric c = true := by
  cases n with
  | float x => exact Binary64.isNumeric_of_mem_toExponential h
  | int n =>
    cases n with
    | ofNat n => exact Decimal.isNumeric_of_isDigit (Decimal.isDigit_of_mem_toString h)
    | negSucc n =>
      change c ∈ ("-" ++ toString (n + 1)).toList at h
      rw [String.toList_append, List.mem_append] at h
      rcases h with h | h
      · rw [show c = '-' by simpa using h]
        rfl
      · exact Decimal.isNumeric_of_isDigit (Decimal.isDigit_of_mem_toString h)

theorem Number.render_ne_empty (n : Number) : n.render.toList ≠ [] := by
  cases n with
  | float x => exact Binary64.toExponential_ne_empty x
  | int n =>
    cases n with
    | ofNat n =>
      change n.repr.toList ≠ []
      rw [Nat.toList_repr]
      exact Nat.toDigits_ne_nil
    | negSucc n => simp [Number.render, Int.repr]

/-! ### Shapes -/

/-- A value with its numbers as they are written. -/
inductive Shape where
  | null
  | bool (b : Bool)
  | number (text : String)
  | string (s : String)
  | array (items : List Shape)
  | object (fields : List (String × Shape))

mutual

/-- The shape of a value. -/
def shape : Json → Shape
  | .null => .null
  | .bool b => .bool b
  | .number n => .number n.render
  | .string s => .string s
  | .array items => .array (shapeItems items)
  | .object fields => .object (shapeFields fields)

/-- The shapes of the items of an array. -/
def shapeItems : List Json → List Shape
  | [] => []
  | j :: rest => shape j :: shapeItems rest

/-- The shapes of the fields of an object. -/
def shapeFields : List (String × Json) → List (String × Shape)
  | [] => []
  | (k, j) :: rest => (k, shape j) :: shapeFields rest

end

theorem shapeItems_eq_map (items : List Json) : shapeItems items = items.map shape := by
  induction items with
  | nil => rfl
  | cons j rest ih => rw [shapeItems, ih, List.map_cons]

theorem shapeFields_eq_map (fields : List (String × Json)) :
    shapeFields fields = fields.map fun field => (field.1, field.2.shape) := by
  induction fields with
  | nil => rfl
  | cons field rest ih => rw [shapeFields, ih, List.map_cons]

/-- The kind of value that a text with this first character holds; 6 stands for none. -/
def kindOf (c : Char) : Nat :=
  if c = 'n' then 0 else if c = 't' then 1 else if c = 'f' then 2 else if c = '"' then 3
  else if c = '[' then 4 else if c = '\x7b' then 5
  else if c = ',' ∨ c = ']' ∨ c = '\x7d' then 6 else 7

/-- The kind of a value. -/
def kind : Json → Nat
  | .null => 0
  | .bool true => 1
  | .bool false => 2
  | .string _ => 3
  | .array _ => 4
  | .object _ => 5
  | .number _ => 7

/-- The first character of a text tells the kind of its value. -/
theorem kindOf_head_compress (j : Json) :
    ∃ c cs, j.compress.toList = c :: cs ∧ kindOf c = j.kind := by
  cases j with
  | null => exact ⟨_, _, rfl, rfl⟩
  | bool b => cases b <;> exact ⟨_, _, rfl, rfl⟩
  | string s => exact ⟨_, _, toList_quote s, rfl⟩
  | array items => exact ⟨'[', _, by simp [compress]; rfl, rfl⟩
  | object fields => exact ⟨'\x7b', _, by simp [compress]; rfl, rfl⟩
  | number n =>
    obtain ⟨c, cs, hn⟩ := List.exists_cons_of_ne_nil n.render_ne_empty
    have hc : Decimal.isNumeric c = true := isNumeric_of_mem_render (n := n) (by simp [hn])
    refine ⟨c, cs, hn, ?_⟩
    unfold kindOf
    split_ifs with h h h h h h h
    · subst h; cases hc
    · subst h; cases hc
    · subst h; cases hc
    · subst h; cases hc
    · subst h; cases hc
    · subst h; cases hc
    · rcases h with rfl | rfl | rfl <;> cases hc
    · rfl

theorem kind_eq_of_append_eq {a b : Json} {r u : List Char}
    (h : a.compress.toList ++ r = b.compress.toList ++ u) : a.kind = b.kind := by
  obtain ⟨c, cs, ha, hac⟩ := kindOf_head_compress a
  obtain ⟨d, ds, hb, hbd⟩ := kindOf_head_compress b
  rw [ha, hb, List.cons_append, List.cons_append, List.cons.injEq] at h
  rw [← hac, ← hbd, h.1]

/-- No value begins with a comma or a closing bracket. -/
theorem append_ne_of_kindOf (j : Json) {c : Char} (hc : kindOf c = 6) (r u : List Char) :
    j.compress.toList ++ r ≠ c :: u := by
  obtain ⟨d, ds, hj, hd⟩ := kindOf_head_compress j
  rw [hj, List.cons_append]
  rintro h
  rw [List.cons.injEq] at h
  rw [h.1, hc] at hd
  cases j with
  | bool b => cases b <;> cases hd
  | _ => cases hd

/-! ### Taking a text apart -/

/-- No number goes on into this text. -/
def Ends (r : List Char) : Prop :=
  ∀ c ∈ r.head?, Decimal.isNumeric c = false

theorem render_append_inj {m n : Number} {r u : List Char} (hr : Ends r) (hu : Ends u)
    (h : m.render.toList ++ r = n.render.toList ++ u) : m.render = n.render ∧ r = u := by
  have hnumeric := fun (k : Number) c (hc : c ∈ k.render.toList) => isNumeric_of_mem_render hc
  refine ⟨String.toList_injective ?_, ?_⟩
  · rw [← Text.takeWhile_append_of_stops (hnumeric m) hr, h,
      Text.takeWhile_append_of_stops (hnumeric n) hu]
  · rw [← Text.dropWhile_append_of_stops (hnumeric m) hr, h,
      Text.dropWhile_append_of_stops (hnumeric n) hu]

/-! ### Texts with commas between them -/

/-- Texts with commas between them. -/
def joined : List (List Char) → List Char
  | [] => []
  | [t] => t
  | t :: rest => t ++ ',' :: joined rest

theorem joined_cons (t : List Char) (rest : List (List Char)) :
    joined (t :: rest) = t ++ if rest = [] then [] else ',' :: joined rest := by
  cases rest <;> simp [joined]

/-- The text of a field. -/
def fieldText (field : String × Json) : List Char :=
  (quote field.1).toList ++ ':' :: field.2.compress.toList

theorem toList_compressItems (items : List Json) :
    (compressItems items).toList = joined (items.map fun j => j.compress.toList) := by
  induction items with
  | nil => rfl
  | cons j rest ih =>
    cases rest with
    | nil => rfl
    | cons k rest =>
      rw [compressItems, String.toList_append, String.toList_append, ih]
      · simp [joined]
      · simp

theorem toList_compressFields (fields : List (String × Json)) :
    (compressFields fields).toList = joined (fields.map fieldText) := by
  induction fields with
  | nil => rfl
  | cons field rest ih =>
    obtain ⟨k, j⟩ := field
    cases rest with
    | nil => simp [compressFields, joined, fieldText]
    | cons field rest =>
      rw [compressFields]
      · simp only [String.toList_append, ih]
        simp [joined, fieldText]
      · simp

/-- Texts that can be taken apart where no number goes on can be taken apart with commas between them. -/
theorem joined_append_inj {α β : Type} {text : α → List Char} {meaning : α → β} {close : Char}
    (hnumeric : Decimal.isNumeric close = false) (hcomma : close ≠ ',')
    (hclose : ∀ a r u, text a ++ r ≠ close :: u) {as : List α}
    (ih : ∀ a ∈ as, ∀ b {r u : List Char}, Ends r → Ends u → text a ++ r = text b ++ u →
      meaning a = meaning b ∧ r = u)
    (bs : List α) {r u : List Char}
    (h : joined (as.map text) ++ close :: r = joined (bs.map text) ++ close :: u) :
    as.map meaning = bs.map meaning ∧ r = u := by
  have hends : ∀ (p : Prop) [Decidable p] (rest r : List Char),
      Ends ((if p then [] else ',' :: rest) ++ close :: r) := by
    intro p _ rest r
    split_ifs
    · simp [Ends, hnumeric]
    · simp [Ends, Decimal.isNumeric]
  induction as generalizing bs with
  | nil =>
    cases bs with
    | nil => exact ⟨rfl, (List.cons.inj h).2⟩
    | cons b bs =>
      rw [List.map_cons, joined_cons, List.append_assoc] at h
      exact absurd h.symm (hclose b _ _)
  | cons a as ihas =>
    cases bs with
    | nil =>
      rw [List.map_cons, joined_cons, List.append_assoc] at h
      exact absurd h (hclose a _ _)
    | cons b bs =>
      rw [List.map_cons, List.map_cons, joined_cons, joined_cons, List.append_assoc,
        List.append_assoc] at h
      obtain ⟨hab, hrest⟩ := ih a (by simp) b (hends _ _ _) (hends _ _ _) h
      rw [List.map_cons, List.map_cons, hab]
      -- both lists end here, or a comma follows in both
      cases as with
      | nil =>
        cases bs with
        | nil => exact ⟨rfl, (List.cons.inj hrest).2⟩
        | cons b' bs => exact absurd (List.cons.inj hrest).1 hcomma
      | cons a' as =>
        cases bs with
        | nil => exact absurd (List.cons.inj hrest).1.symm hcomma
        | cons b' bs =>
          obtain ⟨hmeaning, hru⟩ := ihas (fun a ha => ih a (List.mem_cons_of_mem _ ha)) (b' :: bs)
            (List.cons.inj hrest).2
          exact ⟨by rw [hmeaning], hru⟩

/-- Lists with one image under a function have one image under any function that it decides. -/
theorem map_eq_of_map_eq {α β γ : Type} {f : α → β} {g : α → γ} {l m : List α}
    (hf : ∀ a ∈ l, ∀ b ∈ m, f a = f b → g a = g b) (h : l.map f = m.map f) : l.map g = m.map g := by
  induction l generalizing m with
  | nil =>
    rw [List.map_nil, eq_comm, List.map_eq_nil_iff] at h
    rw [h]
  | cons a l ih =>
    cases m with
    | nil => cases h
    | cons b m =>
      obtain ⟨hab, hlm⟩ := List.cons.inj h
      rw [List.map_cons, List.map_cons, hf a (by simp) b (by simp) hab,
        ih (fun a ha b hb => hf a (List.mem_cons_of_mem _ ha) b (List.mem_cons_of_mem _ hb)) hlm]

/-! ### Values and their shapes -/

/-- A field begins with a quote. -/
theorem fieldText_append_ne (field : String × Json) {c : Char} (hc : c ≠ '"') (r u : List Char) :
    fieldText field ++ r ≠ c :: u := by
  rw [fieldText, toList_quote]
  intro h
  exact hc (List.cons.inj h).1.symm

/-- A field at the front of a text can be taken off if its value can. -/
theorem fieldText_append_inj {a b : String × Json} {r u : List Char}
    (ih : a.2.compress.toList ++ r = b.2.compress.toList ++ u → a.2.shape = b.2.shape ∧ r = u)
    (h : fieldText a ++ r = fieldText b ++ u) : (a.1, a.2.shape) = (b.1, b.2.shape) ∧ r = u := by
  unfold fieldText at h
  rw [List.append_assoc, List.append_assoc] at h
  obtain ⟨hname, hcolon⟩ := quote_append_inj h
  obtain ⟨hshape, hrest⟩ := ih (List.cons.inj hcolon).2
  exact ⟨Prod.ext hname hshape, hrest⟩

/-- Where no number goes on, the value at the front of a text is unique up to its shape. -/
theorem compress_append_inj (a b : Json) {r u : List Char} (hr : Ends r) (hu : Ends u)
    (h : a.compress.toList ++ r = b.compress.toList ++ u) : a.shape = b.shape ∧ r = u := by
  -- the first character leaves one constructor for `b`
  have hkind := kind_eq_of_append_eq h
  induction a using Json.induct generalizing b r u with
  | null =>
    cases b with
    | null => exact ⟨rfl, by simpa using h⟩
    | bool b => cases b <;> cases hkind
    | _ => cases hkind
  | bool a =>
    cases b with
    | bool b =>
      cases a <;> cases b <;> first | exact ⟨rfl, by simpa [compress] using h⟩ | cases hkind
    | _ => cases a <;> cases hkind
  | number a =>
    cases b with
    | number b =>
      obtain ⟨htext, hrest⟩ := render_append_inj hr hu h
      exact ⟨by rw [shape, shape, htext], hrest⟩
    | bool b => cases b <;> cases hkind
    | _ => cases hkind
  | string a =>
    cases b with
    | string b =>
      obtain ⟨rfl, hrest⟩ := quote_append_inj h
      exact ⟨rfl, hrest⟩
    | bool b => cases b <;> cases hkind
    | _ => cases hkind
  | array as ih =>
    cases b with
    | array bs =>
      simp only [compress, String.toList_append, List.append_assoc, toList_compressItems] at h
      obtain ⟨hshape, hrest⟩ := joined_append_inj rfl (by decide)
        (fun a r u => append_ne_of_kindOf a rfl r u)
        (fun a ha b r u hr hu h => ih a ha b hr hu h (kind_eq_of_append_eq h)) bs (List.cons.inj h).2
      exact ⟨by rw [shape, shape, shapeItems_eq_map, shapeItems_eq_map, hshape], hrest⟩
    | bool b => cases b <;> cases hkind
    | _ => cases hkind
  | object as ih =>
    cases b with
    | object bs =>
      simp only [compress, String.toList_append, List.append_assoc, toList_compressFields] at h
      obtain ⟨hshape, hrest⟩ := joined_append_inj rfl (by decide)
        (fun a r u => fieldText_append_ne a (by decide) r u)
        (fun a ha b r u hr hu h => fieldText_append_inj
          (fun h => ih a ha b.2 hr hu h (kind_eq_of_append_eq h)) h) bs (List.cons.inj h).2
      exact ⟨by rw [shape, shape, shapeFields_eq_map, shapeFields_eq_map, hshape], hrest⟩
    | bool b => cases b <;> cases hkind
    | _ => cases hkind

theorem compress_congr (a b : Json) (h : a.shape = b.shape) : a.compress = b.compress := by
  induction a using induct generalizing b with
  | null => cases b <;> cases h; rfl
  | bool a => cases b <;> cases h; rfl
  | number m => cases b <;> simp only [shape, reduceCtorEq, Shape.number.injEq] at h; exact h
  | string a => cases b <;> cases h; rfl
  | array as ih =>
    cases b <;> simp only [shape, reduceCtorEq, Shape.array.injEq, shapeItems_eq_map] at h
    have htext := map_eq_of_map_eq (g := fun j : Json => j.compress.toList)
      (fun a ha b _ hab => congrArg String.toList (ih a ha b hab)) h
    apply String.toList_injective
    simp only [compress, String.toList_append, toList_compressItems, htext]
  | object as ih =>
    cases b <;> simp only [shape, reduceCtorEq, Shape.object.injEq, shapeFields_eq_map] at h
    have htext := map_eq_of_map_eq (g := fieldText) (fun a ha b _ hab => by
      obtain ⟨hname, hshape⟩ := Prod.mk.inj hab
      rw [fieldText, fieldText, hname, ih a ha b.2 hshape]) h
    apply String.toList_injective
    simp only [compress, String.toList_append, toList_compressFields, htext]

/-- Two values are written alike if and only if they have one shape. -/
theorem compress_eq_iff {a b : Json} : a.compress = b.compress ↔ a.shape = b.shape := by
  refine ⟨fun h => ?_, compress_congr a b⟩
  exact (compress_append_inj a b (r := []) (u := []) (by simp [Ends]) (by simp [Ends]) (by rw [h])).1

end SeriesPivot.Json
