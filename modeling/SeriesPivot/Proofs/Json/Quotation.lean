import SeriesPivot.Proofs.Json.Shape

/-!
# Inside and outside of strings

Whether a character of a JSON text stands inside of a string is told by the quotes before it. A scan from
the wrong side takes every inside for an outside, and either ends on the wrong side or is lost, because
outside of strings there are no backslashes.

* `scan_compress`: a text begins and ends outside of strings.
* `scan_inside_ne_outside`: a text that ends outside when it begins outside does not when it begins inside.
* `compress_ne_append`: no value is written as some text, an underscore and another value.
* `labelled_compress_inj`: a label, an underscore and the text of a value determine the label and the
  value up to its shape, whatever characters the label has.
-/

namespace SeriesPivot.Json

/-- Where a scan of a text stands. -/
inductive Place where
  | outside
  | inside
  /-- Inside of a string, behind a backslash. -/
  | escaped
  /-- Behind a character that does not stand outside of strings. -/
  | lost
  deriving DecidableEq

namespace Place

/-- The place behind one more character. -/
def next : Place → Char → Place
  | outside, c => if c = '"' then inside else if c = '\\' ∨ c = '_' then lost else outside
  | inside, c => if c = '"' then outside else if c = '\\' then escaped else inside
  | escaped, _ => inside
  | lost, _ => lost

/-- The place behind a text. -/
def scan (p : Place) (cs : List Char) : Place :=
  cs.foldl next p

theorem scan_append (p : Place) (cs ds : List Char) : scan p (cs ++ ds) = scan (scan p cs) ds := by
  simp [scan]

@[simp] theorem scan_nil (p : Place) : scan p [] = p := rfl

@[simp] theorem scan_cons (p : Place) (c : Char) (cs : List Char) :
    scan p (c :: cs) = scan (next p c) cs := rfl

/-! ### Texts of values -/

theorem scan_escapeChar (c : Char) : scan inside (escapeChar c) = inside := by
  unfold escapeChar
  split_ifs with h1 h2 h3 h4 h5 h6 h7 h8
  · rfl
  · rfl
  · rfl
  · rfl
  · rfl
  · rfl
  · rfl
  · -- the digits of a control character are no quotes
    have hhex : ∀ n < 16, hexChar n ≠ '"' ∧ hexChar n ≠ '\\' := by decide
    have h16 := hhex (c.toNat / 16) (by omega)
    have h1 := hhex (c.toNat % 16) (by omega)
    simp [next, h16.1, h16.2, h1.1, h1.2]
  · simp [next, h1, h2]

theorem scan_quote (s : String) : scan outside (quote s).toList = outside := by
  have hinside : ∀ cs : List Char, scan inside (cs.flatMap escapeChar) = inside := by
    intro cs
    induction cs with
    | nil => rfl
    | cons c cs ih => rw [List.flatMap_cons, scan_append, scan_escapeChar, ih]
  rw [toList_quote, scan_cons]
  change scan inside _ = _
  rw [scan_append, hinside]
  rfl

theorem scan_of_isNumeric {cs : List Char} (h : ∀ c ∈ cs, Decimal.isNumeric c = true) :
    scan outside cs = outside := by
  induction cs with
  | nil => rfl
  | cons c cs ih =>
    have hc := h c (by simp)
    have hnext : next outside c = outside := by
      change (if c = '"' then inside else if c = '\\' ∨ c = '_' then lost else outside) = outside
      split_ifs with h1 h2
      · subst h1
        cases hc
      · rcases h2 with rfl | rfl <;> cases hc
      · rfl
    rw [scan_cons, hnext]
    exact ih fun d hd => h d (List.mem_cons_of_mem _ hd)

theorem scan_joined {texts : List (List Char)} (h : ∀ t ∈ texts, scan outside t = outside) :
    scan outside (joined texts) = outside := by
  induction texts with
  | nil => rfl
  | cons t rest ih =>
    rw [joined_cons, scan_append, h t (by simp)]
    split_ifs
    · rfl
    · exact ih fun t ht => h t (List.mem_cons_of_mem _ ht)

/-- The text of a value begins and ends outside of strings. -/
theorem scan_compress (j : Json) : scan outside j.compress.toList = outside := by
  induction j using Json.induct with
  | null => rfl
  | bool b => cases b <;> rfl
  | number n => exact scan_of_isNumeric fun c => isNumeric_of_mem_render
  | string s => exact scan_quote s
  | array items ih =>
    simp only [compress, String.toList_append, scan_append, toList_compressItems]
    change scan (scan outside (joined _)) _ = _
    rw [scan_joined]
    · rfl
    · intro t ht
      obtain ⟨j, hj, rfl⟩ := List.mem_map.1 ht
      exact ih j hj
  | object fields ih =>
    simp only [compress, String.toList_append, scan_append, toList_compressFields]
    change scan (scan outside (joined _)) _ = _
    rw [scan_joined]
    · rfl
    · intro t ht
      obtain ⟨field, hf, rfl⟩ := List.mem_map.1 ht
      rw [fieldText, scan_append, scan_quote, scan_cons]
      exact ih field hf

/-! ### Scanning from the wrong side -/

/-- Two scans of one text from opposite sides, neither of them lost, stand on opposite sides. -/
def Opposite (p q : Place) : Prop :=
  (p = outside ∧ q = inside) ∨ (p = inside ∧ q = outside) ∨ p = lost ∨ q = lost

theorem Opposite.next {p q : Place} (h : Opposite p q) (c : Char) :
    Opposite (p.next c) (q.next c) := by
  rcases h with ⟨rfl, rfl⟩ | ⟨rfl, rfl⟩ | rfl | rfl
  · simp only [Place.next]
    split_ifs <;> simp_all [Opposite]
  · simp only [Place.next]
    split_ifs <;> simp_all [Opposite]
  · exact Or.inr (Or.inr (Or.inl rfl))
  · exact Or.inr (Or.inr (Or.inr rfl))

theorem Opposite.scan {p q : Place} (h : Opposite p q) (cs : List Char) :
    Opposite (p.scan cs) (q.scan cs) := by
  induction cs generalizing p q with
  | nil => exact h
  | cons c cs ih => exact ih (h.next c)

theorem scan_inside_ne_outside {cs : List Char} (h : scan outside cs = outside) :
    scan inside cs ≠ outside := by
  intro hinside
  have hopposite : Opposite (scan outside cs) (scan inside cs) :=
    Opposite.scan (Or.inl ⟨rfl, rfl⟩) cs
  rw [h, hinside] at hopposite
  rcases hopposite with ⟨-, h⟩ | ⟨h, -⟩ | h | h <;> cases h

theorem scan_lost (cs : List Char) : scan lost cs = lost := by
  induction cs with
  | nil => rfl
  | cons c cs ih => exact ih

end Place

open Place

/-- No value is written as some text, an underscore and another value: the underscore would stand inside
of a string, and the other value would be scanned from the wrong side. -/
theorem compress_ne_append (a b : Json) (cs : List Char) :
    a.compress.toList ≠ cs ++ '_' :: b.compress.toList := by
  intro h
  have hscan := scan_compress a
  rw [h, scan_append, scan_cons] at hscan
  have hunderscore : ∀ p : Place, p.next '_' = inside ∨ p.next '_' = lost := by
    intro p
    cases p <;> simp [Place.next]
  rcases hunderscore (scan outside cs) with hp | hp <;> rw [hp] at hscan
  · exact scan_inside_ne_outside (scan_compress b) hscan
  · rw [scan_lost] at hscan
    cases hscan

/-- A label, an underscore and the text of a value determine the label and the value. -/
theorem labelled_compress_inj {k l : String} {a b : Json}
    (h : k ++ "_" ++ a.compress = l ++ "_" ++ b.compress) : k = l ∧ a.shape = b.shape := by
  have hlist := congrArg String.toList h
  simp only [String.toList_append, List.append_assoc] at hlist
  change k.toList ++ '_' :: a.compress.toList = l.toList ++ '_' :: b.compress.toList at hlist
  -- one label begins with the other, and what is left of it would end at a second underscore
  rcases List.append_eq_append_iff.1 hlist with ⟨cs, hl, ha⟩ | ⟨cs, hk, hb⟩
  · cases cs with
    | nil =>
      rw [List.append_nil] at hl
      exact ⟨(String.toList_injective hl).symm,
        compress_eq_iff.1 (String.toList_injective (List.cons.inj ha).2)⟩
    | cons c cs => exact absurd (List.cons.inj ha).2 (compress_ne_append a b cs)
  · cases cs with
    | nil =>
      rw [List.append_nil] at hk
      exact ⟨String.toList_injective hk,
        (compress_eq_iff.1 (String.toList_injective (List.cons.inj hb).2)).symm⟩
    | cons c cs => exact absurd (List.cons.inj hb).2 (compress_ne_append b a cs)

end SeriesPivot.Json
