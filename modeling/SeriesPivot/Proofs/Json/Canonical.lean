import SeriesPivot.Proofs.Binary64.ReadBack
import SeriesPivot.Proofs.Json.Shape

/-!
# Values are told by their texts

The numbers of a JSON value are integers and doubles as they are kept, and each of them is written in a
way of its own. So the text of a value tells the value itself and not its shape only.

* `Canonical` says that all doubles in a value are canonical.
* `render_injective`: different numbers are written differently, and an integer never like a double.
* `compress_injective`: different values are written differently.
-/

namespace SeriesPivot.Json

/-- A number as it is kept. -/
def Number.Canonical : Number → Prop
  | .int _ => True
  | .float x => x.Canonical

/-- A value all of whose numbers are kept so. -/
inductive Canonical : Json → Prop where
  | null : Canonical .null
  | bool (b : Bool) : Canonical (.bool b)
  | number {n : Number} (h : n.Canonical) : Canonical (.number n)
  | string (s : String) : Canonical (.string s)
  | array {items : List Json} (h : ∀ j ∈ items, Canonical j) : Canonical (.array items)
  | object {fields : List (String × Json)} (h : ∀ field ∈ fields, Canonical field.2) :
    Canonical (.object fields)

instance : (n : Number) → Decidable n.Canonical
  | .int _ => inferInstanceAs (Decidable True)
  | .float x => inferInstanceAs (Decidable x.Canonical)

mutual

/-- Whether the numbers of a value are kept so is decidable. -/
def decCanonical : (j : Json) → Decidable j.Canonical
  | .null => isTrue .null
  | .bool b => isTrue (.bool b)
  | .string s => isTrue (.string s)
  | .number n =>
    if h : n.Canonical then isTrue (.number h)
    else isFalse fun hn => by cases hn; exact h ‹_›
  | .array items => match decCanonicalItems items with
    | isTrue h => isTrue (.array h)
    | isFalse h => isFalse fun hn => by cases hn; exact h ‹_›
  | .object fields => match decCanonicalFields fields with
    | isTrue h => isTrue (.object h)
    | isFalse h => isFalse fun hn => by cases hn; exact h ‹_›

def decCanonicalItems : (items : List Json) → Decidable (∀ j ∈ items, Canonical j)
  | [] => isTrue (by simp)
  | j :: rest => match decCanonical j, decCanonicalItems rest with
    | isTrue h, isTrue hrest => isTrue (List.forall_mem_cons.2 ⟨h, hrest⟩)
    | isFalse h, _ => isFalse fun hall => h (List.forall_mem_cons.1 hall).1
    | _, isFalse hrest => isFalse fun hall => hrest (List.forall_mem_cons.1 hall).2

def decCanonicalFields :
    (fields : List (String × Json)) → Decidable (∀ field ∈ fields, Canonical field.2)
  | [] => isTrue (by simp)
  | (_, j) :: rest => match decCanonical j, decCanonicalFields rest with
    | isTrue h, isTrue hrest => isTrue (List.forall_mem_cons.2 ⟨h, hrest⟩)
    | isFalse h, _ => isFalse fun hall => h (List.forall_mem_cons.1 hall).1
    | _, isFalse hrest => isFalse fun hall => hrest (List.forall_mem_cons.1 hall).2

end

instance (j : Json) : Decidable j.Canonical := decCanonical j

theorem canonical_ofInt (n : ℤ) : Canonical (ofInt n) := .number trivial

/-! ### Numbers -/

/-- The integer that digits with or without a minus sign stand for. -/
def readInteger : List Char → ℤ
  | '-' :: cs => -(Decimal.readDigits cs : ℤ)
  | cs => Decimal.readDigits cs

theorem readInteger_toString (n : ℤ) : readInteger (toString n).toList = n := by
  cases n with
  | ofNat n =>
    change readInteger (toString n).toList = n
    have hread := Decimal.readDigits_toString n
    have hdigit := fun c (hc : c ∈ (toString n).toList) => Decimal.isDigit_of_mem_toString hc
    generalize (toString n).toList = cs at hread hdigit ⊢
    unfold readInteger
    split
    · exact absurd (hdigit '-' (by simp)) (by decide)
    · rw [hread]
  | negSucc n =>
    change readInteger ("-" ++ toString (n + 1)).toList = -(n + 1 : ℤ)
    rw [String.toList_append, show "-".toList = ['-'] from rfl, List.singleton_append, readInteger,
      Decimal.readDigits_toString, Nat.cast_succ]

/-- A written double has a point or an exponent. -/
theorem exists_mem_toExponential (x : Binary64) :
    '.' ∈ x.toExponential.toList ∨ 'e' ∈ x.toExponential.toList := by
  rw [Binary64.toExponential_eq, String.toList_append, List.mem_append, List.mem_append]
  unfold Decimal.layout Decimal.exponential
  by_cases hp : -4 ≤ (Decimal.ofBinary64 .even x).point ∧ (Decimal.ofBinary64 .even x).point ≤ 16
  · rw [if_pos hp]
    simp
  · rw [if_neg hp]
    simp

theorem not_mem_toString {c : Char} (hdigit : c.isDigit = false) (hsign : c ≠ '-') (n : ℤ) :
    c ∉ (toString n).toList := by
  intro hc
  cases n with
  | ofNat n =>
    have h := Decimal.isDigit_of_mem_toString (n := n) hc
    rw [hdigit] at h
    cases h
  | negSucc n =>
    change c ∈ ("-" ++ toString (n + 1)).toList at hc
    rw [String.toList_append, List.mem_append] at hc
    rcases hc with hc | hc
    · exact hsign (by simpa using hc)
    · have h := Decimal.isDigit_of_mem_toString hc
      rw [hdigit] at h
      cases h

/-- Different numbers are written differently. -/
theorem render_injective {m n : Number} (hm : m.Canonical) (hn : n.Canonical)
    (h : m.render = n.render) : m = n := by
  have hmixed : ∀ (k : ℤ) (x : Binary64), toString k ≠ x.toExponential := by
    intro k x he
    rcases exists_mem_toExponential x with hx | hx
    · exact not_mem_toString (by decide) (by decide) k (he ▸ hx)
    · exact not_mem_toString (by decide) (by decide) k (he ▸ hx)
  cases m with
  | int k =>
    cases n with
    | int l =>
      have hread := congrArg (fun s => readInteger (String.toList s)) h
      simp only [Number.render, readInteger_toString] at hread
      rw [hread]
    | float x => exact absurd h (hmixed k x)
  | float x =>
    cases n with
    | int l => exact absurd h.symm (hmixed l x)
    | float y => rw [Binary64.toExponential_injective hm hn h]

/-! ### Values -/

/-- Lists whose images agree are equal if equal images come from equal items. -/
theorem eq_of_map_eq {α β : Type} {f : α → β} {l m : List α}
    (hf : ∀ a ∈ l, ∀ b ∈ m, f a = f b → a = b) (h : l.map f = m.map f) : l = m := by
  simpa using map_eq_of_map_eq (g := id) hf h

/-- The shape of a value tells the value. -/
theorem eq_of_shape_eq {a b : Json} (ha : a.Canonical) (hb : b.Canonical) (h : a.shape = b.shape) :
    a = b := by
  induction ha generalizing b with
  | null => cases hb <;> cases h; rfl
  | bool x => cases hb <;> cases h; rfl
  | string s => cases hb <;> cases h; rfl
  | number hm =>
    cases hb <;> simp only [shape, reduceCtorEq, Shape.number.injEq] at h
    case number hn => rw [render_injective hm hn h]
  | array _ ih =>
    cases hb <;> simp only [shape, reduceCtorEq, Shape.array.injEq, shapeItems_eq_map] at h
    case array hitems => rw [eq_of_map_eq (fun a ha b hb => ih a ha (hitems b hb)) h]
  | object _ ih =>
    cases hb <;> simp only [shape, reduceCtorEq, Shape.object.injEq, shapeFields_eq_map] at h
    case object hfields =>
      rw [eq_of_map_eq (fun a ha b hb he => ?_) h]
      obtain ⟨hname, hvalue⟩ := Prod.mk.inj he
      exact Prod.ext hname (ih a ha (hfields b hb) hvalue)

/-- Different values are written differently. -/
theorem compress_injective {a b : Json} (ha : a.Canonical) (hb : b.Canonical)
    (h : a.compress = b.compress) : a = b :=
  eq_of_shape_eq ha hb (compress_eq_iff.1 h)

end SeriesPivot.Json
