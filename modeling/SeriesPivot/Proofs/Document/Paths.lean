import SeriesPivot.Proofs.Document
import SeriesPivot.Proofs.Json.Ordered

/-!
# Paths of scalars

A flat document has a column for each scalar of a document, and the column is named by the path to the
scalar. Where no name of a field has a dot, a column tells the path, so that no scalar takes the column of
another one.

* `children` are the values directly below a value, under the names of fields or the positions of items.
* `scalars` are the scalars of a value with their paths, in the order of a walk through the value, and
  `HasScalar` says which scalar a path leads to.
* `flatten_eq`: flattening puts in the scalars under their dotted paths, one after another.
* `nodup_scalars`: no two scalars have one path.
* `dotted_inj`: a dotted path tells the names that it is made of, if none of them has a dot.
* `flatten_lossless`: what flattening keeps of a document.
-/

namespace SeriesPivot

namespace Json

/-! ### Values below values -/

/-- The values directly below a value, under the names of fields or the positions of items. -/
def children : Json → List (String × Json)
  | .object fields => fields
  | .array items => items.zipIdx.map fun item => (toString item.2, item.1)
  | .null | .bool _ | .number _ | .string _ => []

/-- A property of values follows from the values directly below them. -/
@[elab_as_elim]
theorem inductChildren {P : Json → Prop} (scalar : ∀ j, j.isScalar = true → P j)
    (container : ∀ j, j.isScalar = false → (∀ child ∈ j.children, P child.2) → P j) (j : Json) : P j := by
  induction j using induct with
  | null => exact scalar _ rfl
  | bool b => exact scalar _ rfl
  | number n => exact scalar _ rfl
  | string s => exact scalar _ rfl
  | object fields ih => exact container _ rfl ih
  | array items ih =>
    refine container _ rfl fun child hchild => ?_
    obtain ⟨item, hitem, rfl⟩ := List.mem_map.1 hchild
    exact ih _ (List.fst_mem_of_mem_zipIdx hitem)

theorem mem_children_array {items : List Json} {child : String × Json} :
    child ∈ children (.array items) ↔ ∃ i : ℕ, items[i]? = some child.2 ∧ toString i = child.1 := by
  obtain ⟨name, j⟩ := child
  simp only [children, List.mem_map, Prod.mk.injEq, Prod.exists, List.mem_zipIdx_iff_getElem?]
  constructor
  · rintro ⟨j, i, hj, rfl, rfl⟩
    exact ⟨i, hj, rfl⟩
  · rintro ⟨i, hj, rfl⟩
    exact ⟨j, i, hj, rfl, rfl⟩

theorem toString_injective : Function.Injective (toString : ℕ → String) := fun m n h => by
  rw [← Decimal.readDigits_toString m, h, Decimal.readDigits_toString]

theorem Ordered.children {j : Json} (h : j.Ordered) : ∀ child ∈ j.children, child.2.Ordered := by
  cases h with
  | object _ hfields => exact hfields
  | array hitems =>
    intro child hchild
    obtain ⟨i, hi, -⟩ := mem_children_array.1 hchild
    exact hitems _ (List.mem_of_getElem? hi)
  | _ => simp [Json.children]

/-- No name of a field has a dot, at any depth. -/
inductive Undotted : Json → Prop where
  | scalar {j : Json} (h : j.isScalar = true) : Undotted j
  | array {items : List Json} (h : ∀ j ∈ items, Undotted j) : Undotted (.array items)
  | object {fields : List (String × Json)} (hnames : ∀ field ∈ fields, '.' ∉ field.1.toList)
    (h : ∀ field ∈ fields, Undotted field.2) : Undotted (.object fields)

/-- Neither names nor positions have a dot. -/
theorem Undotted.children {j : Json} (h : j.Undotted) :
    ∀ child ∈ j.children, '.' ∉ child.1.toList ∧ child.2.Undotted := by
  cases h with
  | scalar h =>
    cases j with
    | array items => cases h
    | object fields => cases h
    | _ => exact fun child hchild => nomatch hchild
  | object hnames hfields => exact fun child hchild => ⟨hnames child hchild, hfields child hchild⟩
  | array hitems =>
    intro child hchild
    obtain ⟨i, hi, hname⟩ := mem_children_array.1 hchild
    refine ⟨fun hdot => ?_, hitems _ (List.mem_of_getElem? hi)⟩
    rw [← hname] at hdot
    exact absurd (Decimal.isDigit_of_mem_toString hdot) (by decide)

/-! ### Scalars and their paths -/

mutual

/-- The scalars of a value with their paths, in the order of a walk through the value. -/
def scalars : Json → List (List String × Json)
  | .object fields => fieldScalars fields
  | .array items => itemScalars 0 items
  | .null => [([], .null)]
  | .bool b => [([], .bool b)]
  | .number n => [([], .number n)]
  | .string s => [([], .string s)]

/-- The scalars of the fields of an object. -/
def fieldScalars : List (String × Json) → List (List String × Json)
  | [] => []
  | (name, j) :: rest => (scalars j).map (fun leaf => (name :: leaf.1, leaf.2)) ++ fieldScalars rest

/-- The scalars of the items of an array, the first of them at `index`. -/
def itemScalars (index : ℕ) : List Json → List (List String × Json)
  | [] => []
  | j :: rest =>
    (scalars j).map (fun leaf => (toString index :: leaf.1, leaf.2)) ++ itemScalars (index + 1) rest

end

theorem scalars_of_isScalar {j : Json} (h : j.isScalar = true) : scalars j = [([], j)] := by
  cases j with
  | array items => cases h
  | object fields => cases h
  | _ => rfl

/-- The scalars of a value are those of the values below it, one after another. -/
theorem scalars_of_not_isScalar {j : Json} (h : j.isScalar = false) :
    scalars j = j.children.flatMap fun child =>
      (scalars child.2).map fun leaf => (child.1 :: leaf.1, leaf.2) := by
  cases j with
  | object fields =>
    clear h
    change fieldScalars fields = fields.flatMap _
    induction fields with
    | nil => rfl
    | cons field fields ih => rw [fieldScalars, List.flatMap_cons, ih]
  | array items =>
    clear h
    change itemScalars 0 items = (items.zipIdx.map _).flatMap _
    generalize 0 = index
    induction items generalizing index with
    | nil => rfl
    | cons j items ih => rw [itemScalars, List.zipIdx_cons, List.map_cons, List.flatMap_cons, ih]
  | _ => cases h

/-- The scalar that a path leads to. -/
inductive HasScalar : Json → List String → Json → Prop where
  | here {v : Json} (h : v.isScalar = true) : HasScalar v [] v
  | field {fields : List (String × Json)} {name : String} {j v : Json} {path : List String}
    (hfield : (name, j) ∈ fields) (h : HasScalar j path v) : HasScalar (.object fields) (name :: path) v
  | item {items : List Json} {i : ℕ} {j v : Json} {path : List String} (hitem : items[i]? = some j)
    (h : HasScalar j path v) : HasScalar (.array items) (toString i :: path) v

theorem hasScalar_of_isScalar {j : Json} (hj : j.isScalar = true) {path : List String} {v : Json} :
    HasScalar j path v ↔ path = [] ∧ v = j := by
  constructor
  · intro h
    cases h with
    | here => exact ⟨rfl, rfl⟩
    | field => cases hj
    | item => cases hj
  · rintro ⟨rfl, rfl⟩
    exact .here hj

theorem hasScalar_of_not_isScalar {j : Json} (hj : j.isScalar = false) {path : List String} {v : Json} :
    HasScalar j path v ↔
      ∃ child ∈ j.children, ∃ rest, HasScalar child.2 rest v ∧ child.1 :: rest = path := by
  constructor
  · intro h
    cases h with
    | here h =>
      rw [hj] at h
      cases h
    | field hfield h => exact ⟨_, hfield, _, h, rfl⟩
    | item hitem h => exact ⟨(_, _), mem_children_array.2 ⟨_, hitem, rfl⟩, _, h, rfl⟩
  · rintro ⟨child, hchild, rest, h, rfl⟩
    cases j with
    | object fields => exact .field hchild h
    | array items =>
      obtain ⟨i, hi, hname⟩ := mem_children_array.1 hchild
      rw [← hname]
      exact .item hi h
    | _ => cases hj

/-- A walk comes to all scalars and to nothing else. -/
theorem mem_scalars_iff {j : Json} {path : List String} {v : Json} :
    (path, v) ∈ scalars j ↔ HasScalar j path v := by
  induction j using inductChildren generalizing path with
  | scalar j hj => simp [scalars_of_isScalar hj, hasScalar_of_isScalar hj]
  | container j hj ih =>
    simp only [scalars_of_not_isScalar hj, hasScalar_of_not_isScalar hj, List.mem_flatMap, List.mem_map,
      Prod.mk.injEq, Prod.exists]
    constructor
    · rintro ⟨name, c, hc, rest, w, hw, rfl, rfl⟩
      exact ⟨name, c, hc, rest, (ih _ hc).1 hw, rfl⟩
    · rintro ⟨name, c, hc, rest, hw, rfl⟩
      exact ⟨name, c, hc, rest, v, (ih _ hc).2 hw, rfl, rfl⟩

theorem ne_nil_of_mem_scalars {j : Json} (hj : j.isScalar = false) {leaf : List String × Json}
    (h : leaf ∈ scalars j) : leaf.1 ≠ [] := by
  obtain ⟨child, -, rest, -, hpath⟩ := (hasScalar_of_not_isScalar hj).1 (mem_scalars_iff.1 h)
  rw [← hpath]
  exact List.cons_ne_nil _ _

/-- The order of a walk: the fields of objects by their names, the items of arrays by their positions. -/
inductive Before : Json → List String → List String → Prop where
  | fields {fields : List (String × Json)} {name name' : String} {p q : List String} (h : name < name') :
    Before (.object fields) (name :: p) (name' :: q)
  | items {items : List Json} {i i' : ℕ} {p q : List String} (h : i < i') :
    Before (.array items) (toString i :: p) (toString i' :: q)
  | field {fields : List (String × Json)} {name : String} {j : Json} {p q : List String}
    (hfield : (name, j) ∈ fields) (h : Before j p q) : Before (.object fields) (name :: p) (name :: q)
  | item {items : List Json} {i : ℕ} {j : Json} {p q : List String} (hitem : items[i]? = some j)
    (h : Before j p q) : Before (.array items) (toString i :: p) (toString i :: q)

theorem Before.ne {j : Json} {p q : List String} (h : Before j p q) : p ≠ q := by
  induction h with
  | fields h => exact fun he => lt_irrefl _ ((List.cons.inj he).1 ▸ h)
  | items h => exact fun he => h.ne (toString_injective (List.cons.inj he).1)
  | field _ _ ih => exact fun he => ih (List.cons.inj he).2
  | item _ _ ih => exact fun he => ih (List.cons.inj he).2

/-- The scalars of an ordered value are listed in the order of a walk. -/
theorem pairwise_scalars {j : Json} (h : j.Ordered) :
    (scalars j).Pairwise fun leaf leaf' => j.Before leaf.1 leaf'.1 := by
  induction j using inductChildren with
  | scalar j hj => simp [scalars_of_isScalar hj]
  | container j hj ih =>
    have hbelow := fun child hchild => ih child hchild (h.children child hchild)
    rw [scalars_of_not_isScalar hj, List.pairwise_flatMap]
    simp only [List.pairwise_map, List.forall_mem_map]
    cases h with
    | @object fields hs _ =>
      refine ⟨fun field hfield => ?_, ?_⟩
      · exact (hbelow field hfield).imp fun hbefore => .field hfield hbefore
      · exact hs.imp fun hlt _ _ _ _ => .fields hlt
    | @array items _ =>
      refine ⟨fun child hchild => ?_, ?_⟩
      · obtain ⟨i, hi, hname⟩ := mem_children_array.1 hchild
        rw [← hname]
        exact (hbelow child hchild).imp fun hbefore => .item hi hbefore
      · have hpositions : (items.zipIdx.map Prod.snd).Pairwise (· < ·) := by
          rw [List.zipIdx_map_snd]
          exact List.pairwise_lt_range'
        refine List.pairwise_map.2 ((List.pairwise_map.1 hpositions).imp ?_)
        exact fun hlt _ _ _ _ => .items hlt
    | _ => cases hj

/-- No two scalars have one path. -/
theorem nodup_scalars {j : Json} (h : j.Ordered) : ((scalars j).map Prod.fst).Nodup :=
  List.pairwise_map.2 ((pairwise_scalars h).imp Before.ne)

/-- The names on the paths of scalars have no dots. -/
theorem Undotted.scalars {j : Json} (h : j.Undotted) :
    ∀ leaf ∈ scalars j, ∀ name ∈ leaf.1, '.' ∉ name.toList := by
  induction j using inductChildren with
  | scalar j hj => simp [scalars_of_isScalar hj]
  | container j hj ih =>
    intro leaf hleaf
    simp only [scalars_of_not_isScalar hj, List.mem_flatMap, List.mem_map] at hleaf
    obtain ⟨child, hchild, rest, hrest, rfl⟩ := hleaf
    obtain ⟨hname, hbelow⟩ := h.children child hchild
    exact List.forall_mem_cons.2 ⟨hname, ih child hchild hbelow rest hrest⟩

end Json

namespace Document

open Json (scalars)

/-! ### Dotted paths -/

/-- The names of a path joined by dots. -/
def dotted (path : List String) : String :=
  ".".intercalate path

theorem join_none (name : String) : join none name = dotted [name] :=
  String.intercalate_singleton.symm

theorem join_dotted {path : List String} (h : path ≠ []) (name : String) :
    join (some (dotted path)) name = dotted (path ++ [name]) := by
  rw [dotted, dotted, String.intercalate_append_of_ne_nil h (List.cons_ne_nil _ _),
    String.intercalate_singleton]
  rfl

/-- A dotted path tells the names that it is made of, if none of them has a dot. -/
theorem dotted_inj {p q : List String} (hp : p ≠ []) (hq : q ≠ []) (hpdots : ∀ name ∈ p, '.' ∉ name.toList)
    (hqdots : ∀ name ∈ q, '.' ∉ name.toList) (h : dotted p = dotted q) : p = q := by
  have hsplit : ∀ {path : List String}, path ≠ [] → (∀ name ∈ path, '.' ∉ name.toList) →
      (dotted path).toList.splitOn '.' = path.map String.toList := by
    intro path hne hdots
    rw [dotted, String.toList_intercalate]
    refine List.splitOn_intercalate '.' ?_ (by simpa using hne)
    simpa only [List.forall_mem_map] using hdots
  refine List.map_injective_iff.2 (fun a b hab => String.ext hab) ?_
  rw [← hsplit hp hpdots, ← hsplit hq hqdots, h]

/-! ### Leaves and scalars -/

theorem leaves_of_isScalar {j : Json} (h : j.isScalar = true) (path : String) :
    leaves (some path) j = [(path, j)] := by
  cases j with
  | array items => cases h
  | object fields => cases h
  | _ => rfl

theorem leaves_of_not_isScalar {j : Json} (h : j.isScalar = false) (path : Option String) :
    leaves path j = j.children.flatMap fun child => leaves (some (join path child.1)) child.2 := by
  cases j with
  | object fields =>
    clear h
    change fieldLeaves path fields = fields.flatMap _
    induction fields with
    | nil => rfl
    | cons field fields ih => rw [fieldLeaves, List.flatMap_cons, ih]
  | array items =>
    clear h
    change itemLeaves path 0 items = (items.zipIdx.map _).flatMap _
    generalize 0 = index
    induction items generalizing index with
    | nil => rfl
    | cons j items ih => rw [itemLeaves, List.zipIdx_cons, List.map_cons, List.flatMap_cons, ih]
  | _ => cases h

/-- The leaves below a path are the scalars with longer paths. -/
theorem leaves_dotted (j : Json) {path : List String} (hpath : path ≠ []) :
    leaves (some (dotted path)) j = (scalars j).map fun leaf => (dotted (path ++ leaf.1), leaf.2) := by
  induction j using Json.inductChildren generalizing path with
  | scalar j hj => simp [leaves_of_isScalar hj, Json.scalars_of_isScalar hj]
  | container j hj ih =>
    rw [leaves_of_not_isScalar hj, Json.scalars_of_not_isScalar hj, List.map_flatMap]
    refine List.flatMap_congr fun child hchild => ?_
    rw [join_dotted hpath, ih child hchild (by simp), List.map_map]
    simp [Function.comp_def]

theorem leaves_none {document : Json} (h : document.isScalar = false) :
    leaves none document = (scalars document).map fun leaf => (dotted leaf.1, leaf.2) := by
  rw [leaves_of_not_isScalar h, Json.scalars_of_not_isScalar h, List.map_flatMap]
  refine List.flatMap_congr fun child _ => ?_
  rw [join_none, leaves_dotted child.2 (List.cons_ne_nil _ _), List.map_map]
  simp [Function.comp_def]

/-- Flattening puts in the scalars under their dotted paths, one after another. -/
theorem flatten_eq {document : Json} (h : document.isScalar = false) :
    flatten document =
      (scalars document).foldl (fun row leaf => Assoc.insert (dotted leaf.1) leaf.2 row) [] := by
  rw [flatten, leaves_none h, Assoc.ofList, Assoc.insertAll, List.foldl_map]

/-- A flat document stays as it is. -/
theorem flatten_object_of_scalars {fields : List (String × Json)} (hsorted : Assoc.Sorted fields)
    (hscalar : ∀ field ∈ fields, field.2.isScalar = true) : flatten (.object fields) = fields := by
  have hleaves : leaves none (.object fields) = fields := by
    rw [leaves_of_not_isScalar rfl]
    calc fields.flatMap (fun field => leaves (some (join none field.1)) field.2)
      _ = fields.flatMap fun field => [field] :=
        List.flatMap_congr fun field hfield => leaves_of_isScalar (hscalar field hfield) _
      _ = fields := List.flatMap_singleton' fields
  rw [flatten, hleaves, Assoc.ofList_eq_self hsorted]

/-- No two scalars of a document without dots in its names have one column. -/
theorem nodup_columns {document : Json} (hordered : document.Ordered)
    (hcontainer : document.isScalar = false) (hdots : document.Undotted) :
    ((scalars document).map fun leaf => dotted leaf.1).Nodup := by
  rw [← Function.comp_def, ← List.map_map]
  refine (Json.nodup_scalars hordered).map_on ?_
  simp only [List.forall_mem_map]
  intro p hp q hq h
  exact dotted_inj (Json.ne_nil_of_mem_scalars hcontainer hp) (Json.ne_nil_of_mem_scalars hcontainer hq)
    (hdots.scalars p hp) (hdots.scalars q hq) h

/-- What flattening keeps of a document. Its scalars are put in under their dotted paths in the order of a
walk, so all columns are scalars, and a flat document stays as it is. Without dots in the names of fields,
every scalar has a column of its own. -/
theorem flatten_lossless {document : Json} (hordered : document.Ordered)
    (hcontainer : document.isScalar = false) :
    ((∀ path v, (path, v) ∈ scalars document ↔ document.HasScalar path v) ∧
      (scalars document).Pairwise fun leaf leaf' => document.Before leaf.1 leaf'.1) ∧
    flatten document =
      (scalars document).foldl (fun row leaf => Assoc.insert (dotted leaf.1) leaf.2 row) [] ∧
    (∀ column ∈ flatten document, column.2.isScalar = true) ∧
    flatten (.object (flatten document)) = flatten document ∧
    (document.Undotted →
      ((scalars document).map fun leaf => dotted leaf.1).Nodup ∧
      (flatten document).length = (scalars document).length ∧
      ∀ leaf ∈ scalars document, Assoc.find? (dotted leaf.1) (flatten document) = some leaf.2) := by
  have hcolumns : ∀ column ∈ flatten document, column.2.isScalar = true := fun column hcolumn =>
    isScalar_of_mem_flatten hcolumn
  refine ⟨⟨fun path v => Json.mem_scalars_iff, Json.pairwise_scalars hordered⟩, flatten_eq hcontainer,
    hcolumns, flatten_object_of_scalars (Assoc.sorted_ofList _) hcolumns, fun hdots => ?_⟩
  have hnodup := nodup_columns hordered hcontainer hdots
  have hkeys : ((leaves none document).map Prod.fst).Nodup := by
    simpa only [leaves_none hcontainer, List.map_map, Function.comp_def] using hnodup
  refine ⟨hnodup, ?_, fun leaf hleaf => ?_⟩
  · rw [flatten, (Assoc.ofList_perm hkeys).length_eq, leaves_none hcontainer, List.length_map]
  · rw [flatten, Assoc.find?_ofList_of_nodup _ hkeys, Assoc.find?_eq_some_iff hkeys,
      leaves_none hcontainer]
    exact List.mem_map.2 ⟨leaf, hleaf, rfl⟩

/-- Where a name has a dot, a later scalar may take the column of an earlier one. -/
example : flatten (.object [("a", .object [("b", .ofInt 2)]), ("a.b", .ofInt 1)]) = [("a.b", .ofInt 1)] := by
  decide

/-- A visit with empty names, names like positions, values of several depths and empty ones. -/
def tangledVisit : Json :=
  .object [("", .object [("", .ofInt 1), ("0", .bool true)]),
    ("0", .array [.string "a", .object [("1", .null)]]), ("none", .array [])]

theorem flatten_lossless_tangledVisit :
    tangledVisit.Ordered ∧ tangledVisit.isScalar = false ∧ tangledVisit.Undotted ∧
    (scalars tangledVisit).length = 4 ∧
    flatten tangledVisit =
      [(".", .ofInt 1), (".0", .bool true), ("0.0", .string "a"), ("0.1.1", .null)] ∧
    flatten (.object (flatten tangledVisit)) = flatten tangledVisit ∧
    (flatten tangledVisit).length = (scalars tangledVisit).length ∧
    tangledVisit.HasScalar ["0", "1", "1"] .null ∧
    Assoc.find? "0.1.1" (flatten tangledVisit) = some .null := by
  have hordered : tangledVisit.Ordered :=
    Json.Source.ordered_toJson (Json.Source.ofJson tangledVisit) rfl
  have hinner : (Json.object [("1", .null)]).Undotted :=
    .object (by decide) (by simpa using .scalar rfl)
  have hdots : tangledVisit.Undotted := by
    refine .object (by decide) ?_
    simp only [List.forall_mem_cons, List.not_mem_nil, false_implies, implies_true, and_true]
    refine ⟨.object (by decide) ?_, .array ?_, .array (by simp)⟩
    · simpa using ⟨.scalar rfl, .scalar rfl⟩
    · simpa using ⟨.scalar rfl, hinner⟩
  obtain ⟨⟨hscalars, -⟩, -, -, hagain, hkept⟩ := flatten_lossless hordered rfl
  obtain ⟨-, hlength, hfind⟩ := hkept hdots
  have hleaf : (["0", "1", "1"], Json.null) ∈ scalars tangledVisit := by decide
  exact ⟨hordered, rfl, hdots, rfl, by decide, hagain, hlength, (hscalars _ _).1 hleaf, hfind _ hleaf⟩

end Document

end SeriesPivot
