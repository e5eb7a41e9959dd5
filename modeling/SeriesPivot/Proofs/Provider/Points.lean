import SeriesPivot.Proofs.Json.Reading
import SeriesPivot.Proofs.Provider.Insertion
import SeriesPivot.Proofs.Store.Batches

/-!
# What a point holds of its document

A point holds all columns of its flat document but those that may name its time, and nulls. Texts are tags,
and numbers and truth values are fields. Its time is what the first time column with an instant denotes, and
the current time if no time column has one.

* `Json.IsField` says which field a value is.
* `Insertion.TimedAt` says at which time a document is inserted.
* `Insertion.IsPointOf` says what a point holds of a document.
* `Insertion.isPointOf_of_point`: the point that is made of a document holds this.
* `Provider.insert_describes`: so do all points that are written.
-/

namespace SeriesPivot

/-! ### Fields and tags -/

/-- The field that a value is: a truth value, an integer of 64 bits with its sign, or a double. A greater
integer is the double nearest to it, and no integer of a JSON value is less than those of 64 bits. -/
inductive Json.IsField : Json → FieldValue → Prop where
  | bool (b : Bool) : IsField (.bool b) (.bool b)
  | int {n : ℤ} (h : n < 2 ^ 63) : IsField (.number (.int n)) (.int n)
  | large {n : ℤ} (h : 2 ^ 63 ≤ n) : IsField (.number (.int n)) (.float (Binary64.ofInt n))
  | float (x : Binary64) : IsField (.number (.float x)) (.float x)

theorem Json.IsField.ne_text {j : Json} {v : FieldValue} (h : j.IsField v) (s : String) : v ≠ .text s := by
  cases h <;> exact nofun

/-- A scalar is a text, a field or null. -/
theorem Json.isField_of_isScalar {j : Json} (h : j.isScalar = true) :
    (∃ s, j = .string s) ∨ (∃ v, j.IsField v) ∨ j = .null := by
  cases j with
  | null => exact .inr (.inr rfl)
  | bool b => exact .inr (.inl ⟨_, .bool b⟩)
  | string s => exact .inl ⟨s, rfl⟩
  | array items | object fields => cases h
  | number n =>
    refine .inr (.inl ?_)
    cases n with
    | float x => exact ⟨_, .float x⟩
    | int n =>
      rcases lt_or_ge n (2 ^ 63) with hn | hn
      · exact ⟨_, .int hn⟩
      · exact ⟨_, .large hn⟩

namespace Point

theorem numberField_int (n : ℤ) :
    numberField (.int n) = if n < 2 ^ 63 then .int n else .float (Binary64.ofInt n) := by
  have hpow : (2 : ℤ) ^ 63 = 0x8000000000000000 := by norm_num
  unfold numberField Json.Number.asInt64?
  rw [hpow]
  by_cases h : n < 0x8000000000000000 <;>
    simp only [h, if_true, if_false, Json.Number.toBinary64]

/-- A scalar column is a field under its name if its value is one. -/
theorem field?_eq_some_iff {column : String × Json} (h : column.2.isScalar = true) {name : String}
    {v : FieldValue} : field? column = some (name, v) ↔ column.1 = name ∧ column.2.IsField v := by
  obtain ⟨name', j⟩ := column
  cases j with
  | null | string s => exact ⟨nofun, fun ⟨_, hv⟩ => nomatch hv⟩
  | array items | object fields => cases h
  | bool b =>
    simp only [field?, Option.some.injEq, Prod.mk.injEq]
    exact and_congr_right fun _ => ⟨fun hv => hv ▸ .bool b, fun hv => by cases hv; rfl⟩
  | number n =>
    simp only [field?, Option.some.injEq, Prod.mk.injEq]
    refine and_congr_right fun _ => ⟨?_, fun hv => ?_⟩
    · rintro rfl
      cases n with
      | float x => exact .float x
      | int n =>
        rw [numberField_int]
        split_ifs with hn
        · exact .int hn
        · exact .large (not_lt.1 hn)
    · cases hv with
      | int hn => rw [numberField_int, if_pos hn]
      | large hn => rw [numberField_int, if_neg (not_lt.2 hn)]
      | float x => rfl

theorem fst_eq_of_field? {column : String × Json} {field : String × FieldValue}
    (h : field? column = some field) : field.1 = column.1 := by
  obtain ⟨name, j⟩ := column
  cases j <;> cases h <;> rfl

theorem tag?_eq_some_iff {column : String × Json} {name s : String} :
    tag? column = some (name, s) ↔ column = (name, .string s) := by
  obtain ⟨name', j⟩ := column
  cases j <;> simp [tag?]

theorem fst_eq_of_tag? {column : String × Json} {tag : String × String} (h : tag? column = some tag) :
    tag.1 = column.1 := by
  cases tag
  rw [tag?_eq_some_iff.1 h]

/-- The tags of a document are its texts. -/
theorem mem_filterMap_tag?_iff {columns : List (String × Json)} {name s : String} :
    (name, s) ∈ columns.filterMap tag? ↔ (name, .string s) ∈ columns := by
  simp only [List.mem_filterMap, tag?_eq_some_iff, exists_eq_right]

/-- The fields of a document of scalars are its truth values and numbers. -/
theorem mem_filterMap_field?_iff {columns : List (String × Json)}
    (h : ∀ column ∈ columns, column.2.isScalar = true) {name : String} {v : FieldValue} :
    (name, v) ∈ columns.filterMap field? ↔ ∃ j, (name, j) ∈ columns ∧ j.IsField v := by
  rw [List.mem_filterMap]
  constructor
  · rintro ⟨⟨name', j⟩, hcolumn, hfield⟩
    obtain ⟨rfl, hv⟩ := (field?_eq_some_iff (h _ hcolumn)).1 hfield
    exact ⟨j, hcolumn, hv⟩
  · rintro ⟨j, hcolumn, hv⟩
    exact ⟨(name, j), hcolumn, (field?_eq_some_iff (h _ hcolumn)).2 ⟨rfl, hv⟩⟩

end Point

namespace Insertion

open Document (flatten)

/-! ### The time of a document -/

/-- No column of this name holds an instant. -/
def Timeless (document : Json) (name : String) : Prop :=
  ∀ j, (name, j) ∈ flatten document → j.instant? = none

/-- The time at which a document is inserted: what the first of its time columns with an instant denotes, or
the current time if there is no such column. The chosen column comes first, if there is one. -/
def TimedAt (chosen : Option String) (now : ℤ) (document : Json) (time : ℤ) : Prop :=
  (∃ before name after j t, chosen.toList ++ ["time", "timestamp"] = before ++ name :: after ∧
    (name, j) ∈ flatten document ∧ j.instant? = some t ∧ time = t.toMillis ∧
    ∀ earlier ∈ before, Timeless document earlier) ∨
  (∀ name ∈ chosen.toList ++ ["time", "timestamp"], Timeless document name) ∧ time = now

theorem find?_flatten_eq_some_iff {document : Json} {name : String} {j : Json} :
    Assoc.find? name (flatten document) = some j ↔ (name, j) ∈ flatten document :=
  Assoc.find?_eq_some_iff (Assoc.nodup_keys (Assoc.sorted_ofList _))

/-- A column by which no time is read holds no instant. -/
theorem timeless_iff {document : Json} {name : String} :
    ((Assoc.find? name (flatten document)).bind Json.instant?).map Instant.toMillis = none ↔
      Timeless document name := by
  rw [Option.map_eq_none_iff, Option.bind_eq_none_iff]
  exact forall_congr' fun j => by rw [find?_flatten_eq_some_iff]

theorem timedAt_time? (chosen : Option String) (now : ℤ) (document : Json) :
    TimedAt chosen now document ((time? (timeFields chosen) (flatten document)).getD now) := by
  cases h : time? (timeFields chosen) (flatten document) with
  | none => exact .inr ⟨fun name hname => timeless_iff.1 (List.findSome?_eq_none_iff.1 h name hname), rfl⟩
  | some time =>
    obtain ⟨before, name, after, hsplit, hname, hbefore⟩ := List.findSome?_eq_some_iff.1 h
    obtain ⟨t, hread, rfl⟩ := Option.map_eq_some_iff.1 hname
    obtain ⟨j, hj, ht⟩ := Option.bind_eq_some_iff.1 hread
    refine .inl ⟨before, name, after, j, t, hsplit, find?_flatten_eq_some_iff.1 hj, ht, rfl, ?_⟩
    exact fun earlier he => timeless_iff.1 (hbefore earlier he)

/-! ### Points of documents -/

/-- What a point holds of a document: its time, its texts as tags, and its numbers and truth values as
fields, but for the columns that may name the time. -/
structure IsPointOf (chosen : Option String) (now : ℤ) (document : Json) (p : Point) : Prop where
  time : TimedAt chosen now document p.time
  tags : ∀ name s, (name, s) ∈ p.tags ↔
    name ∉ chosen.toList ++ ["time", "timestamp"] ∧ (name, .string s) ∈ flatten document
  fields : ∀ name v, (name, v) ∈ p.fields ↔ name ∉ chosen.toList ++ ["time", "timestamp"] ∧
    ∃ j, (name, j) ∈ flatten document ∧ j.IsField v
  /-- There are no other columns. -/
  columns : ∀ column ∈ flatten document,
    (∃ s, column.2 = .string s) ∨ (∃ v, column.2.IsField v) ∨ column.2 = .null
  tags_sorted : Assoc.Sorted p.tags
  fields_sorted : Assoc.Sorted p.fields
  nulls : ∀ name, (name, .null) ∈ flatten document →
    name ∉ p.tags.map Prod.fst ∧ name ∉ p.fields.map Prod.fst
  disjoint : ∀ name ∈ p.tags.map Prod.fst, name ∉ p.fields.map Prod.fst
  ne_text : ∀ field ∈ p.fields, ∀ s, field.2 ≠ .text s

theorem eq_of_mem_flatten {document : Json} {name : String} {j k : Json}
    (hj : (name, j) ∈ flatten document) (hk : (name, k) ∈ flatten document) : j = k :=
  Option.some.inj ((find?_flatten_eq_some_iff.2 hj).symm.trans (find?_flatten_eq_some_iff.2 hk))

variable {collection : CollectionRef} {chosen : Option String} {now : ℤ}

/-- The point of a document, part by part. -/
theorem eq_of_point {document : Json} {p : Point} (h : point collection chosen now document = .ok p) :
    let columns := without (timeFields chosen) (flatten document)
    p = ⟨collection.measurement, columns.filterMap Point.tag?, columns.filterMap Point.field?,
      (time? (timeFields chosen) (flatten document)).getD now⟩ := by
  unfold point Point.ofFlat at h
  dsimp only at h
  split at h
  · cases h
  · exact (Except.ok.inj h).symm

/-- The point that is made of a document holds its columns and its time. -/
theorem isPointOf_of_point {document : Json} {p : Point}
    (h : point collection chosen now document = .ok p) : IsPointOf chosen now document p := by
  obtain rfl := eq_of_point h
  set columns := without (timeFields chosen) (flatten document) with hcolumns
  have hscalar : ∀ column ∈ columns, column.2.isScalar = true := fun column hcolumn =>
    Document.isScalar_of_mem_flatten (mem_without_iff.1 hcolumn).2
  have hsorted : Assoc.Sorted columns := Assoc.sorted_filter _ (Assoc.sorted_ofList _)
  have htags : ∀ name s, (name, s) ∈ columns.filterMap Point.tag? ↔
      name ∉ timeFields chosen ∧ (name, .string s) ∈ flatten document := by
    intro name s
    rw [Point.mem_filterMap_tag?_iff, hcolumns, mem_without_iff]
  have hfields : ∀ name v, (name, v) ∈ columns.filterMap Point.field? ↔
      name ∉ timeFields chosen ∧ ∃ j, (name, j) ∈ flatten document ∧ j.IsField v := by
    intro name v
    rw [Point.mem_filterMap_field?_iff hscalar]
    simp only [hcolumns, mem_without_iff, and_assoc, exists_and_left]
  have htext : ∀ name ∈ (columns.filterMap Point.tag?).map Prod.fst,
      ∃ s, (name, .string s) ∈ flatten document := by
    intro name hname
    obtain ⟨⟨_, s⟩, htag, rfl⟩ := List.mem_map.1 hname
    exact ⟨s, ((htags _ s).1 htag).2⟩
  have hfield : ∀ name ∈ (columns.filterMap Point.field?).map Prod.fst,
      ∃ j v, (name, j) ∈ flatten document ∧ j.IsField v := by
    intro name hname
    obtain ⟨⟨_, v⟩, hmem, rfl⟩ := List.mem_map.1 hname
    obtain ⟨-, j, hj, hv⟩ := (hfields _ v).1 hmem
    exact ⟨j, v, hj, hv⟩
  -- a name stands for one value, and no value is of two kinds
  refine ⟨timedAt_time? chosen now document, htags, hfields, ?_, ?_, ?_, ?_, ?_, ?_⟩
  · exact fun column hcolumn => Json.isField_of_isScalar (Document.isScalar_of_mem_flatten hcolumn)
  · exact Assoc.sorted_filterMap (fun _ _ => Point.fst_eq_of_tag?) hsorted
  · exact Assoc.sorted_filterMap (fun _ _ => Point.fst_eq_of_field?) hsorted
  · refine fun name hnull => ⟨fun hname => ?_, fun hname => ?_⟩
    · obtain ⟨s, hs⟩ := htext name hname
      cases eq_of_mem_flatten hnull hs
    · obtain ⟨j, v, hj, hv⟩ := hfield name hname
      cases eq_of_mem_flatten hnull hj
      cases hv
  · intro name htag hname
    obtain ⟨s, hs⟩ := htext name htag
    obtain ⟨j, v, hj, hv⟩ := hfield name hname
    cases eq_of_mem_flatten hs hj
    cases hv
  · rintro ⟨name, v⟩ hmem s
    obtain ⟨-, j, -, hv⟩ := (hfields name v).1 hmem
    exact hv.ne_text s

/-- The points of a batch are those of its documents, in order. -/
theorem forall₂_of_points {documents : List Json} {made : List Point}
    (h : points collection chosen now documents = .ok made) :
    List.Forall₂ (fun document p => point collection chosen now document = .ok p) documents made := by
  induction documents generalizing made with
  | nil =>
    cases h
    exact .nil
  | cons document documents ih =>
    rw [points] at h
    split at h
    · cases h
    · rename_i p hp
      obtain ⟨rest, hrest, rfl⟩ := map_eq_ok_iff.1 h
      exact .cons hp (ih hrest)

end Insertion

namespace Provider

open Insertion

/-- What is written in an insertion are the points of its documents. -/
theorem points_of_mem_calls {p : Provider} {collection : CollectionRef} {chosen : Option String} {now : ℤ}
    {documents : List Json} {made : List Point}
    (h : .write made ∈ (p.insert collection chosen now documents).calls) :
    points collection chosen now documents = .ok made := by
  cases hstore : p.store with
  | none => simp [insert, withStore, hstore] at h
  | some store =>
    cases hpoints : points collection chosen now documents with
    | error e =>
      rw [insert_of_error p hstore hpoints] at h
      cases h
    | ok written =>
      rw [insert_of_ok p hstore hpoints] at h
      cases List.mem_singleton.1 h
      rfl

/-- A point that is made of a document holds the time and the columns of the document, and an insertion
writes such points only, one for each document in order. -/
theorem insert_describes (p : Provider) (collection : CollectionRef) (chosen : Option String) (now : ℤ)
    (documents : List Json) :
    (∀ document point, Insertion.point collection chosen now document = .ok point →
      IsPointOf chosen now document point) ∧
    ∀ made, .write made ∈ (p.insert collection chosen now documents).calls →
      List.Forall₂ (IsPointOf chosen now) documents made := by
  refine ⟨fun document point h => isPointOf_of_point h, fun made h => ?_⟩
  exact (forall₂_of_points (points_of_mem_calls h)).imp fun _ _ h => isPointOf_of_point h

/-- A visit whose chosen time cannot be read, with another time, a text, a null and values of each kind. -/
def trackedVisit : Json :=
  .object [("bytes", .ofInt (2 ^ 63)), ("count", .ofInt 3),
    ("meta", .object [("at", .string "soon"), ("bot", .bool false)]),
    ("ratio", .number (.float (.ofInt 7))), ("time", .ofInt 1704067200000), ("timestamp", .ofInt 5),
    ("user", .object [("country", .string "US"), ("name", .null)])]

/-- The point of this visit. -/
def trackedPoint : Point where
  measurement := "events"
  tags := [("user.country", "US")]
  fields := [("bytes", .float (.ofInt (2 ^ 63))), ("count", .int 3), ("meta.bot", .bool false),
    ("ratio", .float (.ofInt 7))]
  time := 1704067200000

theorem insert_describes_trackedVisit :
    let p := create id (fun _ => "uid") QuerySettings.standard (some narrowStore)
    let collection : CollectionRef := ⟨"events", none⟩
    Insertion.point collection (some "meta.at") 9 trackedVisit = .ok trackedPoint ∧
    IsPointOf (some "meta.at") 9 trackedVisit trackedPoint ∧
    .write [trackedPoint] ∈ (p.insert collection (some "meta.at") 9 [trackedVisit]).calls ∧
    List.Forall₂ (IsPointOf (some "meta.at") 9) [trackedVisit] [trackedPoint] := by
  intro p collection
  have hpoint : Insertion.point collection (some "meta.at") 9 trackedVisit = .ok trackedPoint := by
    decide +kernel
  have hcall : .write [trackedPoint] ∈ (p.insert collection (some "meta.at") 9 [trackedVisit]).calls := by
    have hpoints : points collection (some "meta.at") 9 [trackedVisit] = .ok [trackedPoint] := by
      rw [points, hpoint]
      rfl
    rw [insert_of_ok p rfl hpoints]
    exact List.mem_singleton_self _
  obtain ⟨hmade, hwritten⟩ := insert_describes p collection (some "meta.at") 9 [trackedVisit]
  exact ⟨hpoint, hmade _ _ hpoint, hcall, hwritten _ hcall⟩

end Provider

end SeriesPivot
