import SeriesPivot.Proofs.Document
import SeriesPivot.Provider.Basic
import Mathlib.Data.List.Forall2

/-!
# All documents or none

An insertion makes the points of all documents before it writes any of them, so one document without a
point keeps all others from being written. A document has a point if and only if it has a number or a
truth value beside the columns that may hold its time.

* `Insertion.HasField` says this of a document.
* `Insertion.points_of_forall` and `Insertion.points_of_exists`: a batch has its points in the order of
  the documents, or it has none.
* `Provider.insert_atomic`: an insertion writes one point for each document in one call, or it writes
  nothing.
-/

namespace SeriesPivot

/-- Truth values and numbers are the values of fields. -/
def Json.isFieldValue : Json → Bool
  | .bool _ | .number _ => true
  | .null | .string _ | .array _ | .object _ => false

namespace Insertion

/-- A document has a truth value or a number beside the columns that may hold its time. -/
def HasField (chosen : Option String) (document : Json) : Prop :=
  ∃ column ∈ Document.flatten document,
    column.1 ∉ chosen.toList ++ ["time", "timestamp"] ∧ column.2.isFieldValue = true

instance (chosen : Option String) (document : Json) : Decidable (HasField chosen document) :=
  inferInstanceAs (Decidable (∃ column ∈ Document.flatten document, _))

/-- Why a document of a collection has no point. -/
def noField (collection : CollectionRef) : StoreError :=
  .invalidPoint ("document for [" ++ collection.storeKey.getD collection.key ++
    "] has no numeric or boolean fields")

/-! ### Points of single documents -/

/-- Of scalars, truth values and numbers are fields. -/
theorem isSome_field?_of_isScalar {column : String × Json} (h : column.2.isScalar = true) :
    (Point.field? column).isSome = column.2.isFieldValue := by
  obtain ⟨name, j⟩ := column
  cases j with
  | null | bool _ | number _ | string _ => rfl
  | array _ | object _ => cases h

theorem mem_without_iff {fields : List String} {document : List (String × Json)} {column : String × Json} :
    column ∈ without fields document ↔ column.1 ∉ fields ∧ column ∈ document := by
  rw [without, List.mem_filter, and_comm]
  simp

/-- A document without a field is one whose columns are no fields. -/
theorem filterMap_field?_eq_nil_iff (chosen : Option String) (document : Json) :
    (without (timeFields chosen) (Document.flatten document)).filterMap Point.field? = [] ↔
      ¬ HasField chosen document := by
  rw [List.filterMap_eq_nil_iff]
  constructor
  · rintro hnone ⟨column, hcolumn, hname, hvalue⟩
    rw [← isSome_field?_of_isScalar (Document.isScalar_of_mem_flatten hcolumn),
      hnone column (mem_without_iff.2 ⟨hname, hcolumn⟩)] at hvalue
    cases hvalue
  · intro hno column hmem
    obtain ⟨hname, hcolumn⟩ := mem_without_iff.1 hmem
    rw [← Option.not_isSome_iff_eq_none,
      isSome_field?_of_isScalar (Document.isScalar_of_mem_flatten hcolumn)]
    exact fun hvalue => hno ⟨column, hcolumn, hname, hvalue⟩

variable (collection : CollectionRef) {chosen : Option String} (now : Int)

theorem point_of_hasField {document : Json} (h : HasField chosen document) :
    ∃ p, point collection chosen now document = .ok p ∧ p.measurement = collection.measurement := by
  simp only [point, Point.ofFlat]
  split
  · exact absurd h ((filterMap_field?_eq_nil_iff chosen document).1 ‹_›)
  · exact ⟨_, rfl, rfl⟩

theorem point_of_not_hasField {document : Json} (h : ¬ HasField chosen document) :
    point collection chosen now document = .error (noField collection) := by
  simp only [point, Point.ofFlat]
  rw [(filterMap_field?_eq_nil_iff chosen document).2 h]
  rfl

/-! ### Points of batches -/

/-- A batch of documents with fields has one point for each of them, in their order. -/
theorem points_of_forall {documents : List Json} (h : ∀ d ∈ documents, HasField chosen d) :
    ∃ made, points collection chosen now documents = .ok made ∧
      List.Forall₂ (fun d p => point collection chosen now d = .ok p ∧
        p.measurement = collection.measurement) documents made := by
  induction documents with
  | nil => exact ⟨[], rfl, .nil⟩
  | cons d documents ih =>
    rw [List.forall_mem_cons] at h
    obtain ⟨p, hp, hmeasurement⟩ := point_of_hasField collection now h.1
    obtain ⟨made, hmade, hall⟩ := ih h.2
    refine ⟨p :: made, ?_, .cons ⟨hp, hmeasurement⟩ hall⟩
    rw [points, hp, hmade]
    rfl

/-- One document without a field is enough for a batch to have no points. -/
theorem points_of_exists {documents : List Json} (h : ∃ d ∈ documents, ¬ HasField chosen d) :
    points collection chosen now documents = .error (noField collection) := by
  induction documents with
  | nil => simp at h
  | cons d documents ih =>
    rw [points]
    by_cases hd : HasField chosen d
    · obtain ⟨p, hp, -⟩ := point_of_hasField collection now hd
      obtain ⟨e, he, hnot⟩ := h
      have hrest : e ∈ documents := (List.mem_cons.1 he).resolve_left fun heq => hnot (heq ▸ hd)
      rw [hp, ih ⟨e, hrest, hnot⟩]
      rfl
    · rw [point_of_not_hasField collection now hd]

end Insertion

namespace Provider

open Insertion

section Insert

variable (p : Provider) {store : Store} (hstore : p.store = some store) {collection : CollectionRef}
  {chosen : Option String} {now : Int} {documents : List Json}

include hstore

/-- An insertion without points calls the store for nothing. -/
theorem insert_of_error {e : StoreError}
    (h : Insertion.points collection chosen now documents = .error e) :
    p.insert collection chosen now documents = ⟨.error (.store e), [], p⟩ := by
  simp only [insert, withStore, hstore, h]

/-- An insertion with points writes them once and answers like the store. -/
theorem insert_of_ok {made : List Point}
    (h : Insertion.points collection chosen now documents = .ok made) :
    p.insert collection chosen now documents =
      ⟨match store.write made with
        | .ok () => .ok made.length
        | .error e => .error (.store e), [.write made], p⟩ := by
  simp only [insert, withStore, hstore, h]
  cases store.write made <;> rfl

end Insert

/-- An insertion is one write of all points, one for each document in their order, or it fails at a document
without a field and calls the store for nothing. -/
theorem insert_atomic (p : Provider) {store : Store} (hstore : p.store = some store)
    (collection : CollectionRef) (chosen : Option String) (now : Int) (documents : List Json) :
    let step := p.insert collection chosen now documents
    ((∃ d ∈ documents, ¬ HasField chosen d) ∧
      step.answer = .error (.store (noField collection)) ∧ step.calls = []) ∨
    ((∀ d ∈ documents, HasField chosen d) ∧
      ∃ made, List.Forall₂ (fun d point => Insertion.point collection chosen now d = .ok point ∧
          point.measurement = collection.storeKey.getD collection.key) documents made ∧
        step.calls = [.write made] ∧
        step.answer = match store.write made with
          | .ok () => .ok documents.length
          | .error e => .error (.store e)) := by
  intro step
  by_cases hall : ∀ d ∈ documents, HasField chosen d
  · obtain ⟨made, hmade, hpoints⟩ := points_of_forall collection now hall
    have hstep := p.insert_of_ok hstore hmade
    refine .inr ⟨hall, made, hpoints, congrArg Step.calls hstep, ?_⟩
    rw [hpoints.length_eq]
    exact congrArg Step.answer hstep
  · have hexists : ∃ d ∈ documents, ¬ HasField chosen d := by
      simpa only [not_forall, exists_prop] using hall
    have hstep := p.insert_of_error hstore (points_of_exists collection now hexists)
    exact .inl ⟨hexists, congrArg Step.answer hstep, congrArg Step.calls hstep⟩

/-- A store that takes two points at a time. -/
def narrowStore : Store where
  name := "narrow"
  database := "db"
  query _ := .ok RawResult.empty
  write points := if points.length ≤ 2 then .ok () else .error .unavailable
  ping := .ok ()

/-- A visit at a time, with a nested country. -/
def visit (count : Int) : Json :=
  .object [("at", .ofInt 1704067200000), ("count", .ofInt count),
    ("user", .object [("country", .string "US")])]

/-- Documents without a field: texts and a time, a list without numbers, and a number by itself. -/
def unmeasured : List Json :=
  [.object [("at", .ofInt 5), ("time", .ofInt 7), ("city", .string "Oslo"), ("note", .null)],
    .array [.string "a", .object []], .ofInt 3]

theorem insert_atomic_narrowStore :
    let p := create id (fun _ => "uid") QuerySettings.standard (some narrowStore)
    let collection : CollectionRef := ⟨"events", some "events_v2"⟩
    let insert := p.insert collection (some "at") 0
    p.store = some narrowStore ∧
    (∃ made, List.Forall₂ (fun d point => Insertion.point collection (some "at") 0 d = .ok point ∧
        point.measurement = "events_v2") [visit 1, visit 2] made ∧
      (insert [visit 1, visit 2]).calls = [.write made] ∧
      (insert [visit 1, visit 2]).answer = .ok 2) ∧
    (insert [visit 1, visit 2, visit 3]).answer = .error (.store .unavailable) ∧
    ∀ d ∈ unmeasured, (insert [visit 1, d, visit 2]).calls = [] ∧
      (insert [visit 1, d, visit 2]).answer = .error (.store (.invalidPoint
        "document for [events_v2] has no numeric or boolean fields")) := by
  intro p collection insert
  have hvisits : ∀ d ∈ [visit 1, visit 2, visit 3], HasField (some "at") d := by decide
  have hunmeasured : ∀ d ∈ unmeasured, ¬ HasField (some "at") d := by decide
  refine ⟨rfl, ?_, ?_, fun d hd => ?_⟩
  · have htwo : ∀ d ∈ [visit 1, visit 2], HasField (some "at") d := fun d hd =>
      hvisits d (List.mem_append_left [visit 3] hd)
    obtain ⟨-, made, hpoints, hcalls, hanswer⟩ :=
      (insert_atomic p rfl collection (some "at") 0 [visit 1, visit 2]).resolve_left
        fun ⟨⟨d, hd, hnot⟩, _⟩ => hnot (htwo d hd)
    refine ⟨made, hpoints, hcalls, ?_⟩
    have hlength : made.length = 2 := hpoints.length_eq.symm
    simpa [narrowStore, hlength] using hanswer
  · obtain ⟨-, made, hpoints, -, hanswer⟩ :=
      (insert_atomic p rfl collection (some "at") 0 [visit 1, visit 2, visit 3]).resolve_left
        fun ⟨⟨d, hd, hnot⟩, _⟩ => hnot (hvisits d hd)
    have hlength : made.length = 3 := hpoints.length_eq.symm
    simpa [narrowStore, hlength] using hanswer
  · obtain ⟨-, hanswer, hcalls⟩ :=
      (insert_atomic p rfl collection (some "at") 0 [visit 1, d, visit 2]).resolve_right
        fun ⟨hall, _⟩ => hunmeasured d hd (hall d (by simp))
    exact ⟨hcalls, hanswer⟩

end Provider

end SeriesPivot
