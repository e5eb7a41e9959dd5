import SeriesPivot.Proofs.Document
import SeriesPivot.Proofs.Store.Lines

/-!
# Batches of lines

A batch has one point a line, so it should be taken apart at its newlines. Newlines are not escaped,
though: one in a name or in the value of a tag ends its line early, and what follows it makes up a line of
its own.

* `lines` are the lines of a text.
* `lines_encodePoints`: the lines of a batch are those of its points, in order.
* `newline_mem_encodePoint_iff` says which newlines of a point come into its line.
* `lines_encodePoints_iff`: a batch of points of documents has one line for each point if and only if
  these have no newlines.
-/

namespace SeriesPivot

open LineProtocol

/-! ### Lines of a text -/

/-- The lines of a text, at least one. -/
def lines (s : String) : List String :=
  (s.toList.splitOn '\n').map String.ofList

theorem lines_ne_nil (s : String) : lines s ≠ [] := by
  intro h
  exact List.splitOn_ne_nil _ _ (List.map_eq_nil_iff.1 h)

theorem length_lines_pos (s : String) : 0 < (lines s).length :=
  List.length_pos_of_ne_nil (lines_ne_nil s)

theorem lines_append_newline (s t : String) : lines (s ++ "\n" ++ t) = lines s ++ lines t := by
  simp only [lines, List.splitOn_eq_splitOnP, String.toList_append, List.append_assoc]
  rw [show "\n".toList = ['\n'] from rfl, List.singleton_append, List.splitOnP_append_cons _ _ (by rfl),
    List.map_append]

/-- A text without newlines is one line. -/
theorem lines_of_not_mem {s : String} (h : '\n' ∉ s.toList) : lines s = [s] := by
  unfold lines
  rw [List.splitOn_eq_splitOnP, List.splitOnP_eq_singleton, List.map_singleton, String.ofList_toList]
  intro c hc
  exact beq_eq_false_iff_ne.2 (ne_of_mem_of_not_mem hc h)

/-- A newline makes two lines of a text. -/
theorem not_mem_of_length_lines {s : String} (h : (lines s).length = 1) : '\n' ∉ s.toList := by
  intro hmem
  obtain ⟨before, after, hsplit⟩ := List.append_of_mem hmem
  have hs : s = String.ofList before ++ "\n" ++ String.ofList after := by
    rw [← String.toList_inj]
    simp [hsplit]
  rw [hs, lines_append_newline, List.length_append] at h
  have hbefore := length_lines_pos (String.ofList before)
  have hafter := length_lines_pos (String.ofList after)
  omega

/-- The lines of joined texts are those of each, in order. -/
theorem lines_intercalate {texts : List String} (h : texts ≠ []) :
    lines ("\n".intercalate texts) = texts.flatMap lines := by
  induction texts with
  | nil => exact absurd rfl h
  | cons s texts ih =>
    cases texts with
    | nil => simp
    | cons t texts =>
      rw [String.intercalate_cons_cons, lines_append_newline, ih (by simp), ← List.flatMap_cons]

/-- Joined texts have at least as many lines as there are texts. -/
theorem length_le_length_flatMap_lines (texts : List String) :
    texts.length ≤ (texts.flatMap lines).length := by
  induction texts with
  | nil => rfl
  | cons s texts ih =>
    have hpos := length_lines_pos s
    rw [List.flatMap_cons, List.length_append, List.length_cons]
    omega

/-- There are exactly as many lines as texts only if no text has a newline. -/
theorem not_mem_of_length_flatMap_lines {texts : List String}
    (h : (texts.flatMap lines).length = texts.length) : ∀ s ∈ texts, '\n' ∉ s.toList := by
  induction texts with
  | nil => simp
  | cons s texts ih =>
    have hpos := length_lines_pos s
    have hle := length_le_length_flatMap_lines texts
    rw [List.flatMap_cons, List.length_append, List.length_cons] at h
    have hone : (lines s).length = 1 := by omega
    rw [List.forall_mem_cons]
    exact ⟨not_mem_of_length_lines hone, ih (by omega)⟩

theorem flatMap_lines_of_not_mem {texts : List String} (h : ∀ s ∈ texts, '\n' ∉ s.toList) :
    texts.flatMap lines = texts := by
  have hone : ∀ s ∈ texts, lines s = [s] := fun s hs => lines_of_not_mem (h s hs)
  rw [List.flatMap_congr hone, List.flatMap_singleton']

/-! ### Newlines of a point -/

namespace LineProtocol

/-- Escapes add backslashes and nothing else. -/
theorem mem_escape {special : Char → Bool} {c : Char} (hc : c ≠ '\\') (s : String) :
    c ∈ (Text.escape special '\\' s).toList ↔ c ∈ s.toList := by
  have hescaped : ∀ d, c ∈ escaped special d ↔ c = d := by
    intro d
    unfold escaped
    split_ifs <;> simp [hc]
  rw [toList_escape, List.mem_flatMap]
  simp [hescaped]

theorem newline_mem_writeTag (tag : String × String) :
    '\n' ∈ (writeTag tag).toList ↔ '\n' ∈ tag.1.toList ∨ '\n' ∈ tag.2.toList := by
  simp [writeTag, escapeName, mem_escape]

/-- Of the values only texts have newlines. -/
theorem newline_mem_encodeField (v : FieldValue) :
    '\n' ∈ (encodeField v).toList ↔ ∃ s, v = .text s ∧ '\n' ∈ s.toList := by
  cases v with
  | float x => simpa using not_mem_float (by decide) (by decide) (by decide) x
  | int n => simpa using not_mem_int (by decide) (by decide) (by decide) n
  | bool b => cases b <;> simp [encodeField]
  | text s => simp [encodeField, mem_escape]

theorem newline_mem_writeField (field : String × FieldValue) :
    '\n' ∈ (writeField field).toList ↔
      '\n' ∈ field.1.toList ∨ ∃ s, field.2 = .text s ∧ '\n' ∈ s.toList := by
  simp [writeField, escapeName, mem_escape, newline_mem_encodeField]

/-- Separators add no newlines. -/
theorem newline_mem_writeClause {α : Type} (write : α → String) (as : List α) :
    '\n' ∈ (Statement.writeClause "," "," write as).toList ↔ ∃ a ∈ as, '\n' ∈ (write a).toList := by
  induction as with
  | nil => simp [Statement.writeClause]
  | cons a as ih =>
    rw [writeClause_cons]
    simp [ih]

theorem newline_mem_intercalate {α : Type} (write : α → String) (as : List α) :
    '\n' ∈ (",".intercalate (as.map write)).toList ↔ ∃ a ∈ as, '\n' ∈ (write a).toList := by
  cases as with
  | nil => simp
  | cons a as =>
    rw [← newline_mem_writeClause, Statement.writeClause]
    · rw [String.toList_append, List.mem_append]
      simp
    · simp

/-- The newlines of a line are those of the measurement, of the tags that are written and of the fields. -/
theorem newline_mem_encodePoint_iff (p : Point) : '\n' ∈ (encodePoint p).toList ↔
    '\n' ∈ p.measurement.toList ∨
      (∃ tag ∈ writtenTags p.tags, '\n' ∈ tag.1.toList ∨ '\n' ∈ tag.2.toList) ∨
      ∃ field ∈ p.fields, '\n' ∈ field.1.toList ∨ ∃ s, field.2 = .text s ∧ '\n' ∈ s.toList := by
  have htime : '\n' ∉ (toString p.time).toList := Json.not_mem_toString (by decide) (by decide) p.time
  have hmeasurement : '\n' ∈ (escapeMeasurement p.measurement).toList ↔ '\n' ∈ p.measurement.toList :=
    mem_escape (by decide) p.measurement
  have hblank : '\n' ∉ " ".toList := by decide
  simp only [toList_encodePoint, List.mem_append, htime, hblank, hmeasurement, newline_mem_writeClause,
    newline_mem_intercalate, newline_mem_writeTag, newline_mem_writeField, false_or, or_false]

end LineProtocol

/-! ### Points of documents -/

/-- A point is made of a document. -/
def Point.IsBuilt (p : Point) : Prop :=
  ∃ measurement document time, Point.ofFlat measurement (Document.flatten document) time = .ok p

/-- The fields of a point are those of its document. -/
theorem Point.fields_of_ofFlat {measurement : String} {document : List (String × Json)} {time : ℤ}
    {p : Point} (h : Point.ofFlat measurement document time = .ok p) :
    p.fields = document.filterMap Point.field? := by
  unfold Point.ofFlat at h
  split at h
  · cases h
  · obtain rfl := Except.ok.inj h
    rfl

/-- Points of documents have no texts as fields. -/
theorem Point.IsBuilt.ne_text {p : Point} (hp : p.IsBuilt) :
    ∀ field ∈ p.fields, ∀ s, field.2 ≠ .text s := by
  obtain ⟨measurement, document, time, h⟩ := hp
  rw [Point.fields_of_ofFlat h]
  rintro ⟨name, v⟩ hfield s rfl
  obtain ⟨⟨path, j⟩, hleaf, hvalue⟩ := List.mem_filterMap.1 hfield
  have hscalar := Document.isScalar_of_mem_flatten hleaf
  cases j <;> simp [Point.field?, Point.numberField, Json.isScalar] at hvalue hscalar
  split at hvalue <;> simp at hvalue

/-- No name and no value of a tag that is written has a newline. -/
@[mk_iff]
structure Point.OneLine (p : Point) : Prop where
  measurement : '\n' ∉ p.measurement.toList
  tags : ∀ tag ∈ writtenTags p.tags, '\n' ∉ tag.1.toList ∧ '\n' ∉ tag.2.toList
  fields : ∀ field ∈ p.fields, '\n' ∉ field.1.toList

instance (p : Point) : Decidable p.OneLine :=
  decidable_of_iff _ (Point.oneLine_iff p).symm

/-- The line of a point of a document has no newline if and only if the point has none. -/
theorem Point.IsBuilt.newline_not_mem_iff {p : Point} (hp : p.IsBuilt) :
    '\n' ∉ (encodePoint p).toList ↔ p.OneLine := by
  rw [newline_mem_encodePoint_iff]
  constructor
  · intro h
    obtain ⟨hmeasurement, htags, hfields⟩ : _ ∧ _ ∧ _ := by simpa only [not_or] using h
    refine ⟨hmeasurement, fun tag htag => ?_, fun field hfield hname => ?_⟩
    · exact not_or.1 fun hnewline => htags ⟨tag, htag, hnewline⟩
    · exact hfields ⟨field, hfield, .inl hname⟩
  · rintro h (hmeasurement | ⟨tag, htag, hname | hvalue⟩ | ⟨field, hfield, hname | ⟨s, hs, -⟩⟩)
    · exact h.measurement hmeasurement
    · exact (h.tags tag htag).1 hname
    · exact (h.tags tag htag).2 hvalue
    · exact h.fields field hfield hname
    · exact hp.ne_text field hfield s hs

namespace LineProtocol

/-- The lines of a batch are those of its points, in order. -/
theorem lines_encodePoints {points : List Point} (hne : points ≠ []) :
    lines (encodePoints points) = (points.map encodePoint).flatMap lines :=
  lines_intercalate (by simpa using hne)

/-- A batch of points of documents has one line for each point, and it is the line of that point, if and
only if no name and no tag has a newline. A batch never has fewer lines than points. -/
theorem lines_encodePoints_iff {points : List Point} (hne : points ≠ [])
    (hbuilt : ∀ p ∈ points, p.IsBuilt) :
    points.length ≤ (lines (encodePoints points)).length ∧
      ((lines (encodePoints points)).length = points.length ↔ ∀ p ∈ points, p.OneLine) ∧
      (lines (encodePoints points) = points.map encodePoint ↔ ∀ p ∈ points, p.OneLine) := by
  have hnewline : (∀ s ∈ points.map encodePoint, '\n' ∉ s.toList) ↔ ∀ p ∈ points, p.OneLine := by
    rw [List.forall_mem_map]
    exact forall₂_congr fun p hp => (hbuilt p hp).newline_not_mem_iff
  have hlength : (points.map encodePoint).length = points.length := List.length_map encodePoint
  rw [lines_encodePoints hne, ← hnewline, ← hlength]
  refine ⟨length_le_length_flatMap_lines _, ⟨not_mem_of_length_flatMap_lines, fun h => ?_⟩,
    ⟨fun h => not_mem_of_length_flatMap_lines (congrArg List.length h), flatMap_lines_of_not_mem⟩⟩
  rw [flatMap_lines_of_not_mem h]

/-- Two visits, the second without a city. -/
def visits : List Point :=
  [⟨"page views", [("city", "New York"), ("page.path", "/a,b")], [("count", .int 3)], 1704067200000⟩,
    ⟨"page views", [("city", ""), ("page.path", "/")], [("bot", .bool true), ("count", .int 1)], 0⟩]

theorem lines_encodePoints_iff_visits : visits ≠ [] ∧ (∀ p ∈ visits, p.IsBuilt) ∧
    (∀ p ∈ visits, p.OneLine) ∧ lines (encodePoints visits) = visits.map encodePoint ∧
    (lines (encodePoints visits)).length = 2 := by
  have hbuilt : ∀ p ∈ visits, p.IsBuilt := by
    intro p hp
    rcases List.mem_cons.1 hp with rfl | hp
    · exact ⟨"page views", .object [("city", .string "New York"), ("count", .ofInt 3),
        ("page", .object [("path", .string "/a,b")])], 1704067200000, rfl⟩
    · obtain rfl := List.mem_singleton.1 hp
      exact ⟨"page views", .object [("bot", .bool true), ("city", .string ""), ("count", .ofInt 1),
        ("page", .object [("path", .string "/")])], 0, rfl⟩
  have hone : ∀ p ∈ visits, p.OneLine := by decide
  obtain ⟨-, hlength, hlines⟩ := lines_encodePoints_iff (by decide : visits ≠ []) hbuilt
  exact ⟨by decide, hbuilt, hone, hlines.2 hone, hlength.2 hone⟩

/-- A city with a newline ends its line early, and what follows is the line of a point that no document
has. -/
theorem newline_forges_point :
    ∃ p, Point.ofFlat "events" (Document.flatten
        (.object [("city", .string "New\nYork"), ("count", .ofInt 1)])) 0 = .ok p ∧
      lines (encodePoints [p]) = ["events,city=New", encodePoint ⟨"York", [], [("count", .int 1)], 0⟩] :=
  ⟨_, rfl, by decide +kernel⟩

end LineProtocol

end SeriesPivot
