import SeriesPivot.Store.LineProtocol
import SeriesPivot.Proofs.Binary64.Positional
import SeriesPivot.Proofs.Statement.Reading
import Mathlib.Tactic.MkIffOfInductiveProp

/-!
# Lines are read back

A line is read from the front: the measurement, tags, fields and the time. Four kinds of places have
characters of their own that need a backslash, and a backslash that escapes nothing stands for itself.

* `readEscaped` reads a text with escapes up to the first character that ends it.
* `decode` reads a whole line.
* `Point.Readable` says when this is possible: no name ends in a backslash, which would escape what
  follows the name.
* `decode_encodePoint`: a point is read back from its line, without the tags that have no value.
-/

namespace SeriesPivot

open Statement (readSeparated readClause writeClause readSeparated_intercalate readClause_writeClause)

namespace LineProtocol

/-! ### Reading -/

/-- A text up to the first of the characters `special` that is not escaped, and what follows. A backslash
escapes one of these characters, and in front of another one it stands for itself. -/
def readEscaped (special : Char → Bool) : List Char → List Char × List Char
  | [] => ([], [])
  | c :: cs =>
    if c = '\\' then
      match cs with
      | [] => (['\\'], [])
      | d :: ds =>
        if special d then (d :: (readEscaped special ds).1, (readEscaped special ds).2)
        else ('\\' :: (readEscaped special (d :: ds)).1, (readEscaped special (d :: ds)).2)
    else if special c then ([], c :: cs)
    else (c :: (readEscaped special cs).1, (readEscaped special cs).2)

/-- The characters that end a measurement if they are not escaped. -/
def endsMeasurement (c : Char) : Bool := c == ',' || c == ' '

/-- The characters that end a name or the value of a tag if they are not escaped. -/
def endsName (c : Char) : Bool := c == ',' || c == '=' || c == ' '

/-- The characters that are escaped in quotes; a quote ends the text if it is not. -/
def endsQuote (c : Char) : Bool := c == '\\' || c == '"'

/-- A tag. -/
def readTag (cs : List Char) : Option ((String × String) × List Char) := do
  let (name, cs) := readEscaped endsName cs
  let cs ← Text.stripStart? "=".toList cs
  let (value, cs) := readEscaped endsName cs
  some ((String.ofList name, String.ofList value), cs)

/-- A value without quotes: a truth value, an integer with its mark, or a double. -/
def ofWord (word : List Char) : Option FieldValue :=
  if word = "true".toList then some (.bool true)
  else if word = "false".toList then some (.bool false)
  else if word.getLast? = some 'i' then some (.int (Json.readInteger word.dropLast))
  else (Binary64.ofPositional word).map .float

/-- The value of a field. -/
def readValue : List Char → Option (FieldValue × List Char)
  | '"' :: cs => do
    let (text, cs) := readEscaped endsQuote cs
    let cs ← Text.stripStart? "\"".toList cs
    some (.text (String.ofList text), cs)
  | cs =>
    (ofWord (cs.takeWhile fun c => !endsMeasurement c)).map fun value =>
      (value, cs.dropWhile fun c => !endsMeasurement c)

/-- A field. -/
def readField (cs : List Char) : Option ((String × FieldValue) × List Char) := do
  let (name, cs) := readEscaped endsName cs
  let cs ← Text.stripStart? "=".toList cs
  let (value, cs) ← readValue cs
  some ((String.ofList name, value), cs)

/-- The point of a line. -/
def decode (line : String) : Option Point := do
  let (measurement, cs) := readEscaped endsMeasurement line.toList
  let (tags, cs) ← readClause ",".toList ",".toList readTag cs
  let cs ← Text.stripStart? " ".toList cs
  let (fields, cs) ← readSeparated ",".toList readField cs
  let cs ← Text.stripStart? " ".toList cs
  some ⟨String.ofList measurement, tags, fields, Json.readInteger cs⟩

/-! ### Escapes -/

/-- A character with a backslash before it if it is special. -/
def escaped (special : Char → Bool) (c : Char) : List Char :=
  if special c then ['\\', c] else [c]

theorem toList_escape (special : Char → Bool) (s : String) :
    (Text.escape special '\\' s).toList = s.toList.flatMap (escaped special) := by
  rw [Text.escape, Text.expand, String.toList_ofList]
  rfl

section

variable {special : Char → Bool} {c : Char} {cs : List Char}

theorem readEscaped_special (hc : special c = true) (hslash : c ≠ '\\') :
    readEscaped special (c :: cs) = ([], c :: cs) := by
  unfold readEscaped
  rw [if_neg hslash, if_pos hc]

theorem readEscaped_plain (hc : special c = false) (hslash : c ≠ '\\') :
    readEscaped special (c :: cs) =
      (c :: (readEscaped special cs).1, (readEscaped special cs).2) := by
  rw [readEscaped.eq_def]
  simp [hc, hslash]

theorem readEscaped_escape (hc : special c = true) : readEscaped special ('\\' :: c :: cs) =
    (c :: (readEscaped special cs).1, (readEscaped special cs).2) := by
  rw [readEscaped.eq_def]
  simp [hc]

theorem readEscaped_backslash (hc : special c = false) : readEscaped special ('\\' :: c :: cs) =
    ('\\' :: (readEscaped special (c :: cs)).1, (readEscaped special (c :: cs)).2) := by
  rw [readEscaped.eq_def]
  simp [hc]

end

/-- What may follow a text with escapes. -/
def EndsText (special : Char → Bool) (r : List Char) : Prop :=
  ∀ c ∈ r.head?, special c = true ∧ c ≠ '\\'

/-- If a backslash is not escaped, no text with escapes begins with a character that could be. -/
theorem exists_cons_escaped {special : Char → Bool} (hspecial : special '\\' = false) {s : List Char}
    (hs : s ≠ []) : ∃ c cs, s.flatMap (escaped special) = c :: cs ∧ special c = false := by
  cases s with
  | nil => exact absurd rfl hs
  | cons c s =>
    rw [List.flatMap_cons, escaped]
    cases hc : special c with
    | true => exact ⟨'\\', _, rfl, hspecial⟩
    | false => exact ⟨c, _, rfl, hc⟩

/-- A text with escapes is read as it was, unless its last character escapes what follows. -/
theorem readEscaped_escaped {special : Char → Bool} {s : List Char}
    (hs : special '\\' = true ∨ s.getLast? ≠ some '\\') {r : List Char} (hr : EndsText special r) :
    readEscaped special (s.flatMap (escaped special) ++ r) = (s, r) := by
  induction s with
  | nil =>
    cases r with
    | nil => rfl
    | cons c r =>
      obtain ⟨hc, hslash⟩ := hr c rfl
      exact readEscaped_special hc hslash
  | cons c s ih =>
    have hread : readEscaped special (s.flatMap (escaped special) ++ r) = (s, r) := by
      refine ih (hs.imp_right fun hlast hs' => hlast ?_)
      rw [List.getLast?_cons, hs', Option.getD_some]
    rw [List.flatMap_cons, List.append_assoc, escaped]
    cases hc : special c with
    | true =>
      rw [if_pos rfl, List.cons_append, List.singleton_append, readEscaped_escape hc, hread]
    | false =>
      rw [if_neg Bool.false_ne_true, List.singleton_append]
      by_cases hslash : c = '\\'
      · -- a backslash that stands for itself has something behind it that needs no escape
        subst hslash
        have hne : s ≠ [] := by
          rintro rfl
          exact hs.elim (by simp [hc]) fun hlast => hlast rfl
        obtain ⟨d, ds, hd, hplain⟩ := exists_cons_escaped hc hne
        rw [hd, List.cons_append] at hread ⊢
        rw [readEscaped_backslash hplain, hread]
      · rw [readEscaped_plain hc hslash, hread]

/-! ### Names and tags -/

/-- Whether a text does not end in a backslash. -/
def IsClosed (s : String) : Prop :=
  s.toList.getLast? ≠ some '\\'

instance (s : String) : Decidable (IsClosed s) :=
  inferInstanceAs (Decidable (s.toList.getLast? ≠ some '\\'))

theorem readEscaped_measurement {s : String} (hs : IsClosed s) {r : List Char}
    (hr : EndsText endsMeasurement r) :
    readEscaped endsMeasurement ((escapeMeasurement s).toList ++ r) = (s.toList, r) := by
  have hescape : (escapeMeasurement s).toList = s.toList.flatMap (escaped endsMeasurement) :=
    toList_escape endsMeasurement s
  rw [hescape]
  exact readEscaped_escaped (.inr hs) hr

theorem readEscaped_name {s : String} (hs : IsClosed s) {r : List Char} (hr : EndsText endsName r) :
    readEscaped endsName ((escapeName s).toList ++ r) = (s.toList, r) := by
  have hescape : (escapeName s).toList = s.toList.flatMap (escaped endsName) := toList_escape endsName s
  rw [hescape]
  exact readEscaped_escaped (.inr hs) hr

/-- A tag without its comma. -/
def writeTag (tag : String × String) : String :=
  escapeName tag.1 ++ "=" ++ escapeName tag.2

/-- The tags that are written. -/
def writtenTags (tags : List (String × String)) : List (String × String) :=
  tags.filter fun tag => !tag.2.isEmpty

/-- A tag is read as it was. -/
theorem readTag_writeTag {tag : String × String} (hname : IsClosed tag.1) (hvalue : IsClosed tag.2)
    {r : List Char} (hr : EndsText endsName r) :
    readTag ((writeTag tag).toList ++ r) = some (tag, r) := by
  have hequals : EndsText endsName ('=' :: ((escapeName tag.2).toList ++ r)) := by
    simp [EndsText, endsName]
  simp only [writeTag, String.toList_append, List.append_assoc]
  rw [show "=".toList = ['='] from rfl, List.singleton_append, readTag, readEscaped_name hname hequals]
  simp [Text.stripStart?, readEscaped_name hvalue hr]

/-- A clause that begins with its separator has the separator before each item. -/
theorem writeClause_cons {α : Type} (sep : String) (write : α → String) (a : α) (as : List α) :
    writeClause sep sep write (a :: as) = sep ++ write a ++ writeClause sep sep write as := by
  cases as with
  | nil => simp [writeClause]
  | cons b as => simp [writeClause, String.intercalate_cons_cons, String.append_assoc]

/-- A tag without a value is not written. -/
theorem encodeTags_eq (tags : List (String × String)) :
    encodeTags tags = writeClause "," "," writeTag (writtenTags tags) := by
  induction tags with
  | nil => rfl
  | cons tag tags ih =>
    have hcons : encodeTags (tag :: tags) =
        (if tag.2.isEmpty then "" else "," ++ writeTag tag) ++ encodeTags tags := by
      simp [encodeTags, writeTag, String.append_assoc]
    rw [hcons, ih, writtenTags, writtenTags, List.filter_cons]
    cases hempty : tag.2.isEmpty with
    | true => simp
    | false =>
      simp only [Bool.not_false, if_true]
      rw [writeClause_cons]
      rfl

/-! ### Values -/

/-- A word that is neither in quotes nor ended by a comma or a blank. -/
def IsWord (word : List Char) : Prop :=
  '"' ∉ word ∧ ',' ∉ word ∧ ' ' ∉ word

/-- A word in front of a comma or a blank is read as a whole. -/
theorem readValue_word {word : List Char} (hword : IsWord word) {r : List Char}
    (hr : EndsText endsMeasurement r) :
    readValue (word ++ r) = (ofWord word).map fun v => (v, r) := by
  obtain ⟨hquote, hcomma, hblank⟩ := hword
  have hgoes : ∀ c ∈ word, (!endsMeasurement c) = true := by
    intro c hc
    have hne : c ≠ ',' ∧ c ≠ ' ' :=
      ⟨ne_of_mem_of_not_mem hc hcomma, ne_of_mem_of_not_mem hc hblank⟩
    simp [endsMeasurement, hne.1, hne.2]
  have hstops : Text.Stops (fun c => !endsMeasurement c) r := by
    intro c hc
    simp [(hr c hc).1]
  rw [readValue, Text.takeWhile_append_of_stops hgoes hstops, Text.dropWhile_append_of_stops hgoes hstops]
  rintro cs hcs
  have hhead : (word ++ r).head? = some '"' := by rw [hcs]; rfl
  cases word with
  | nil => exact absurd (hr '"' hhead).1 (by decide)
  | cons c word => exact hquote (List.mem_cons.2 (.inl (Option.some.inj hhead).symm))

/-- A word that has the letters of no truth value is a number. -/
theorem ofWord_of_not_mem {word : List Char} (htrue : 't' ∉ word) (hfalse : 'f' ∉ word) :
    ofWord word = if word.getLast? = some 'i' then some (.int (Json.readInteger word.dropLast))
      else (Binary64.ofPositional word).map .float := by
  have hne : word ≠ "true".toList ∧ word ≠ "false".toList := by
    constructor
    · rintro rfl
      exact htrue (by decide)
    · rintro rfl
      exact hfalse (by decide)
  rw [ofWord, if_neg hne.1, if_neg hne.2]

theorem not_mem_int {c : Char} (hdigit : c.isDigit = false) (hsign : c ≠ '-') (hmark : c ≠ 'i')
    (n : ℤ) : c ∉ (encodeField (.int n)).toList := by
  rw [encodeField, String.toList_append, List.mem_append]
  rintro (h | h)
  · exact Json.not_mem_toString hdigit hsign n h
  · exact hmark (by simpa using h)

theorem not_mem_float {c : Char} (hdigit : c.isDigit = false) (hsign : c ≠ '-') (hpoint : c ≠ '.')
    (x : Binary64) : c ∉ (encodeField (.float x)).toList := by
  intro h
  rcases Binary64.mem_toPositional h with h | h | h
  · rw [hdigit] at h
    cases h
  · exact hpoint h
  · exact hsign h

theorem ofWord_int (n : ℤ) : ofWord (encodeField (.int n)).toList = some (.int n) := by
  rw [ofWord_of_not_mem (not_mem_int (by decide) (by decide) (by decide) n)
    (not_mem_int (by decide) (by decide) (by decide) n), encodeField, String.toList_append,
    show "i".toList = ['i'] from rfl, List.getLast?_concat, if_pos rfl, List.dropLast_concat,
    Json.readInteger_toString]

theorem ofWord_float {x : Binary64} (hx : x.Finite) :
    ofWord (encodeField (.float x)).toList = some (.float x) := by
  have hmark : (encodeField (.float x)).toList.getLast? ≠ some 'i' := fun h =>
    not_mem_float (by decide) (by decide) (by decide) x (List.mem_of_getLast? h)
  rw [ofWord_of_not_mem (not_mem_float (by decide) (by decide) (by decide) x)
    (not_mem_float (by decide) (by decide) (by decide) x), if_neg hmark, encodeField,
    Binary64.ofPositional_toPositional hx, Option.map_some]

/-- A value of a field is finite if it is a double. -/
def IsFinite (v : FieldValue) : Prop :=
  match v with
  | .float x => x.Finite
  | _ => True

instance (v : FieldValue) : Decidable (IsFinite v) :=
  match v with
  | .float x => inferInstanceAs (Decidable x.Finite)
  | .int _ => isTrue trivial
  | .bool _ => isTrue trivial
  | .text _ => isTrue trivial

/-- The value of a field is read as it was. -/
theorem readValue_encodeField {v : FieldValue} (hv : IsFinite v) {r : List Char}
    (hr : EndsText endsMeasurement r) : readValue ((encodeField v).toList ++ r) = some (v, r) := by
  cases v with
  | float x =>
    have hword : IsWord (encodeField (.float x)).toList := by
      refine ⟨?_, ?_, ?_⟩ <;> exact not_mem_float (by decide) (by decide) (by decide) x
    rw [readValue_word hword hr, ofWord_float hv, Option.map_some]
  | int n =>
    have hword : IsWord (encodeField (.int n)).toList := by
      refine ⟨?_, ?_, ?_⟩ <;> exact not_mem_int (by decide) (by decide) (by decide) n
    rw [readValue_word hword hr, ofWord_int n, Option.map_some]
  | bool b =>
    have hword : IsWord (encodeField (.bool b)).toList := by
      cases b <;> exact ⟨by decide, by decide, by decide⟩
    have hread : ofWord (encodeField (.bool b)).toList = some (.bool b) := by
      cases b <;> rfl
    rw [readValue_word hword hr, hread, Option.map_some]
  | text s =>
    have hquote : EndsText endsQuote ('"' :: r) := by simp [EndsText, endsQuote]
    have hread := readEscaped_escaped (s := s.toList) (.inl (show endsQuote '\\' = true from rfl)) hquote
    have hescape : (Text.escape (fun c => c == '\\' || c == '"') '\\' s).toList =
        s.toList.flatMap (escaped endsQuote) := toList_escape endsQuote s
    simp [encodeField, readValue, hescape, hread, Text.stripStart?]

/-! ### Fields and whole lines -/

/-- A field. -/
def writeField (field : String × FieldValue) : String :=
  escapeName field.1 ++ "=" ++ encodeField field.2

/-- A field is read as it was. -/
theorem readField_writeField {field : String × FieldValue} (hname : IsClosed field.1)
    (hvalue : IsFinite field.2) {r : List Char} (hr : EndsText endsMeasurement r) :
    readField ((writeField field).toList ++ r) = some (field, r) := by
  have hequals : EndsText endsName ('=' :: ((encodeField field.2).toList ++ r)) := by
    simp [EndsText, endsName]
  simp only [writeField, String.toList_append, List.append_assoc]
  rw [show "=".toList = ['='] from rfl, List.singleton_append, readField, readEscaped_name hname hequals]
  simp [Text.stripStart?, readValue_encodeField hvalue hr]

end LineProtocol

open LineProtocol

/-- A point that can be read back from its line. -/
@[mk_iff]
structure Point.Readable (p : Point) : Prop where
  has_field : p.fields ≠ []
  measurement : IsClosed p.measurement
  tags : ∀ tag ∈ writtenTags p.tags, IsClosed tag.1 ∧ IsClosed tag.2
  fields : ∀ field ∈ p.fields, IsClosed field.1 ∧ IsFinite field.2

instance (p : Point) : Decidable p.Readable :=
  decidable_of_iff _ (Point.readable_iff p).symm

namespace LineProtocol

theorem toList_encodePoint (p : Point) : (encodePoint p).toList =
    (escapeMeasurement p.measurement).toList ++
      ((writeClause "," "," writeTag (writtenTags p.tags)).toList ++
        (" ".toList ++ ((",".intercalate (p.fields.map writeField)).toList ++
          (" ".toList ++ (toString p.time).toList)))) := by
  simp only [encodePoint, encodeAt, encodeTags_eq, String.toList_append, List.append_assoc]
  rfl

/-- A measurement is followed by a tag or by the fields. -/
theorem endsText_writeClause (tags : List (String × String)) (r : List Char) :
    EndsText endsMeasurement ((writeClause "," "," writeTag tags).toList ++ (" ".toList ++ r)) := by
  cases tags with
  | nil => simp [writeClause, EndsText, endsMeasurement]
  | cons tag tags => simp [writeClause, EndsText, endsMeasurement]

/-- A point is read back from its line, without the tags that have no value. -/
theorem decode_encodePoint {p : Point} (hp : p.Readable) :
    decode (encodePoint p) = some { p with tags := writtenTags p.tags } := by
  have hmeasurement := fun r => readEscaped_measurement hp.measurement
    (endsText_writeClause (writtenTags p.tags) r)
  have htags := fun r => readClause_writeClause "," "," writeTag (r := " ".toList ++ r) (by decide) rfl rfl
    (fun tag htag more => readTag_writeTag (hp.tags tag htag).1 (hp.tags tag htag).2
      (r := ",".toList ++ more) (by simp [EndsText, endsName]))
    (fun tag htag => readTag_writeTag (hp.tags tag htag).1 (hp.tags tag htag).2
      (by simp [EndsText, endsName]))
  have hfields := fun r => readSeparated_intercalate "," writeField (r := " ".toList ++ r) (by decide) rfl
    hp.has_field
    (fun field hfield more => readField_writeField (hp.fields field hfield).1 (hp.fields field hfield).2
      (r := ",".toList ++ more) (by simp [EndsText, endsMeasurement]))
    (fun field hfield => readField_writeField (hp.fields field hfield).1 (hp.fields field hfield).2
      (by simp [EndsText, endsMeasurement]))
  rw [decode, toList_encodePoint, hmeasurement]
  simp only [Option.bind_eq_bind, Option.bind_some, htags, hfields, Text.stripStart?_append,
    Json.readInteger_toString, String.ofList_toList]

/-- A point with commas, blanks, equals signs, quotes and backslashes in all places. -/
def markedPoint : Point :=
  ⟨"page views, C:\\all=1", [("a=b", "x, y=z"), ("city", ""), ("path\\to", "\\ =\"")],
    [("bot", .bool true), ("count,all", .int (-3)), ("load \\1", .float ⟨false, 6755399441055744, 1022⟩),
      ("raw", .text "say \"hi\", C:\\")], 1704067200000⟩

theorem decode_encodePoint_marked : markedPoint.Readable ∧
    encodePoint markedPoint = "page\\ views\\,\\ C:\\all=1,a\\=b=x\\,\\ y\\=z,path\\to=\\\\ \\=\" " ++
      "bot=true,count\\,all=-3i,load\\ \\1=1.5,raw=\"say \\\"hi\\\", C:\\\\\" 1704067200000" ∧
    decode (encodePoint markedPoint) =
      some { markedPoint with tags := [("a=b", "x, y=z"), ("path\\to", "\\ =\"")] } := by
  have hreadable : markedPoint.Readable := by decide
  exact ⟨hreadable, by decide +kernel, decode_encodePoint hreadable⟩

end LineProtocol

end SeriesPivot
