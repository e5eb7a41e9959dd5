import SeriesPivot.Proofs.Provider.Points
import Mathlib.Data.Finset.Card

/-!
# Points that overwrite each other

A store tells points apart by their measurement, their tags and their time, and of points that agree in all
three it has the last one. Documents without a time are all inserted at the current time, so the points of a
batch of them are told apart by their tags alone, which are their texts that are not empty.

* `Point.identity` is what points are told apart by, and `Point.kept` are the points that a store has after
  a batch was written, the last one of each identity (`Point.mem_kept_iff`, `Point.length_kept`).
* `Insertion.identity_of_untimed`: the identity of the point of a document without a time.
* `LineProtocol.writtenTags_eq_of_encodeTags_eq`: tags are told by how they are written, unless a backslash
  at the end of a text escapes what follows.
* `Provider.insert_kept`: how many points a store has of a batch of such documents.
-/

namespace SeriesPivot

open LineProtocol

/-- What points are told apart by, with the tags as they are written. -/
structure Point.Identity where
  measurement : String
  tags : String
  /-- Epoch milliseconds. -/
  time : ℤ
  deriving DecidableEq

namespace Point

/-- What a point is told by. -/
def identity (p : Point) : Identity :=
  ⟨p.measurement, encodeTags p.tags, p.time⟩

/-- Write one point, in place of one that it cannot be told from. -/
def overwrite (kept : List Point) (p : Point) : List Point :=
  kept.filter (fun q => decide (q.identity ≠ p.identity)) ++ [p]

/-- The points that a store has after these were written one after another. -/
def kept (points : List Point) : List Point :=
  points.foldl overwrite []

/-! ### The last point of each identity -/

theorem kept_concat (points : List Point) (p : Point) :
    kept (points ++ [p]) = overwrite (kept points) p := by
  simp [kept]

theorem mem_overwrite_iff {kept : List Point} {p q : Point} :
    q ∈ overwrite kept p ↔ q ∈ kept ∧ q.identity ≠ p.identity ∨ q = p := by
  simp [overwrite]

/-- A point that is written adds its identity, if it is a new one. -/
theorem mem_identities_overwrite_iff {kept : List Point} {p : Point} {i : Identity} :
    i ∈ (overwrite kept p).map identity ↔ i ∈ kept.map identity ∨ i = p.identity := by
  simp only [List.mem_map, mem_overwrite_iff]
  constructor
  · rintro ⟨q, ⟨hq, -⟩ | rfl, rfl⟩
    · exact .inl ⟨q, hq, rfl⟩
    · exact .inr rfl
  · intro h
    by_cases hi : i = p.identity
    · exact ⟨p, .inr rfl, hi.symm⟩
    · obtain ⟨q, hq, rfl⟩ := h.resolve_right hi
      exact ⟨q, .inl ⟨hq, hi⟩, rfl⟩

theorem nodup_identities_overwrite {kept : List Point} (h : (kept.map identity).Nodup) (p : Point) :
    ((overwrite kept p).map identity).Nodup := by
  rw [overwrite, List.map_append, List.map_singleton, List.nodup_append]
  refine ⟨h.sublist (List.filter_sublist.map identity), List.nodup_singleton _, fun i hi j hj hij => ?_⟩
  obtain ⟨q, hq, rfl⟩ := List.mem_map.1 hi
  rw [List.mem_singleton.1 hj] at hij
  exact of_decide_eq_true (List.mem_filter.1 hq).2 hij

/-- A store has no two points that it cannot tell apart. -/
theorem nodup_identities_kept (points : List Point) : ((kept points).map identity).Nodup := by
  induction points using List.reverseRecOn with
  | nil => exact List.nodup_nil
  | append_singleton points p ih =>
    rw [kept_concat]
    exact nodup_identities_overwrite ih p

theorem mem_identities_kept_iff {points : List Point} {i : Identity} :
    i ∈ (kept points).map identity ↔ i ∈ points.map identity := by
  induction points using List.reverseRecOn with
  | nil => rfl
  | append_singleton points p ih =>
    rw [kept_concat, mem_identities_overwrite_iff, ih, List.map_append, List.mem_append, List.map_singleton,
      List.mem_singleton]

/-- Of the points of one identity a store has the last one. -/
theorem mem_kept_iff {points : List Point} {q : Point} : q ∈ kept points ↔
    ∃ before after, points = before ++ q :: after ∧ ∀ later ∈ after, later.identity ≠ q.identity := by
  induction points using List.reverseRecOn with
  | nil => simp [kept]
  | append_singleton points p ih =>
    rw [kept_concat, mem_overwrite_iff, ih]
    constructor
    · rintro (⟨⟨before, after, rfl, hafter⟩, hne⟩ | rfl)
      · refine ⟨before, after ++ [p], by simp, fun later hlater => ?_⟩
        rcases List.mem_append.1 hlater with hlater | hlater
        · exact hafter later hlater
        · rw [List.mem_singleton.1 hlater]
          exact hne.symm
      · exact ⟨points, [], rfl, by simp⟩
    · rintro ⟨before, after, hsplit, hafter⟩
      rcases List.eq_nil_or_concat after with rfl | ⟨after, last, rfl⟩
      · obtain ⟨-, hlast⟩ := List.append_inj' hsplit rfl
        exact .inr (List.singleton_inj.1 hlast).symm
      · rw [List.concat_eq_append] at hsplit hafter
        have hassoc : before ++ q :: (after ++ [last]) = before ++ q :: after ++ [last] := by simp
        obtain ⟨rfl, hlast⟩ := List.append_inj' (hsplit.trans hassoc) rfl
        obtain rfl := List.singleton_inj.1 hlast
        refine .inl ⟨⟨before, after, rfl, fun later hlater => ?_⟩, ?_⟩
        · exact hafter later (List.mem_append_left _ hlater)
        · exact (hafter p (by simp)).symm

/-- A store has one point for each identity. -/
theorem length_kept (points : List Point) :
    (kept points).length = (points.map identity).toFinset.card := by
  have hsame : ((kept points).map identity).toFinset = (points.map identity).toFinset := by
    ext i
    rw [List.mem_toFinset, List.mem_toFinset, mem_identities_kept_iff]
  rw [← hsame, List.toFinset_card_of_nodup (nodup_identities_kept points), List.length_map]

end Point

/-! ### Tags as they are written -/

namespace LineProtocol

theorem writtenTags_writtenTags (tags : List (String × String)) :
    writtenTags (writtenTags tags) = writtenTags tags := by
  simp [writtenTags]

/-- Whether no name and no value of the tags that are written ends in a backslash. -/
def TagsClosed (tags : List (String × String)) : Prop :=
  ∀ tag ∈ writtenTags tags, IsClosed tag.1 ∧ IsClosed tag.2

instance (tags : List (String × String)) : Decidable (TagsClosed tags) :=
  inferInstanceAs (Decidable (∀ tag ∈ writtenTags tags, _))

/-- Tags that are written alike are the same, but for those without a value. -/
theorem writtenTags_eq_of_encodeTags_eq {tags others : List (String × String)} (h : TagsClosed tags)
    (h' : TagsClosed others) (he : encodeTags tags = encodeTags others) :
    writtenTags tags = writtenTags others := by
  -- lines are read, so the tags are put into lines that differ in nothing else
  let pointOf (tags : List (String × String)) : Point := ⟨"m", tags, [("f", .bool true)], 0⟩
  have hmeasurement : IsClosed "m" := by decide
  have hfields : ∀ field ∈ [("f", FieldValue.bool true)], IsClosed field.1 ∧ IsFinite field.2 := by decide
  have hread : ∀ tags, TagsClosed tags → decode (encodePoint (pointOf tags)) =
      some { pointOf tags with tags := writtenTags tags } := fun tags htags =>
    decode_encodePoint ⟨List.cons_ne_nil _ _, hmeasurement, htags, hfields⟩
  have hline : encodePoint (pointOf tags) = encodePoint (pointOf others) := by
    simp only [encodePoint, encodeAt, pointOf, he]
  have hsame := (hread tags h).symm.trans ((congrArg decode hline).trans (hread others h'))
  exact congrArg Point.tags (Option.some.inj hsame)

end LineProtocol

/-! ### Documents without a time -/

namespace Insertion

open Document (flatten)

/-- Whether a document has none of the columns that may hold its time. -/
def Untimed (chosen : Option String) (document : Json) : Prop :=
  ∀ column ∈ flatten document, column.1 ∉ chosen.toList ++ ["time", "timestamp"]

instance (chosen : Option String) (document : Json) : Decidable (Untimed chosen document) :=
  inferInstanceAs (Decidable (∀ column ∈ flatten document, _))

/-- The text of a column under its name, if it has one that is not empty. -/
def text? (column : String × Json) : Option (String × String) :=
  match column.2 with
  | .string s => if s = "" then none else some (column.1, s)
  | .null | .bool _ | .number _ | .array _ | .object _ => none

/-- The texts of a document by their columns, but for empty ones. -/
def texts (document : Json) : List (String × String) :=
  (flatten document).filterMap text?

/-- The texts of a document are those of its tags that are written. -/
theorem texts_eq (document : Json) :
    texts document = writtenTags ((flatten document).filterMap Point.tag?) := by
  rw [texts, writtenTags, List.filter_filterMap]
  refine List.filterMap_congr fun column _ => ?_
  obtain ⟨name, j⟩ := column
  cases j with
  | string s => by_cases hs : s = "" <;> simp [text?, Point.tag?, Option.filter, hs]
  | null | bool _ | number _ | array _ | object _ => rfl

theorem writtenTags_texts (document : Json) : writtenTags (texts document) = texts document := by
  rw [texts_eq, writtenTags_writtenTags]

theorem encodeTags_texts (document : Json) :
    encodeTags (texts document) = encodeTags ((flatten document).filterMap Point.tag?) := by
  rw [encodeTags_eq, encodeTags_eq, texts_eq, writtenTags_writtenTags]

/-- A document without a time is told from others of its batch by its texts. -/
theorem identity_of_untimed {collection : CollectionRef} {chosen : Option String} {now : ℤ} {document : Json}
    {p : Point} (hp : point collection chosen now document = .ok p) (h : Untimed chosen document) :
    p.identity = ⟨collection.measurement, encodeTags (texts document), now⟩ := by
  have hall : without (timeFields chosen) (flatten document) = flatten document :=
    List.filter_eq_self.2 fun column hcolumn => by
      have hname : column.1 ∉ timeFields chosen := h column hcolumn
      simpa using hname
  have htime : time? (timeFields chosen) (flatten document) = none := by
    refine List.findSome?_eq_none_iff.2 fun name hname => timeless_iff.2 fun j hj => ?_
    exact absurd hname (h _ hj)
  obtain rfl := eq_of_point hp
  rw [Point.identity, encodeTags_texts, hall, htime, Option.getD_none]

/-- The identities of the points of a batch of documents without a time. -/
theorem identities_of_untimed {collection : CollectionRef} {chosen : Option String} {now : ℤ}
    {documents : List Json} {made : List Point} (h : points collection chosen now documents = .ok made)
    (huntimed : ∀ d ∈ documents, Untimed chosen d) : made.map Point.identity =
      documents.map fun d => ⟨collection.measurement, encodeTags (texts d), now⟩ := by
  have hall := forall₂_of_points h
  clear h
  induction hall with
  | nil => rfl
  | cons hp _ ih =>
    rw [List.forall_mem_cons] at huntimed
    rw [List.map_cons, List.map_cons, identity_of_untimed hp huntimed.1, ih huntimed.2]

end Insertion

namespace Provider

open Insertion

/-- An insertion that succeeds has written its points in one call. -/
theorem exists_of_insert_ok {p : Provider} {collection : CollectionRef} {chosen : Option String} {now : ℤ}
    {documents : List Json} {count : ℕ}
    (h : (p.insert collection chosen now documents).answer = .ok count) :
    ∃ made, points collection chosen now documents = .ok made ∧
      (p.insert collection chosen now documents).calls = [.write made] ∧ count = made.length := by
  cases hstore : p.store with
  | none => simp [insert, withStore, hstore] at h
  | some store =>
    cases hpoints : points collection chosen now documents with
    | error e =>
      rw [insert_of_error p hstore hpoints] at h
      cases h
    | ok made =>
      rw [insert_of_ok p hstore hpoints] at h ⊢
      refine ⟨made, rfl, rfl, ?_⟩
      split at h
      · exact (Except.ok.inj h).symm
      · cases h

/-- What a store has of a batch of documents without a time that was inserted. All points have the
measurement of the collection and the current time, so the store has one point for each way in which the
texts of the documents are written as tags: as many as were inserted if and only if no two documents have
their texts written alike. Documents with the same texts do, and documents with different texts do not,
unless one of the texts or its name ends in a backslash. -/
theorem insert_kept {p : Provider} {collection : CollectionRef} {chosen : Option String} {now : ℤ}
    {documents : List Json} {count : ℕ} (huntimed : ∀ d ∈ documents, Untimed chosen d)
    (haccepted : (p.insert collection chosen now documents).answer = .ok count) :
    let written := documents.map fun d => encodeTags (texts d)
    ∃ made, (p.insert collection chosen now documents).calls = [.write made] ∧
      count = documents.length ∧
      made.map Point.identity =
        written.map (fun tags => ⟨collection.storeKey.getD collection.key, tags, now⟩) ∧
      ((made.map Point.identity).Nodup ↔ written.Nodup) ∧
      (Point.kept made).length = written.toFinset.card ∧
      ((Point.kept made).length = count ↔ written.Nodup) ∧
      ∀ d ∈ documents, ∀ e ∈ documents, TagsClosed (texts d) → TagsClosed (texts e) →
        (encodeTags (texts d) = encodeTags (texts e) ↔ texts d = texts e) := by
  intro written
  obtain ⟨made, hpoints, hcalls, hcount⟩ := exists_of_insert_ok haccepted
  have hidentities : made.map Point.identity =
      written.map fun tags => ⟨collection.storeKey.getD collection.key, tags, now⟩ := by
    rw [identities_of_untimed hpoints huntimed, List.map_map]
    rfl
  have hinjective : Function.Injective
      fun tags => (⟨collection.storeKey.getD collection.key, tags, now⟩ : Point.Identity) := fun _ _ h =>
    congrArg Point.Identity.tags h
  have hlength : count = documents.length :=
    hcount.trans (forall₂_of_points hpoints).length_eq.symm
  have hwritten : written.length = count := by rw [List.length_map, hlength]
  have hkept : (Point.kept made).length = written.toFinset.card := by
    have himage : (made.map Point.identity).toFinset =
        written.toFinset.image fun tags => ⟨collection.storeKey.getD collection.key, tags, now⟩ := by
      ext i
      rw [hidentities]
      simp
    rw [Point.length_kept, himage, Finset.card_image_of_injective _ hinjective]
  refine ⟨made, hcalls, hlength, hidentities, ?_, hkept, ?_, fun d _ e _ hd he => ⟨fun h => ?_, ?_⟩⟩
  · rw [hidentities, List.nodup_map_iff hinjective]
  · rw [hkept, ← hwritten]
    exact Multiset.toFinset_card_eq_card_iff_nodup (m := (↑written : Multiset String))
  · have hsame := writtenTags_eq_of_encodeTags_eq hd he h
    rwa [writtenTags_texts, writtenTags_texts] at hsame
  · exact congrArg encodeTags

/-- An order from a country, in a city, with its count. -/
def order (country city : String) (count : ℤ) : Json :=
  .object [("city", .string city), ("count", .ofInt count), ("country", .string country), ("note", .null)]

/-- A store that takes whatever is written. -/
def openStore : Store where
  name := "open"
  database := "db"
  query _ := .ok RawResult.empty
  write _ := .ok ()
  ping := .ok ()

/-- Three orders of which the last two have the same texts, and so the store has two points. -/
theorem insert_kept_threeOrders :
    let p := create id (fun _ => "uid") QuerySettings.standard (some openStore)
    let documents := [order "US" "Oslo" 1, order "US" "" 2, order "US" "" 3]
    (∀ d ∈ documents, Untimed (some "at") d) ∧
    (p.insert ⟨"orders", none⟩ (some "at") 5 documents).answer = .ok 3 ∧
    ∃ made, (p.insert ⟨"orders", none⟩ (some "at") 5 documents).calls = [.write made] ∧
      (Point.kept made).length = 2 := by
  intro p documents
  have huntimed : ∀ d ∈ documents, Untimed (some "at") d := by decide
  have haccepted : (p.insert ⟨"orders", none⟩ (some "at") 5 documents).answer = .ok 3 := by decide +kernel
  obtain ⟨made, hcalls, -, -, -, hkept, -⟩ := insert_kept huntimed haccepted
  exact ⟨huntimed, haccepted, made, hcalls, hkept.trans (by decide +kernel)⟩

/-- Two orders from one country are reported as two points, and the store has one of them. -/
theorem same_texts_overwrite :
    let p := create id (fun _ => "uid") QuerySettings.standard (some openStore)
    let documents : List Json :=
      [.object [("country", .string "US"), ("n", .ofInt 1)],
        .object [("country", .string "US"), ("n", .ofInt 2)]]
    let points : List Point :=
      [⟨"events", [("country", "US")], [("n", .int 1)], 5⟩,
        ⟨"events", [("country", "US")], [("n", .int 2)], 5⟩]
    (∀ d ∈ documents, Untimed none d) ∧
    (p.insert ⟨"events", none⟩ none 5 documents).answer = .ok 2 ∧
    (p.insert ⟨"events", none⟩ none 5 documents).calls = [.write points] ∧
    ¬ (points.map Point.identity).Nodup ∧ (Point.kept points).length = 1 := by
  decide +kernel

end Provider

end SeriesPivot
