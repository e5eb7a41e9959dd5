import SeriesPivot.Http.Route

/-!
# Paths and resources

Every resource has one path (`Route.path`), and this path is the only one that leads to it.

* `Text.splitOn_eq_iff`: the pieces between the slashes of a text are the only list of pieces without
  slashes that make up the text when joined by slashes.
* `ofPath?_eq_some_iff`: a path leads to a resource if and only if it is the path of the resource.
-/

namespace SeriesPivot

namespace Text

theorem splitOn_eq_splitOnP (p : Char → Bool) (cs : List Char) : splitOn p cs = cs.splitOnP p := by
  induction cs with
  | nil => rfl
  | cons c cs ih =>
    rw [splitOn, List.splitOnP_cons_eq_if_modifyHead, ih]
    cases hp : p c with
    | true => rfl
    | false =>
      obtain ⟨piece, pieces, h⟩ := List.exists_cons_of_ne_nil (List.splitOnP_ne_nil p cs)
      simp [h]

/-- No separator is in any piece. -/
theorem eq_false_of_mem_splitOn {p : Char → Bool} {cs piece : List Char} (h : piece ∈ splitOn p cs)
    {c : Char} (hc : c ∈ piece) : p c = false := by
  induction cs generalizing piece with
  | nil => simp_all [splitOn]
  | cons d cs ih =>
    rw [splitOn] at h
    cases hp : p d with
    | true =>
      rcases List.mem_cons.1 (by simpa [hp] using h) with rfl | h
      · cases hc
      · exact ih h hc
    | false =>
      simp only [hp, Bool.false_eq_true, if_false] at h
      cases hs : splitOn p cs with
      | nil => simp_all
      | cons first pieces =>
        rw [hs] at h ih
        rcases List.mem_cons.1 h with rfl | h
        · rcases List.mem_cons.1 hc with rfl | hc
          · exact hp
          · exact ih List.mem_cons_self hc
        · exact ih (List.mem_cons_of_mem _ h) hc

/-- The pieces of a text are the only ones without separators that make it up. -/
theorem splitOn_eq_iff {x : Char} {cs : List Char} {pieces : List (List Char)} (hne : pieces ≠ []) :
    splitOn (· == x) cs = pieces ↔ cs = [x].intercalate pieces ∧ ∀ piece ∈ pieces, x ∉ piece := by
  rw [splitOn_eq_splitOnP, ← List.splitOn_eq_splitOnP]
  constructor
  · rintro rfl
    refine ⟨(List.intercalate_splitOn x).symm, fun piece hpiece hx => ?_⟩
    rw [List.splitOn_eq_splitOnP, ← splitOn_eq_splitOnP] at hpiece
    simpa using eq_false_of_mem_splitOn hpiece hx
  · rintro ⟨rfl, hpieces⟩
    exact List.splitOn_intercalate x hpieces hne

end Text

namespace Http.Route

/-- The pieces between the slashes of the path of a resource. -/
def segments : Route → List (List Char)
  | .query => [[], "api".toList, "v1".toList, "query".toList]
  | .plan => [[], "api".toList, "v1".toList, "plan".toList]
  | .documents key =>
    [[], "api".toList, "v1".toList, "collections".toList, key.toList, "documents".toList]
  | .stats key => [[], "api".toList, "v1".toList, "collections".toList, key.toList, "stats".toList]
  | .collection key => [[], "api".toList, "v1".toList, "collections".toList, key.toList]
  | .database => [[], "api".toList, "v1".toList, "database".toList]
  | .live => [[], "health".toList, "live".toList]
  | .ready => [[], "health".toList, "ready".toList]
  | .health => [[], "health".toList]

/-- The path of a resource. -/
def path : Route → String
  | .query => "/api/v1/query"
  | .plan => "/api/v1/plan"
  | .documents key => "/api/v1/collections/" ++ key ++ "/documents"
  | .stats key => "/api/v1/collections/" ++ key ++ "/stats"
  | .collection key => "/api/v1/collections/" ++ key
  | .database => "/api/v1/database"
  | .live => "/health/live"
  | .ready => "/health/ready"
  | .health => "/health"

/-- Whether the key of a resource is one piece of a path; that of a collection itself is not empty. -/
def Keyed : Route → Prop
  | .documents key | .stats key => '/' ∉ key.toList
  | .collection key => '/' ∉ key.toList ∧ key ≠ ""
  | .query | .plan | .database | .live | .ready | .health => True

theorem segments_ne_nil (route : Route) : route.segments ≠ [] := by
  cases route <;> simp [segments]

theorem toList_path (route : Route) : route.path.toList = ['/'].intercalate route.segments := by
  cases route with
  | query | plan | database | live | ready | health => exact (by decide)
  | documents key =>
    show ("/api/v1/collections/" ++ key ++ "/documents").toList = _
    simp [segments, List.intercalate_cons_cons]
  | stats key =>
    show ("/api/v1/collections/" ++ key ++ "/stats").toList = _
    simp [segments, List.intercalate_cons_cons]
  | collection key =>
    show ("/api/v1/collections/" ++ key).toList = _
    simp [segments, List.intercalate_cons_cons]

/-- No slash is in a piece of the path of a resource if none is in its key. -/
theorem not_mem_of_mem_segments {route : Route} (h : route.Keyed) {piece : List Char}
    (hpiece : piece ∈ route.segments) : '/' ∉ piece := by
  cases route with
  | query | plan | database | live | ready | health =>
    revert piece
    simp only [segments]
    decide
  | documents key | stats key =>
    simp only [segments, List.mem_cons, List.not_mem_nil, or_false] at hpiece
    rcases hpiece with rfl | rfl | rfl | rfl | rfl | rfl
    all_goals first | exact h | decide
  | collection key =>
    simp only [segments, List.mem_cons, List.not_mem_nil, or_false] at hpiece
    rcases hpiece with rfl | rfl | rfl | rfl | rfl
    all_goals first | exact h.1 | decide

/-! ### Where paths lead to -/

theorem segments_of_ofApiPath? {pieces : List (List Char)} {route : Route}
    (h : ofApiPath? pieces = some route) :
    route.segments = [] :: "api".toList :: "v1".toList :: pieces ∧
      ∀ key, route = .collection key → key ≠ "" := by
  unfold ofApiPath? at h
  split at h
  case h_1 =>
    split at h
    · cases h; simp_all [segments]
    split at h
    · cases h; simp_all [segments]
    split at h <;> cases h
    simp_all [segments]
  case h_2 =>
    split at h <;> cases h
    simp_all [segments]
  case h_3 =>
    split at h <;> try cases h
    split at h
    · cases h; simp_all [segments]
    split at h <;> cases h
    simp_all [segments]
  case h_4 => cases h

theorem segments_of_ofHealthPath? {pieces : List (List Char)} {route : Route}
    (h : ofHealthPath? pieces = some route) :
    route.segments = [] :: "health".toList :: pieces ∧ ∀ key, route = .collection key → key ≠ "" := by
  unfold ofHealthPath? at h
  split at h
  case h_1 => cases h; simp [segments]
  case h_2 =>
    split at h
    · cases h; simp_all [segments]
    split at h <;> cases h
    simp_all [segments]
  case h_3 => cases h

/-- A path that leads to a resource has the pieces of the path of the resource. -/
theorem segments_of_ofPath? {path : String} {route : Route} (h : ofPath? path = some route) :
    route.segments = Text.splitOn (· == '/') path.toList ∧
      ∀ key, route = .collection key → key ≠ "" := by
  unfold ofPath? at h
  split at h
  case h_1 a rest hpieces =>
    rw [hpieces]
    split at h
    case isTrue ha =>
      rw [ha]
      exact segments_of_ofHealthPath? h
    case isFalse =>
      split at h
      case h_1 b rest =>
        split at h
        case isTrue hab =>
          rw [hab.1, hab.2]
          exact segments_of_ofApiPath? h
        case isFalse => cases h
      case h_2 => cases h
  case h_2 => cases h

/-- The pieces of the path of a resource lead to it. -/
theorem ofPath?_of_segments {path : String} {route : Route} (hkeyed : route.Keyed)
    (h : Text.splitOn (· == '/') path.toList = route.segments) : ofPath? path = some route := by
  unfold ofPath?
  rw [h]
  cases route with
  | query | plan | database | live | ready | health => rfl
  | documents key | stats key => simp [segments, ofApiPath?]
  | collection key => simpa [segments, ofApiPath?] using hkeyed.2

/-- A path leads to a resource if and only if it is the path of the resource. -/
theorem ofPath?_eq_some_iff {path : String} {route : Route} :
    ofPath? path = some route ↔ path = route.path ∧ route.Keyed := by
  have hpath : path = route.path ↔ path.toList = ['/'].intercalate route.segments := by
    rw [← toList_path, String.toList_inj]
  constructor
  · intro h
    obtain ⟨hsegments, hkey⟩ := segments_of_ofPath? h
    obtain ⟨hlist, hslash⟩ := (Text.splitOn_eq_iff route.segments_ne_nil).1 hsegments.symm
    refine ⟨hpath.2 hlist, ?_⟩
    cases route with
    | query | plan | database | live | ready | health => trivial
    | documents key | stats key => exact hslash key.toList (by simp [segments])
    | collection key => exact ⟨hslash key.toList (by simp [segments]), hkey key rfl⟩
  · rintro ⟨h, hkeyed⟩
    exact ofPath?_of_segments hkeyed ((Text.splitOn_eq_iff route.segments_ne_nil).2
      ⟨hpath.1 h, fun piece => not_mem_of_mem_segments hkeyed⟩)

end Http.Route

end SeriesPivot
