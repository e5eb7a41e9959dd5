import SeriesPivot.Descriptor.Codec
import SeriesPivot.Proofs.Plan.Groupings
import SeriesPivot.Proofs.Statement.Single

/-!
# Statements of a plan are single

Every text of a query is quoted in its statements or written out from a number, with two exceptions: the
name of a function that is not known and the width of time buckets are passed on to the store as they are.
So a query makes a store take its statements apart by these texts, and by no others.

* `QueryDescriptor.verbatim` are the texts of a query that its statements show as they are.
* `isSingle_of_mem_verbatim_form`: a statement of the plan shows no others as they are, except for the widths
  of known intervals.
* `isSingle_statements`: if they are single, then all statements of the plan are; and any text that is not
  single makes a statement that is not, as the function of a metric and as an interval.
-/

namespace SeriesPivot

/-- The width of time buckets, if it is none of the known ones. -/
def Interval.verbatim : Interval → List String
  | .raw text => [text]
  | _ => []

/-- The texts of a query that its statements show as they are: names of functions of metrics that are read
from the store, and the width of time buckets, if a dimension is a date. Largest values have neither. -/
def QueryDescriptor.verbatim (defaultInterval : Interval) (q : QueryDescriptor) : List String :=
  match q.limit with
  | some _ => []
  | none =>
    (q.executables.flatMap fun item => (item.1.aggregation.getD .sum).verbatim) ++
      if q.dimensions.any fun d => d.datatype == .date then (q.interval.getD defaultInterval).verbatim
      else []

namespace QueryPlan

open Statement

variable {hash : String → String} {defaultInterval : Interval} {uid : String} {q : QueryDescriptor}
  {plan : QueryPlan}

/-- What is shown of the request of a dimension or a metric is shown as it is only in the name of the
metric's function. -/
theorem verbatim_of_mem_requests {members : List (Metric × CollectionRef)}
    (hmembers : ∀ item ∈ members, item ∈ q.executables) {request : String × ProjectExpr}
    (hrequest : request ∈ q.requests members) {text : String}
    (htext : text ∈ (Column.ofProjection none request.1 request.2).verbatim) :
    text ∈ q.executables.flatMap fun item => (item.1.aggregation.getD .sum).verbatim := by
  rcases List.mem_append.1 hrequest with hdimension | hmetric
  · -- a dimension asks for a column or for the time
    obtain ⟨d, -, hd⟩ := List.mem_filterMap.1 hdimension
    unfold Dimension.projected? at hd
    cases hdatatype : d.datatype <;> simp only [hdatatype] at hd <;> cases hd <;> cases htext
  · obtain ⟨item, hitem, hasked⟩ := List.mem_filterMap.1 hmetric
    unfold Metric.projected? at hasked
    split_ifs at hasked
    cases hasked
    exact List.mem_flatMap_of_mem (hmembers item hitem) htext

/-- Time buckets are shown with the width that the query names, or else with the default one. -/
theorem verbatim_of_mem_group_shared {g : String × GroupExpr}
    (hg : g ∈ (Clauses.shared defaultInterval q).group) {text : String} (htext : text ∈ g.2.verbatim) :
    text = (q.interval.getD defaultInterval).suffix ∧
      (q.dimensions.any fun d => d.datatype == .date) = true := by
  rw [Clauses.group_shared] at hg
  obtain ⟨d, hd, hgrouped⟩ := List.mem_filterMap.1 (Keyed.mem_of_mem_putAll hg)
  unfold Dimension.grouped? at hgrouped
  cases hdatatype : d.datatype <;> simp only [hdatatype] at hgrouped <;> cases hgrouped
  case date => exact ⟨List.mem_singleton.1 htext, List.any_eq_true.2 ⟨d, hd, by simp [hdatatype]⟩⟩
  all_goals cases htext

theorem isSingle_suffix {interval : Interval} (h : ∀ text ∈ interval.verbatim, IsSingle text) :
    IsSingle interval.suffix := by
  cases interval with
  | raw text => exact h text (List.mem_singleton_self text)
  | second | minute | hour | day | week => decide

/-- Largest values are shown without functions. -/
theorem verbatim_ofProjection_some (n : Nat) (shown : String) (e : ProjectExpr) :
    (Column.ofProjection (some n) shown e).verbatim = [] := by
  cases e <;> rfl

/-- What the statements of a plan show as it is comes from the texts that the query is known to pass on, or
is the width of a known interval. -/
theorem isSingle_of_mem_verbatim_form (h : compile hash defaultInterval uid q = .ok plan)
    (hverbatim : ∀ text ∈ q.verbatim defaultInterval, IsSingle text) {p : String × SubQuery}
    (hp : p ∈ plan.subQueries) (fillZero : Bool) {text : String}
    (htext : text ∈ (p.2.form fillZero).verbatim) : IsSingle text := by
  have hgroup := ofGroup_of_mem h hp
  obtain ⟨hgroups, hlimit⟩ := SubQuery.group_ofGroup hgroup
  have hproject := SubQuery.project_ofGroup hgroup
  simp only [Form.verbatim, SubQuery.form, shownGroups, hgroups, hlimit, hproject] at htext
  cases hcap : q.limit with
  | some n =>
    simp [hcap, verbatim_ofProjection_some] at htext
  | none =>
    simp only [QueryDescriptor.verbatim, hcap, List.mem_append] at hverbatim
    simp only [hcap, Option.isNone_none, if_true] at htext
    rcases List.mem_append.1 htext with hcolumn | hshown
    · obtain ⟨column, hcolumn, hin⟩ := List.mem_flatMap.1 hcolumn
      obtain ⟨request, hrequest, rfl⟩ := List.mem_map.1 hcolumn
      exact hverbatim text (.inl (verbatim_of_mem_requests (fun item hitem => List.mem_of_mem_filter hitem)
        (Keyed.mem_of_mem_putAll hrequest) hin))
    · obtain ⟨g, hg, hin⟩ := List.mem_flatMap.1 hshown
      obtain ⟨named, hnamed, rfl⟩ := List.mem_map.1 hg
      obtain ⟨rfl, hdate⟩ := verbatim_of_mem_group_shared hnamed hin
      rw [if_pos hdate] at hverbatim
      exact isSingle_suffix fun text htext => hverbatim text (.inr htext)

/-- A query for visits by the function of this name. -/
def calling (name : String) : QueryDescriptor :=
  { QueryDescriptor.empty with
    metrics := [{ Metric.named "visits" with
      aggregation := some (.other name), collection := some ⟨"events", none⟩ }] }

/-- A query for visits in time buckets of this width. -/
def bucketing (width : String) : QueryDescriptor :=
  { QueryDescriptor.empty with
    dimensions := [⟨"day", .date, none, none⟩]
    interval := some (.raw width)
    metrics := [{ Metric.named "visits" with collection := some ⟨"events", none⟩ }] }

theorem render_calling (hash : String → String) (defaultInterval : Interval) (uid : String)
    (fillZero : Bool) (name : String) :
    ∃ plan, compile hash defaultInterval uid (calling name) = .ok plan ∧ ∃ p ∈ plan.subQueries,
      render fillZero p.2 = "select " ++ name ++ "(visits) as visits from events" := by
  refine ⟨_, rfl, _, List.mem_cons_self, ?_⟩
  have hquoted : quoteIdent "visits" = "visits" ∧ quoteIdent "events" = "events" := by decide
  show "select " ++ (name ++ "(" ++ quoteIdent "visits" ++ ")" ++ " as " ++ quoteIdent "visits") ++
    " from " ++ quoteIdent "events" ++ "" ++ "" = _
  rw [hquoted.1, hquoted.2, ← String.toList_inj]
  simp

theorem render_bucketing (hash : String → String) (defaultInterval : Interval) (uid : String)
    (fillZero : Bool) (width : String) :
    ∃ plan, compile hash defaultInterval uid (bucketing width) = .ok plan ∧ ∃ p ∈ plan.subQueries,
      render fillZero p.2 = "select time, sum(visits) as visits from events group by time(1" ++ width ++
        ")" ++ writeFill fillZero := by
  refine ⟨_, rfl, _, List.mem_cons_self, ?_⟩
  have hquoted : quoteIdent "visits" = "visits" ∧ quoteIdent "events" = "events" := by decide
  show "select " ++ ("time" ++ ", " ++
      ("sum(" ++ quoteIdent "visits" ++ ")" ++ " as " ++ quoteIdent "visits")) ++
    " from " ++ quoteIdent "events" ++
    (" group by " ++ ("time(1" ++ width ++ ")") ++ (if fillZero then " fill(0)" else "")) ++ "" = _
  rw [hquoted.1, hquoted.2, ← String.toList_inj]
  simp [writeFill]

/-- If the texts are single that a query passes on as they are, then all statements of its plan are single,
whatever else it is made of. Any text that is not single makes a statement that is not, as the function of
a metric and as an interval. -/
theorem isSingle_statements (hash : String → String) (defaultInterval : Interval) (uid : String)
    (fillZero : Bool) :
    (∀ q plan, compile hash defaultInterval uid q = .ok plan →
      (∀ text ∈ q.verbatim defaultInterval, IsSingle text) →
        ∀ s ∈ plan.statements fillZero, IsSingle s.2) ∧
    ∀ text, ¬ IsSingle text → ∀ q ∈ [calling text, bucketing text],
      q.verbatim defaultInterval = [text] ∧ ∃ plan, compile hash defaultInterval uid q = .ok plan ∧
        ∃ s ∈ plan.statements fillZero, ¬ IsSingle s.2 := by
  refine ⟨fun q plan h hverbatim s hs => ?_, fun text htext => ?_⟩
  · obtain ⟨p, hp, rfl⟩ := List.mem_map.1 hs
    exact isSingle_render fillZero fun text =>
      isSingle_of_mem_verbatim_form h hverbatim hp fillZero
  · rw [List.forall_mem_cons, List.forall_mem_singleton]
    constructor
    · obtain ⟨plan, hplan, p, hp, hrender⟩ := render_calling hash defaultInterval uid fillZero text
      refine ⟨rfl, plan, hplan, _, List.mem_map_of_mem hp, fun hsingle => htext ?_⟩
      replace hsingle : IsSingle (render fillZero p.2) := hsingle
      rw [hrender, isSingle_append_quiet_iff (Place.forall_isQuiet (by decide)),
        isSingle_quiet_append_iff (Place.forall_isQuiet (by decide))] at hsingle
      exact hsingle
    · obtain ⟨plan, hplan, p, hp, hrender⟩ := render_bucketing hash defaultInterval uid fillZero text
      refine ⟨rfl, plan, hplan, _, List.mem_map_of_mem hp, fun hsingle => htext ?_⟩
      replace hsingle : IsSingle (render fillZero p.2) := hsingle
      have hfill : ∀ c ∈ (writeFill fillZero).toList, Place.IsQuiet c :=
        Place.forall_isQuiet (by cases fillZero <;> decide)
      rw [hrender, isSingle_append_quiet_iff hfill,
        isSingle_append_quiet_iff (Place.forall_isQuiet (by decide)),
        isSingle_quiet_append_iff (Place.forall_isQuiet (by decide))] at hsingle
      exact hsingle

/-- A query with semicolons, quotes and backslashes in all of its texts but the names of its function and of
its interval, neither of which is known. -/
def quarrelsome : QueryDescriptor where
  dimensions := [⟨"day", .date, none, none⟩, ⟨"a;\"b", .string, some "c\\';d", none⟩]
  metrics := [{ Metric.named "x'; drop database y; --" with
    aggregation := some (.other "percentile"), source := some "\";\\",
    collection := some ⟨"k;", some "m\\\";"⟩, filter := [⟨"f\"';", .lte, .string "v';\\"⟩] }]
  filter := [⟨";", .eq, .array [.string "';"]⟩]
  timeframe := none
  interval := some (.raw "5m")
  collection := none

/-- A name of a function that ends its statement and begins others. -/
def droppingName : String :=
  "sum(visits) from events; drop database analytics; select max"

theorem isSingle_statements_quarrelsome :
    ∃ plan, compile id .day "uid" quarrelsome = .ok plan ∧ plan.statements true ≠ [] ∧
      (∀ text ∈ quarrelsome.verbatim .day, IsSingle text) ∧
      (∀ s ∈ plan.statements true, IsSingle s.2) ∧
      ¬ IsSingle droppingName ∧ (bucketing droppingName).verbatim .day = [droppingName] := by
  obtain ⟨hsingle, hdropping⟩ := isSingle_statements id .day "uid" true
  have hverbatim : ∀ text ∈ quarrelsome.verbatim .day, IsSingle text := by decide
  have hname : ¬ IsSingle droppingName := by decide
  exact ⟨_, rfl, List.cons_ne_nil _ _, hverbatim, hsingle quarrelsome _ rfl hverbatim, hname,
    (hdropping droppingName hname (bucketing droppingName) (by simp)).1⟩

/-- A query can make a statement that is not single. -/
theorem exists_statement_not_isSingle :
    QueryDescriptor.ofJson? (.object [("metrics", .array [.object [("key", .string "visits"),
        ("aggregation", .string droppingName),
        ("collection", .object [("key", .string "events")])]])]) = some (calling droppingName) ∧
      ∃ plan, compile id .day "uid" (calling droppingName) = .ok plan ∧
        ∃ s ∈ plan.statements true, ¬ IsSingle s.2 ∧
          s.2 = "select sum(visits) from events; drop database analytics; " ++
            "select max(visits) as visits from events" := by
  refine ⟨by decide +kernel, _, rfl, _, List.mem_cons_self, ?_, ?_⟩
  · decide +kernel
  · decide +kernel

end QueryPlan

end SeriesPivot
