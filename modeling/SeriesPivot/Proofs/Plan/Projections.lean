import SeriesPivot.Proofs.Plan.Sharing
import SeriesPivot.Statement

/-!
# What a sub-query projects

The dimensions of a query ask for their columns, and then each metric of a sub-query asks for its
aggregate. A request takes the place of an earlier one with the same alias, so a sub-query answers all
requests if and only if those with one alias ask for the same.

* `Dimension.projected?` and `Metric.projected?` are the requests.
* `QueryDescriptor.requests` lists the requests to a sub-query in order.
* `project_ofGroup`: the projections of a sub-query are these requests, put in one after another.
* `QueryPlan.projection?_of_last`: the last request with an alias counts.
-/

namespace SeriesPivot

/-- What a dimension asks for: a date for the time bucket, a plain dimension for its column under its key. -/
def Dimension.projected? (d : Dimension) : Option (String × ProjectExpr) :=
  match d.datatype with
  | .date => some ("time", .time)
  | .ip | .number | .string => some (d.key, .column (d.source.getD d.key))
  | .geo | .unknown _ => none

/-- What a metric asks for: its aggregate under its key, a sum if it names no function. A stand-in asks for
nothing. -/
def Metric.projected? (m : Metric) : Option (String × ProjectExpr) :=
  if m.isPlaceholder then none
  else some (m.key, .aggregate (m.aggregation.getD .sum) (m.source.getD m.key))

/-- What the dimensions of a query and then some of its metrics ask for, in order. -/
def QueryDescriptor.requests (q : QueryDescriptor) (members : List (Metric × CollectionRef)) :
    List (String × ProjectExpr) :=
  q.dimensions.filterMap Dimension.projected? ++ members.filterMap fun item => item.1.projected?

/-! ### Requests are put in one after another -/

namespace Clauses

theorem project_addDimension (interval : Interval) (c : Clauses) (d : Dimension) :
    (c.addDimension interval d).project = Keyed.putAll c.project d.projected?.toList := by
  unfold addDimension Dimension.projected?
  cases d.datatype <;> rfl

/-- The shared projections are what the dimensions ask for. -/
theorem project_shared (defaultInterval : Interval) (q : QueryDescriptor) :
    (shared defaultInterval q).project =
      Keyed.putAll [] (q.dimensions.filterMap Dimension.projected?) := by
  rw [shared, Keyed.foldl_eq_putAll Clauses.project (project_addDimension _)]

end Clauses

theorem Metric.projectInto_eq (m : Metric) (project : List (String × ProjectExpr)) :
    m.projectInto project = Keyed.putAll project m.projected?.toList := by
  unfold projectInto projected?
  split_ifs <;> rfl

namespace SubQuery

/-- The projections of a sub-query are the requests to it, put in one after another. -/
theorem project_ofGroup {defaultInterval : Interval} {q : QueryDescriptor} {limit : Option Nat}
    {key : String} {group : List (Metric × CollectionRef)} {s : SubQuery}
    (h : ofGroup (Clauses.shared defaultInterval q) limit key group = some s) :
    s.clauses.project = Keyed.putAll [] (q.requests group) := by
  cases group with
  | nil => cases h
  | cons first rest =>
    cases h
    rw [QueryDescriptor.requests, Keyed.putAll_append, ← Clauses.project_shared defaultInterval]
    exact Keyed.foldl_eq_putAll id (fun project item => item.1.projectInto_eq project) (first :: rest) _

end SubQuery

/-! ### Projections of a plan -/

namespace QueryPlan

variable {hash : String → String} {defaultInterval : Interval} {uid : String} {q : QueryDescriptor}
  {plan : QueryPlan}

theorem ofGroup_of_mem (h : compile hash defaultInterval uid q = .ok plan) {p : String × SubQuery}
    (hp : p ∈ plan.subQueries) :
    let base := Clauses.shared defaultInterval q
    SubQuery.ofGroup base q.limit p.1 (SubQuery.groupOf hash base q.executables p.1) = some p.2 := by
  rw [eq_of_compile_eq_ok h] at hp
  exact SubQuery.ofGroup_of_mem_foldl_serve hash _ _ hp

/-- The group of a sub-query are the metrics that need it. -/
theorem mem_groupOf_iff (hhash : Function.Injective hash)
    (h : compile hash defaultInterval uid q = .ok plan) {p : String × SubQuery}
    (hp : p ∈ plan.subQueries) {item : Metric × CollectionRef} (hi : item ∈ q.executables) :
    let base := Clauses.shared defaultInterval q
    item ∈ SubQuery.groupOf hash base q.executables p.1 ↔
      SubQuery.needs base item = (p.2.collection, p.2.clauses.conditions.shape) := by
  intro base
  obtain ⟨first, hfirst, -, hcollection, hconditions⟩ := SubQuery.exists_first (ofGroup_of_mem h hp)
  have hkey : SubQuery.keyFor hash base first.1 first.2 = p.1 :=
    beq_iff_eq.1 (List.mem_filter.1 hfirst).2
  rw [SubQuery.groupOf, List.mem_filter, beq_iff_eq, ← hkey, SubQuery.keyFor_eq_iff hhash, hcollection,
    hconditions]
  exact and_iff_right hi

/-- Under a hash without collisions, the projections of each sub-query are what the dimensions of the query
and the metrics that need the sub-query ask for: one for each alias, in the order in which the aliases came
in first, and the last request with an alias counts. So every request is answered if and only if requests
with one alias ask for the same. -/
theorem projection?_of_last (hhash : Function.Injective hash)
    (h : compile hash defaultInterval uid q = .ok plan) :
    let base := Clauses.shared defaultInterval q
    ∀ p ∈ plan.subQueries,
      let members := SubQuery.groupOf hash base q.executables p.1
      (∀ item ∈ q.executables, item ∈ members ↔
        SubQuery.needs base item = (p.2.collection, p.2.clauses.conditions.shape)) ∧
      p.2.clauses.project.map Prod.fst = ((q.requests members).map Prod.fst).eraseDups ∧
      (∀ before request after, q.requests members = before ++ request :: after →
        (∀ later ∈ after, later.1 ≠ request.1) →
          p.2.clauses.projection? request.1 = some request.2) ∧
      ((∀ request ∈ q.requests members, p.2.clauses.projection? request.1 = some request.2) ↔
        ∀ request ∈ q.requests members, ∀ other ∈ q.requests members,
          request.1 = other.1 → request.2 = other.2) := by
  intro base p hp members
  have hproject : p.2.clauses.project = Keyed.putAll [] (q.requests members) :=
    SubQuery.project_ofGroup (ofGroup_of_mem h hp)
  unfold Clauses.projection?
  rw [hproject]
  refine ⟨fun item hi => mem_groupOf_iff hhash h hp hi, Keyed.keys_putAll _,
    fun before request after hsplit hlast => ?_, Keyed.forall_find?_putAll_iff _⟩
  rw [hsplit]
  exact Keyed.find?_putAll_of_last hlast

/-- Visits and lengths of stay by day and country, and the number of countries under the name of that
dimension. The lengths are asked for twice under one name. -/
def byCountry : QueryDescriptor :=
  { QueryDescriptor.empty with
    dimensions := [⟨"day", .date, none, none⟩, ⟨"country", .string, some "user.country", none⟩]
    metrics := [{ Metric.named "visits" with collection := some ⟨"events", none⟩ },
      { Metric.named "length" with
        aggregation := some .mean, source := some "duration", collection := some ⟨"events", none⟩ },
      { Metric.named "country" with
        aggregation := some .distinct, source := some "user.country",
        collection := some ⟨"events", none⟩ },
      { Metric.named "views" with collection := some ⟨"pages", none⟩ },
      { Metric.named "length" with
        aggregation := some .max, source := some "duration", collection := some ⟨"events", none⟩ }] }

theorem projection?_of_last_byCountry :
    ∃ plan, compile id .day "uid" byCountry = .ok plan ∧ Function.Injective (id : String → String) ∧
    ∃ events ∈ plan.subQueries, ∃ pages ∈ plan.subQueries,
      events.2.clauses.project.map Prod.fst = ["time", "country", "visits", "length"] ∧
      events.2.clauses.projection? "time" = some .time ∧
      events.2.clauses.projection? "length" = some (.aggregate .max "duration") ∧
      ∀ request ∈ [("time", .time), ("country", .column "user.country"),
          ("views", .aggregate .sum "views")],
        pages.2.clauses.projection? request.1 = some request.2 := by
  obtain ⟨plan, hplan, events, hevents, pages, hpages, hkeys⟩ : ∃ plan,
      compile id .day "uid" byCountry = .ok plan ∧ ∃ events ∈ plan.subQueries,
        ∃ pages ∈ plan.subQueries, events.1 = "events_\x7b\x7d" ∧ pages.1 = "pages_\x7b\x7d" :=
    ⟨_, rfl, _, List.mem_cons_self, _, List.mem_cons_of_mem _ List.mem_cons_self, by decide⟩
  obtain ⟨-, haliases, hlast, -⟩ := projection?_of_last Function.injective_id hplan events hevents
  obtain ⟨-, -, -, hall⟩ := projection?_of_last Function.injective_id hplan pages hpages
  rw [hkeys.1] at haliases hlast
  rw [hkeys.2] at hall
  refine ⟨plan, hplan, Function.injective_id, events, hevents, pages, hpages, ?_, ?_, ?_, ?_⟩
  · rw [haliases]
    decide
  · exact hlast [] ("time", .time) _ rfl (by decide)
  · exact hlast [("time", .time), ("country", .column "user.country"),
      ("visits", .aggregate .sum "visits"), ("length", .aggregate .mean "duration"),
      ("country", .aggregate .distinct "user.country")] ("length", .aggregate .max "duration") [] rfl
      (by simp)
  · exact hall.2 (by decide)

/-- The number of countries takes the place of the country, and of the two lengths only the second one is
selected. -/
theorem alias_replaces_projection :
    ∃ plan, compile id .day "uid" byCountry = .ok plan ∧ ∃ p ∈ plan.subQueries,
      (∃ d ∈ byCountry.dimensions, d.datatype = .string ∧
        p.2.clauses.projection? d.key ≠ some (.column d.column)) ∧
      (∃ item ∈ byCountry.executables, item.1.isPlaceholder = false ∧
        SubQuery.needs (Clauses.shared .day byCountry) item =
          (p.2.collection, p.2.clauses.conditions.shape) ∧
        (item.1.key, .aggregate (item.1.aggregation.getD .sum) item.1.column) ∉ p.2.clauses.project) ∧
      Statement.render true p.2 = "select time, count(distinct(\"user.country\")) as country, " ++
        "sum(visits) as visits, max(duration) as length from events " ++
        "group by time(1d), \"user.country\" fill(0)" := by
  refine ⟨_, rfl, _, List.mem_cons_self, ⟨⟨"country", .string, some "user.country", none⟩, ?_, rfl, ?_⟩,
    ⟨({ Metric.named "length" with
        aggregation := some .mean, source := some "duration", collection := some ⟨"events", none⟩ },
      ⟨"events", none⟩), ?_, rfl, rfl, ?_⟩, ?_⟩
  · decide
  · decide
  · decide
  · decide
  · decide +kernel

end QueryPlan

end SeriesPivot
