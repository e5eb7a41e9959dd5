import SeriesPivot.Proofs.Plan.Projections

/-!
# Groups lead projections

Each dimension of a query groups under a name and asks for a column under the same name. So a sub-query
begins with one column for each of its groups, in the order of the groups, whatever names dimensions share
and whatever metrics are keyed like a dimension.

* `Dimension.groupName?` is the name of a dimension, and `Dimension.grouped?` what it groups by.
* `group_shared`, `group_ofGroup`: the groups of a sub-query are those of the dimensions, put in one after
  another.
* `SubQuery.GroupsLead` says how the groups of a sub-query and its projections correspond.
* `QueryPlan.groups_lead`: so they do in a plan, and after each metric that is served on the way to it.
-/

namespace SeriesPivot

namespace Dimension

/-- The name under which a dimension groups: all dates have one name, and a plain dimension has its key. -/
def groupName? (d : Dimension) : Option String :=
  match d.datatype with
  | .date => some "time"
  | .ip | .number | .string => some d.key
  | .geo | .unknown _ => none

/-- What a dimension groups by: a date by time buckets, a plain dimension by its column. -/
def grouped? (interval : Interval) (d : Dimension) : Option (String × GroupExpr) :=
  match d.datatype with
  | .date => some ("time", .timeBucket interval.suffix)
  | .ip | .number | .string => some (d.key, .column (d.source.getD d.key))
  | .geo | .unknown _ => none

theorem map_fst_grouped? (interval : Interval) (d : Dimension) :
    (d.grouped? interval).map Prod.fst = d.groupName? := by
  unfold grouped? groupName?
  cases d.datatype <;> rfl

theorem map_fst_projected? (d : Dimension) : d.projected?.map Prod.fst = d.groupName? := by
  unfold projected? groupName?
  cases d.datatype <;> rfl

end Dimension

namespace Clauses

theorem group_addDimension (interval : Interval) (c : Clauses) (d : Dimension) :
    (c.addDimension interval d).group = Keyed.putAll c.group (d.grouped? interval).toList := by
  unfold addDimension Dimension.grouped?
  cases d.datatype <;> rfl

/-- The groups are what the dimensions group by. -/
theorem group_shared (defaultInterval : Interval) (q : QueryDescriptor) :
    (shared defaultInterval q).group = Keyed.putAll []
      (q.dimensions.filterMap (Dimension.grouped? (q.interval.getD defaultInterval))) := by
  rw [shared, Keyed.foldl_eq_putAll Clauses.group (group_addDimension _)]

end Clauses

/-! ### Groups and projections of a sub-query -/

namespace SubQuery

/-- A group of metrics makes the groups and the limit of the query into those of its sub-query. -/
theorem group_ofGroup {base : Clauses} {limit : Option Nat} {key : String}
    {group : List (Metric × CollectionRef)} {s : SubQuery} (h : ofGroup base limit key group = some s) :
    s.clauses.group = base.group ∧ s.clauses.limit = limit := by
  cases group with
  | nil => cases h
  | cons first rest =>
    cases h
    exact ⟨rfl, rfl⟩

/-- The groups of a sub-query are those of the dimensions, and they lead its projections. -/
structure GroupsLead (interval : Interval) (dimensions : List Dimension) (s : SubQuery) : Prop where
  /-- There is one group for each name, in the order in which the names come first. -/
  names : s.clauses.group.map Prod.fst = (dimensions.filterMap Dimension.groupName?).eraseDups
  /-- The last dimension with a name makes its group. -/
  last : ∀ before d after g, dimensions = before ++ d :: after → d.grouped? interval = some g →
    (∀ later ∈ after, later.groupName? ≠ some g.1) → g ∈ s.clauses.group
  /-- The first projections have the names of the groups. -/
  lead : (s.clauses.project.take s.clauses.group.length).map Prod.fst = s.clauses.group.map Prod.fst
  /-- All others have keys of metrics that are served, and these are no names of groups. -/
  rest : ∀ p ∈ s.clauses.project.drop s.clauses.group.length,
    p.1 ∈ s.metrics ∧ p.1 ∉ s.clauses.group.map Prod.fst

variable {defaultInterval : Interval} {q : QueryDescriptor} {limit : Option Nat} {key : String}
  {group : List (Metric × CollectionRef)} {s : SubQuery}

theorem names_of_ofGroup (h : ofGroup (Clauses.shared defaultInterval q) limit key group = some s) :
    s.clauses.group.map Prod.fst = (q.dimensions.filterMap Dimension.groupName?).eraseDups := by
  rw [(group_ofGroup h).1, Clauses.group_shared, Keyed.keys_putAll, List.map_filterMap]
  simp only [Dimension.map_fst_grouped?]

/-- The aliases of a sub-query are the names of its groups, and then what metrics ask for under other names. -/
theorem aliases_of_ofGroup (h : ofGroup (Clauses.shared defaultInterval q) limit key group = some s) :
    s.clauses.project.map Prod.fst = s.clauses.group.map Prod.fst ++
      (((group.filterMap fun item => item.1.projected?).map Prod.fst).removeAll
        (q.dimensions.filterMap Dimension.groupName?)).eraseDups := by
  rw [project_ofGroup h, Keyed.keys_putAll, QueryDescriptor.requests, List.map_append,
    List.eraseDups_append, List.map_filterMap, names_of_ofGroup h]
  simp only [Dimension.map_fst_projected?]

/-- What metrics ask for has the keys of metrics that are served. -/
theorem mem_metrics_of_projected? (h : ofGroup (Clauses.shared defaultInterval q) limit key group = some s)
    {name : String} (hname : name ∈ (group.filterMap fun item => item.1.projected?).map Prod.fst) :
    name ∈ s.metrics := by
  obtain ⟨request, hrequest, rfl⟩ := List.mem_map.1 hname
  obtain ⟨item, hitem, hasked⟩ := List.mem_filterMap.1 hrequest
  unfold Metric.projected? at hasked
  split_ifs at hasked
  cases hasked
  exact (mem_metrics_iff h item.1.key).2 ⟨item, hitem, rfl⟩

/-- A dimension makes the group of its name, if no later one has this name. -/
theorem mem_group_of_last (h : ofGroup (Clauses.shared defaultInterval q) limit key group = some s)
    {before after : List Dimension} {d : Dimension} {g : String × GroupExpr}
    (hsplit : q.dimensions = before ++ d :: after)
    (hd : d.grouped? (q.interval.getD defaultInterval) = some g)
    (hlast : ∀ later ∈ after, later.groupName? ≠ some g.1) : g ∈ s.clauses.group := by
  rw [(group_ofGroup h).1, Clauses.group_shared, hsplit, List.filterMap_append, List.filterMap_cons_some hd]
  refine Keyed.mem_of_find? (Keyed.find?_putAll_of_last fun other hother he => ?_)
  obtain ⟨later, hlater, hgrouped⟩ := List.mem_filterMap.1 hother
  refine hlast later hlater ?_
  rw [← Dimension.map_fst_grouped? (q.interval.getD defaultInterval), hgrouped, ← he]
  rfl

/-- The groups of the dimensions lead the projections of every group of metrics. -/
theorem groupsLead_ofGroup (h : ofGroup (Clauses.shared defaultInterval q) limit key group = some s) :
    s.GroupsLead (q.interval.getD defaultInterval) q.dimensions := by
  have haliases := aliases_of_ofGroup h
  have hlength : (s.clauses.group.map Prod.fst).length = s.clauses.group.length := List.length_map _
  refine ⟨names_of_ofGroup h, fun before d after g hsplit hd hlast => mem_group_of_last h hsplit hd hlast,
    ?_, fun p hp => ?_⟩
  · rw [List.map_take, haliases, List.take_left' hlength]
  · have hother := List.mem_map_of_mem (f := Prod.fst) hp
    rw [List.map_drop, haliases, List.drop_left' hlength, List.mem_eraseDups] at hother
    obtain ⟨hasked, hnew⟩ : p.1 ∈ (group.filterMap fun item => item.1.projected?).map Prod.fst ∧
        p.1 ∉ q.dimensions.filterMap Dimension.groupName? := by
      simpa [List.removeAll] using hother
    refine ⟨mem_metrics_of_projected? h hasked, fun hgroup => hnew ?_⟩
    rwa [names_of_ofGroup h, List.mem_eraseDups] at hgroup

end SubQuery

/-! ### Groups and projections of a plan -/

namespace QueryPlan

variable {hash : String → String} {defaultInterval : Interval} {uid : String} {q : QueryDescriptor}
  {plan : QueryPlan}

/-- In every sub-query of a plan there is one group for each name of the dimensions, and the first columns
are those of the groups, in the same order. All other columns are those of metrics that the sub-query serves.
This is so after any number of metrics that have been served on the way to the plan. -/
theorem groups_lead (h : compile hash defaultInterval uid q = .ok plan) :
    let interval := q.interval.getD defaultInterval
    (∀ p ∈ plan.subQueries, p.2.GroupsLead interval q.dimensions) ∧
    ∀ served more, q.executables = served ++ more →
      ∀ p ∈ served.foldl (SubQuery.serve hash (Clauses.shared defaultInterval q) q.limit) [],
        p.2.GroupsLead interval q.dimensions := by
  intro interval
  exact ⟨fun p hp => SubQuery.groupsLead_ofGroup (ofGroup_of_mem h hp), fun served more _ p hp =>
    SubQuery.groupsLead_ofGroup (SubQuery.ofGroup_of_mem_foldl_serve hash _ _ hp)⟩

/-- Visits by country, with two dimensions for the country, a plain dimension with the name of the date and a
metric with the key of a dimension. -/
def crowded : QueryDescriptor :=
  { QueryDescriptor.empty with
    dimensions := [⟨"day", .date, none, none⟩, ⟨"country", .string, some "user.country", none⟩,
      ⟨"place", .geo, none, none⟩, ⟨"country", .string, some "geo.country", none⟩,
      ⟨"time", .number, some "hour", none⟩]
    metrics := [{ Metric.named "visits" with collection := some ⟨"events", none⟩ },
      { Metric.named "country" with
        aggregation := some .distinct, collection := some ⟨"events", none⟩ }] }

theorem groups_lead_crowded :
    ∃ plan, compile id .day "uid" crowded = .ok plan ∧
    (∀ p ∈ plan.subQueries, p.2.GroupsLead .day crowded.dimensions) ∧
    (∀ served more, crowded.executables = served ++ more →
      ∀ p ∈ served.foldl (SubQuery.serve id (Clauses.shared .day crowded) crowded.limit) [],
        p.2.GroupsLead .day crowded.dimensions) ∧
    ∀ p ∈ plan.subQueries,
      p.2.clauses.group = [("time", .column "hour"), ("country", .column "geo.country")] ∧
      p.2.clauses.project = [("time", .column "hour"), ("country", .aggregate .distinct "country"),
        ("visits", .aggregate .sum "visits")] := by
  have hplan : compile id .day "uid" crowded = .ok _ := rfl
  obtain ⟨hall, hserved⟩ := groups_lead hplan
  exact ⟨_, hplan, hall, hserved, by decide⟩

end QueryPlan

end SeriesPivot
