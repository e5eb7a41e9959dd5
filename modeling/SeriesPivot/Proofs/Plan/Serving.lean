import SeriesPivot.Plan.Compile
import SeriesPivot.Proofs.Assoc
import SeriesPivot.Proofs.Keyed

/-!
# Compiling in two phases

`QueryPlan.compile` lets one metric after another be served. Looked at as a whole, it first gathers what
all metrics share, and then groups the served metrics by the keys of their sub-queries.

* `QueryDescriptor.unknownDimension?` is the only thing that a query can fail by.
* `Match.restrict` puts filters into conditions, and `Timeframe.filters` are the bounds of time as filters.
* `Clauses.shared` are the clauses that all metrics share, and `QueryDescriptor.served` are the metrics
  that are read from the store.
* `SubQuery.ofGroup` is the sub-query of a group of metrics.
* `find?_foldl_serve`: after any metrics, the sub-query under a key is the one of its group.
* `QueryPlan.compile_eq_groups`: a plan has one sub-query for each text of a collection and conditions.
-/

namespace SeriesPivot

/-- The key and the type of the first dimension that cannot be grouped by. -/
def QueryDescriptor.unknownDimension? (q : QueryDescriptor) : Option (String × String) :=
  q.dimensions.findSome? fun d =>
    match d.datatype with
    | .unknown datatype => some (d.key, datatype)
    | _ => none

/-- What a metric reads from the store, if it names a collection and has no formula. -/
def Metric.reading? (m : Metric) : Option (Metric × CollectionRef) :=
  if m.formula.isNone then m.collection.map fun c => (m, c) else none

/-- The metrics that are read from the store, each with its collection. In a query without metrics that
is a stand-in for the collection that the query, or else its first dimension, names. -/
def QueryDescriptor.served (q : QueryDescriptor) : List (Metric × CollectionRef) :=
  match q.metrics with
  | [] => ((q.collection.or (q.dimensions.head?.bind (·.collection))).map fun c =>
      (⟨"fake", none, none, some c, [], none, true⟩, c)).toList
  | metrics => metrics.filterMap Metric.reading?

theorem QueryDescriptor.groupedCollection_eq (q : QueryDescriptor) :
    q.groupedCollection = q.collection.or (q.dimensions.head?.bind (·.collection)) := by
  unfold groupedCollection
  cases q.collection <;> rfl

theorem QueryDescriptor.executables_eq_served (q : QueryDescriptor) : q.executables = q.served := by
  have hreading : q.executables = (q.metrics ++ if q.metrics.isEmpty then
      (q.groupedCollection.map Metric.placeholder).toList else []).filterMap Metric.reading? := by
    refine List.filterMap_congr fun m _ => ?_
    unfold Metric.isExecutable Metric.reading?
    cases m.collection <;> cases m.formula <;> rfl
  rw [hreading, groupedCollection_eq]
  unfold served
  -- the stand-in is executable, and it stands alone
  cases hm : q.metrics with
  | nil =>
    cases q.collection.or (q.dimensions.head?.bind (·.collection)) <;>
      simp [Metric.reading?, Metric.placeholder, Metric.named]
  | cons m rest => simp

/-- A query with metrics is served for these. -/
theorem QueryDescriptor.mem_executables {q : QueryDescriptor} (h : q.metrics ≠ [])
    {item : Metric × CollectionRef} (hi : item ∈ q.executables) :
    item.1 ∈ q.metrics ∧ item.1.collection = some item.2 := by
  rw [executables_eq_served, served] at hi
  split at hi
  · exact absurd ‹_› h
  · obtain ⟨m, hm, hreading⟩ := List.mem_filterMap.1 hi
    unfold Metric.reading? at hreading
    split_ifs at hreading
    obtain ⟨c, hc, rfl⟩ := Option.map_eq_some_iff.1 hreading
    exact ⟨hm, hc⟩

/-! ### Conditions -/

namespace Match

/-- Put in a filter: its value, under its operator, under its field. -/
def put (m : Match) (f : Filter) : Match :=
  Assoc.insert f.field (Assoc.insert f.operator f.value ((Assoc.find? f.field m).getD [])) m

/-- Put in filters one after another. -/
def restrict (m : Match) (filters : List Filter) : Match :=
  filters.foldl put m

theorem restrict_append (m : Match) (filters more : List Filter) :
    m.restrict (filters ++ more) = (m.restrict filters).restrict more :=
  List.foldl_append ..

theorem restrict_concat (m : Match) (filters : List Filter) (f : Filter) :
    m.restrict (filters ++ [f]) = (m.restrict filters).put f :=
  restrict_append ..

end Match

/-- The bounds of a range of time as filters on the time column: the instants before and after which nothing
is read, as literals. A bound that denotes no instant is none. -/
def Timeframe.filters : Timeframe → List Filter
  | .lastItems _ => []
  | .range start stop =>
    ((start.bind Json.instant?).map fun t => ⟨"time", .gt, .string t.toLiteral⟩).toList ++
      ((stop.bind Json.instant?).map fun t => ⟨"time", .lt, .string t.toLiteral⟩).toList

namespace Clauses

/-- Filters change conditions only. -/
theorem withFilters_eq (c : Clauses) (filters : List Filter) :
    c.withFilters filters = { c with conditions := c.conditions.restrict filters } := by
  induction filters generalizing c with
  | nil => rfl
  | cons f filters ih => exact ih (c.withFilter f)

theorem ofRange_eq (start stop : Option Json) : ofRange start stop =
    { empty with conditions := Match.restrict [] (Timeframe.range start stop).filters } := by
  have horder : ¬ Operator.lt < Operator.gt := by decide
  simp only [ofRange, Timeframe.filters, bound]
  cases start.bind Json.instant? <;> cases stop.bind Json.instant? <;>
    simp [Match.restrict, Match.put, empty, timeColumn, Assoc.insert, Assoc.find?, horder]

/-- A timeframe makes conditions only. -/
theorem ofTimeframe_eq (timeframe : Option Timeframe) : ofTimeframe timeframe =
    { empty with conditions := Match.restrict [] ((timeframe.map Timeframe.filters).getD []) } := by
  rcases timeframe with - | count | ⟨start, stop⟩
  · rfl
  · rfl
  · exact ofRange_eq start stop

end Clauses

/-! ### Shared clauses -/

namespace Clauses

/-- Add a dimension of a type that can be grouped by: a date by buckets of time, any other by its column. -/
def addDimension (interval : Interval) (c : Clauses) (d : Dimension) : Clauses :=
  match d.datatype with
  | .date =>
    { c with
      project := Keyed.put "time" .time c.project
      group := Keyed.put "time" (.timeBucket interval.suffix) c.group }
  | .ip | .number | .string =>
    { c with
      project := Keyed.put d.key (.column (d.source.getD d.key)) c.project
      group := Keyed.put d.key (.column (d.source.getD d.key)) c.group }
  | .geo | .unknown _ => c

/-- The clauses from the timeframe, the filters and the dimensions of a query, the latest time first. -/
def shared (defaultInterval : Interval) (q : QueryDescriptor) : Clauses :=
  q.dimensions.foldl (addDimension (q.interval.getD defaultInterval))
    { conditions := Match.restrict [] ((q.timeframe.map Timeframe.filters).getD [] ++ q.filter)
      project := []
      group := []
      sort := [⟨"time", true⟩]
      limit := none }

theorem shared_eq (defaultInterval : Interval) (q : QueryDescriptor) :
    shared defaultInterval q = q.dimensions.foldl (addDimension (q.interval.getD defaultInterval))
      ((ofTimeframe q.timeframe).withFilters q.filter) := by
  rw [withFilters_eq, ofTimeframe_eq, shared, Match.restrict_append]
  rfl

theorem withDimensions_eq (interval : Interval) (c : Clauses) (dimensions : List Dimension) :
    c.withDimensions interval dimensions =
      match dimensions.findSome? fun d =>
        match d.datatype with
        | .unknown datatype => some (d.key, datatype)
        | _ => none with
      | some (key, datatype) => .error (.unknownDimensionType key datatype)
      | none => .ok (dimensions.foldl (addDimension interval) c) := by
  induction dimensions generalizing c with
  | nil => rfl
  | cons d rest ih =>
    rw [withDimensions, List.findSome?_cons, List.foldl_cons]
    unfold withDimension addDimension
    cases d.datatype <;> first | rfl | exact ih _

theorem ofQuery_eq (defaultInterval : Interval) (q : QueryDescriptor) :
    ofQuery defaultInterval q =
      match q.unknownDimension? with
      | some (key, datatype) => .error (.unknownDimensionType key datatype)
      | none => .ok (shared defaultInterval q) :=
  shared_eq defaultInterval q ▸ withDimensions_eq _ _ _

end Clauses

/-- Put the aggregate of a metric into a projection; a stand-in adds none. -/
def Metric.projectInto (m : Metric) (project : List (String × ProjectExpr)) :
    List (String × ProjectExpr) :=
  if m.isPlaceholder then project
  else Keyed.put m.key (.aggregate (m.aggregation.getD .sum) (m.source.getD m.key)) project

/-- A metric changes the projection only. -/
theorem Clauses.withMetric_eq (c : Clauses) (m : Metric) :
    c.withMetric m = { c with project := m.projectInto c.project } := by
  unfold withMetric Metric.projectInto
  split_ifs <;> rfl

/-! ### Sub-queries of groups -/

namespace SubQuery

/-- The sub-query of a group of metrics. It reads the collection of the first one under the shared conditions
and the filters of the first one, and it projects the aggregates of all of them. -/
def ofGroup (base : Clauses) (limit : Option Nat) (key : String) :
    List (Metric × CollectionRef) → Option SubQuery
  | [] => none
  | first :: rest => some {
      key := key
      collection := first.2.key
      measurement := first.2.storeKey.getD first.2.key
      clauses := {
        conditions := base.conditions.restrict first.1.filter
        project := (first :: rest).foldl (fun project item => item.1.projectInto project) base.project
        group := base.group
        sort := base.sort
        limit := limit }
      metrics := ((first :: rest).map fun item => item.1.key).eraseDups }

theorem find?_isSome_foldl_projectInto {name : String} (items : List (Metric × CollectionRef))
    {project : List (String × ProjectExpr)} (h : (Keyed.find? name project).isSome) :
    (Keyed.find? name
      (items.foldl (fun project item => item.1.projectInto project) project)).isSome := by
  induction items generalizing project with
  | nil => exact h
  | cons item items ih =>
    refine ih ?_
    simp only [Metric.projectInto]
    split_ifs
    · exact h
    · exact Keyed.find?_isSome_put _ h

/-- A first metric starts the sub-query of its group. -/
theorem ofGroup_singleton (base : Clauses) (limit : Option Nat) (key : String)
    (item : Metric × CollectionRef) :
    ofGroup base limit key [item] = some (start key item.2 (clausesFor base item.1) item.1 limit) := by
  simp only [ofGroup, start, clausesFor, Clauses.withFilters_eq, Clauses.withMetric_eq, Clauses.withLimit]
  simp [List.eraseDups_cons, CollectionRef.measurement]

/-- One more metric joins the sub-query of its group. -/
theorem ofGroup_concat (base : Clauses) (limit : Option Nat) (key : String)
    {group : List (Metric × CollectionRef)} {s : SubQuery} (h : ofGroup base limit key group = some s)
    (item : Metric × CollectionRef) :
    ofGroup base limit key (group ++ [item]) =
      some (s.join (clausesFor base item.1) item.1 limit) := by
  cases group with
  | nil => cases h
  | cons first rest =>
    cases h
    simp only [List.cons_append, ofGroup, join, Clauses.withMetric_eq, Clauses.withLimit,
      Clauses.withProjectionsFrom, clausesFor]
    -- every shared projection is there already
    rw [Keyed.foldl_putNew_eq_self]
    · simp only [← List.cons_append, List.foldl_append, List.map_append, List.foldl_cons,
        List.foldl_nil, List.map_cons, List.map_nil]
      rw [eraseDups_concat]
      simp only [List.contains_eq_mem, List.mem_eraseDups, decide_eq_true_eq]
    · intro p hp
      rw [Clauses.withFilters_eq] at hp
      exact find?_isSome_foldl_projectInto (first :: rest) (Keyed.find?_isSome_of_mem hp)

/-- The key of a metric is the hash of its collection and of its conditions as a text. -/
theorem keyFor_eq (hash : String → String) (base : Clauses) (m : Metric) (c : CollectionRef) :
    keyFor hash base m c = hash (c.key ++ "_" ++
      (Json.object ((base.conditions.restrict m.filter).map fun onField =>
        (onField.1, .object (onField.2.map fun condition =>
          (condition.1.name, condition.2))))).compress) := by
  rw [keyFor, identity, clausesFor, Clauses.withFilters_eq]
  rfl

/-! ### The invariant of serving -/

/-- The items that are served under a key. -/
def groupOf (hash : String → String) (base : Clauses) (items : List (Metric × CollectionRef))
    (key : String) : List (Metric × CollectionRef) :=
  items.filter fun item => keyFor hash base item.1 item.2 == key

variable (hash : String → String) (base : Clauses) (limit : Option Nat)

/-- What serving one more item leaves under a key. -/
theorem find?_serve (subQueries : List (String × SubQuery)) (item : Metric × CollectionRef)
    (key : String) :
    Assoc.find? key (serve hash base limit subQueries item) =
      if key = keyFor hash base item.1 item.2 then
        some (match Assoc.find? key subQueries with
          | some s => s.join (clausesFor base item.1) item.1 limit
          | none => start key item.2 (clausesFor base item.1) item.1 limit)
      else Assoc.find? key subQueries := by
  unfold serve
  rw [Assoc.find?_insert]
  split_ifs with h
  · subst h
    rfl
  · rfl

/-- After any items, the sub-query under a key is the one of its group. -/
theorem find?_foldl_serve (items : List (Metric × CollectionRef)) (key : String) :
    Assoc.find? key (items.foldl (serve hash base limit) []) =
      ofGroup base limit key (groupOf hash base items key) := by
  induction items using List.reverseRecOn with
  | nil => rfl
  | append_singleton items item ih =>
    rw [List.foldl_append, List.foldl_cons, List.foldl_nil, find?_serve, ih]
    split_ifs with h
    -- the item starts its group or joins it
    · have hgroup : groupOf hash base (items ++ [item]) key = groupOf hash base items key ++ [item] := by
        simp [groupOf, h]
      rw [hgroup]
      cases hs : ofGroup base limit key (groupOf hash base items key) with
      | some s => exact (ofGroup_concat base limit key hs item).symm
      | none =>
        have hnil : groupOf hash base items key = [] := by
          cases hg : groupOf hash base items key with
          | nil => rfl
          | cons first rest => simp [hg, ofGroup] at hs
        rw [hnil]
        exact (ofGroup_singleton base limit key item).symm
    · simp [groupOf, Ne.symm h]

theorem sorted_foldl_serve (items : List (Metric × CollectionRef)) :
    Assoc.Sorted (items.foldl (serve hash base limit) []) := by
  induction items using List.reverseRecOn with
  | nil => exact Assoc.sorted_nil
  | append_singleton items item ih =>
    rw [List.foldl_append]
    exact Assoc.sorted_insert _ _ ih

theorem ofGroup_isSome_iff (key : String) (group : List (Metric × CollectionRef)) :
    (ofGroup base limit key group).isSome ↔ group ≠ [] := by
  cases group <;> simp [ofGroup]

/-- There is one sub-query for each key of a served item. -/
theorem keys_foldl_serve (items : List (Metric × CollectionRef)) :
    ((items.foldl (serve hash base limit) []).map Prod.fst).Perm
      (items.map fun item => keyFor hash base item.1 item.2).eraseDups := by
  refine (List.perm_ext_iff_of_nodup (Assoc.nodup_keys (sorted_foldl_serve hash base limit items))
    (nodup_eraseDups _)).2 fun key => ?_
  rw [← Assoc.find?_isSome_iff, find?_foldl_serve, ofGroup_isSome_iff, List.mem_eraseDups]
  simp [groupOf, List.filter_eq_nil_iff]

/-- After any items, each sub-query is the one of its group. -/
theorem ofGroup_of_mem_foldl_serve {items : List (Metric × CollectionRef)} {p : String × SubQuery}
    (hp : p ∈ items.foldl (serve hash base limit) []) :
    ofGroup base limit p.1 (groupOf hash base items p.1) = some p.2 := by
  rw [← find?_foldl_serve]
  exact (Assoc.find?_eq_some_iff (Assoc.nodup_keys (sorted_foldl_serve hash base limit items))).2 hp

end SubQuery

namespace QueryDescriptor

theorem limit_eq_some_iff (q : QueryDescriptor) (n : Nat) :
    q.limit = some n ↔ q.timeframe = some (.lastItems n) := by
  unfold limit
  split <;> simp_all

end QueryDescriptor

namespace QueryPlan

/-- What compiling a query gives: the sub-queries of its metrics over the shared clauses, unless a dimension
cannot be grouped by. -/
theorem compile_eq (hash : String → String) (defaultInterval : Interval) (uid : String)
    (q : QueryDescriptor) :
    compile hash defaultInterval uid q =
      match q.unknownDimension? with
      | some (key, datatype) => .error (.unknownDimensionType key datatype)
      | none => .ok ⟨uid, q.executables.foldl
          (SubQuery.serve hash (Clauses.shared defaultInterval q) q.limit) [], q.dimensions, q.metrics,
          q.limit, q.dimensions.any fun d => d.datatype == .date⟩ := by
  unfold compile
  rw [Clauses.ofQuery_eq]
  cases q.unknownDimension? <;> rfl

/-- Compiling fails exactly at the first dimension that cannot be grouped by. Otherwise the key of a served
metric is the hash of the collection that it reads, an underscore, and the shared conditions and its own
filters as an object of objects. The plan has one sub-query for each such key, and this is the sub-query of
all metrics with that key. The limit is the number of items of the timeframe, if it has one. -/
theorem compile_eq_groups (hash : String → String) (defaultInterval : Interval) (uid : String)
    (q : QueryDescriptor) :
    match q.unknownDimension? with
    | some (key, datatype) =>
      compile hash defaultInterval uid q = .error (.unknownDimensionType key datatype)
    | none =>
      let base := Clauses.shared defaultInterval q
      let keyOf (item : Metric × CollectionRef) : String :=
        hash (item.2.key ++ "_" ++ (Json.object ((base.conditions.restrict item.1.filter).map fun onField =>
          (onField.1, .object (onField.2.map fun condition =>
            (condition.1.name, condition.2))))).compress)
      ∃ subQueries, compile hash defaultInterval uid q = .ok ⟨uid, subQueries, q.dimensions, q.metrics,
          q.limit, q.dimensions.any fun d => d.datatype == .date⟩ ∧
        (∀ n, q.limit = some n ↔ q.timeframe = some (.lastItems n)) ∧
        Assoc.Sorted subQueries ∧
        (subQueries.map Prod.fst).Perm (q.served.map keyOf).eraseDups ∧
        ∀ key, Assoc.find? key subQueries =
          SubQuery.ofGroup base q.limit key (q.served.filter fun item => keyOf item == key) := by
  rw [compile_eq]
  cases q.unknownDimension? with
  | some e => rfl
  | none =>
    rw [QueryDescriptor.executables_eq_served]
    refine ⟨_, rfl, q.limit_eq_some_iff, SubQuery.sorted_foldl_serve hash _ _ _, ?_, fun key => ?_⟩
    · have hkeys := SubQuery.keys_foldl_serve hash (Clauses.shared defaultInterval q) q.limit q.served
      simpa only [SubQuery.keyFor_eq] using hkeys
    · have hfind := SubQuery.find?_foldl_serve hash (Clauses.shared defaultInterval q) q.limit q.served key
      simpa only [SubQuery.groupOf, SubQuery.keyFor_eq] using hfind

end QueryPlan

end SeriesPivot
