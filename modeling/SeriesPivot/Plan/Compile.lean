import SeriesPivot.Plan.Basic
import SeriesPivot.Descriptor.Time

/-!
# Compiling queries

`QueryPlan.compile` makes a plan in two steps.

* `Clauses.ofQuery` gathers what all metrics share: bounds of time, filters and dimensions.
* `SubQuery.serve` runs over the executable metrics. A metric's own filters are added to the shared
  conditions, and metrics with the same collection and conditions, as told by the hash of both, go into
  one sub-query, to which each adds its aggregate under its own key.

A query without metrics is served for its groups only, if it or its first dimension names a collection.
-/

namespace SeriesPivot

namespace Clauses

/-- The condition that a bound of time puts on the time column; a bound that is no instant puts none. -/
def bound (operator : Operator) (value : Option Json) : List (Operator × Json) :=
  match value.bind Json.instant? with
  | some t => [(operator, .string t.toLiteral)]
  | none => []

/-- The clauses of a range of time, exclusive on both ends. -/
def ofRange (start stop : Option Json) : Clauses :=
  match bound .gt start ++ bound .lt stop with
  | [] => empty
  | bounds => { empty with conditions := [(timeColumn, bounds)] }

/-- The clauses of a timeframe. A number of items restricts no time. -/
def ofTimeframe : Option Timeframe → Clauses
  | some (.range start stop) => ofRange start stop
  | _ => empty

/-- Add a dimension: a date as the start of its time bucket, a plain dimension as its column under its
key. A geographic one adds nothing. -/
def withDimension (interval : Interval) (c : Clauses) (d : Dimension) : Except PlanError Clauses :=
  match d.datatype with
  | .date =>
    .ok ((c.withProjection timeColumn .time).withGrouping timeColumn (.timeBucket interval.suffix))
  | .ip | .number | .string =>
    .ok ((c.withProjection d.key (.column d.column)).withGrouping d.key (.column d.column))
  | .geo => .ok c
  | .unknown datatype => .error (.unknownDimensionType d.key datatype)

/-- Add dimensions in order, up to the first that cannot be grouped by. -/
def withDimensions (interval : Interval) (c : Clauses) : List Dimension → Except PlanError Clauses
  | [] => .ok c
  | d :: rest =>
    match c.withDimension interval d with
    | .ok c => c.withDimensions interval rest
    | .error e => .error e

/-- The clauses that all metrics of a query share. -/
def ofQuery (defaultInterval : Interval) (q : QueryDescriptor) : Except PlanError Clauses :=
  ((ofTimeframe q.timeframe).withFilters q.filter).withDimensions
    (q.interval.getD defaultInterval) q.dimensions

/-- Add the aggregate of a metric under its key; a stand-in adds none. -/
def withMetric (c : Clauses) (m : Metric) : Clauses :=
  if m.isPlaceholder then c
  else c.withProjection m.key (.aggregate (m.aggregation.getD .sum) m.column)

end Clauses

namespace QueryDescriptor

/-- The collection that a query without metrics reads. -/
def groupedCollection (q : QueryDescriptor) : Option CollectionRef :=
  match q.collection with
  | some c => some c
  | none => q.dimensions.head?.bind (·.collection)

/-- The metrics that are read from the store, each with its collection. -/
def executables (q : QueryDescriptor) : List (Metric × CollectionRef) :=
  let standIn := if q.metrics.isEmpty then (q.groupedCollection.map Metric.placeholder).toList else []
  (q.metrics ++ standIn).filterMap fun m =>
    match m.collection, m.isExecutable with
    | some c, true => some (m, c)
    | _, _ => none

/-- The number of largest values that a query keeps. -/
def limit (q : QueryDescriptor) : Option Nat :=
  match q.timeframe with
  | some (.lastItems n) => some n
  | _ => none

end QueryDescriptor

namespace SubQuery

/-- The text whose hash tells sub-queries apart. -/
def identity (collection : CollectionRef) (conditions : Match) : String :=
  collection.key ++ "_" ++ (Match.toJson conditions).compress

/-- A sub-query that serves its first metric. -/
def start (key : String) (collection : CollectionRef) (c : Clauses) (m : Metric)
    (limit : Option Nat) : SubQuery :=
  ⟨key, collection.key, collection.measurement, (c.withMetric m).withLimit limit, [m.key]⟩

/-- A sub-query that serves one more metric. Its groups stay as they are. -/
def join (s : SubQuery) (c : Clauses) (m : Metric) (limit : Option Nat) : SubQuery :=
  { s with
    clauses := ((s.clauses.withProjectionsFrom c).withMetric m).withLimit limit
    metrics := if s.metrics.contains m.key then s.metrics else s.metrics ++ [m.key] }

/-- The clauses of a metric: the shared ones and the metric's own filters. -/
def clausesFor (base : Clauses) (m : Metric) : Clauses :=
  base.withFilters m.filter

/-- The key of the sub-query that serves a metric. -/
def keyFor (hash : String → String) (base : Clauses) (m : Metric) (c : CollectionRef) : String :=
  hash (identity c (clausesFor base m).conditions)

/-- Let one more metric be served. -/
def serve (hash : String → String) (base : Clauses) (limit : Option Nat)
    (subQueries : List (String × SubQuery)) (item : Metric × CollectionRef) :
    List (String × SubQuery) :=
  let (m, c) := item
  let clauses := clausesFor base m
  let key := keyFor hash base m c
  let served := match Assoc.find? key subQueries with
    | some s => s.join clauses m limit
    | none => start key c clauses m limit
  Assoc.insert key served subQueries

end SubQuery

namespace QueryPlan

/-- The plan of a query, with `uid` as its identifier. -/
def compile (hash : String → String) (defaultInterval : Interval) (uid : String)
    (q : QueryDescriptor) : Except PlanError QueryPlan :=
  match Clauses.ofQuery defaultInterval q with
  | .error e => .error e
  | .ok base =>
    .ok ⟨uid, q.executables.foldl (SubQuery.serve hash base q.limit) [], q.dimensions, q.metrics,
      q.limit, q.dimensions.any fun d => d.datatype == .date⟩

end QueryPlan

end SeriesPivot
