import SeriesPivot.Descriptor.Tokens
import SeriesPivot.Json.Basic

/-!
# Query descriptors

A query names the dimensions to group by, the metrics to aggregate, filters on fields, a timeframe and
the width of time buckets.

* A metric is executable if it reads a collection and is not derived by a formula from other metrics.
* A query without metrics may still ask for the groups of a collection; its stand-in metric
  (`Metric.placeholder`) reads the collection and contributes no column.
-/

namespace SeriesPivot

/-- A condition that a field's value compares so to the value. -/
structure Filter where
  field : String
  operator : Operator
  value : Json
  deriving DecidableEq, Repr

/-- A collection by its logical key and the name of its measurement, if that differs. -/
structure CollectionRef where
  key : String
  storeKey : Option String
  deriving DecidableEq, Repr

namespace CollectionRef

/-- The name of the measurement. -/
def measurement (c : CollectionRef) : String :=
  c.storeKey.getD c.key

end CollectionRef

/-- An axis of grouping. -/
structure Dimension where
  key : String
  datatype : DimensionType
  /-- The column that holds it, if that is not named like the key. -/
  source : Option String
  collection : Option CollectionRef
  deriving DecidableEq, Repr

namespace Dimension

/-- The column that holds the dimension. -/
def column (d : Dimension) : String :=
  d.source.getD d.key

end Dimension

/-- A requested aggregate. -/
structure Metric where
  key : String
  aggregation : Option Aggregation
  /-- The column that holds it, if that is not named like the key. -/
  source : Option String
  collection : Option CollectionRef
  filter : List Filter
  formula : Option Json
  /-- Whether this is the stand-in of a query for groups only. -/
  isPlaceholder : Bool
  deriving DecidableEq, Repr

namespace Metric

/-- A metric with a key and nothing else. -/
def named (key : String) : Metric :=
  ⟨key, none, none, none, [], none, false⟩

/-- The stand-in that reads a collection for its groups only. -/
def placeholder (collection : CollectionRef) : Metric :=
  { named "fake" with collection := some collection, isPlaceholder := true }

/-- The column that is aggregated. -/
def column (m : Metric) : String :=
  m.source.getD m.key

/-- Whether the metric is read from the store. -/
def isExecutable (m : Metric) : Bool :=
  m.collection.isSome && m.formula.isNone

end Metric

/-- The time that a query covers. -/
inductive Timeframe where
  /-- So many of the largest values. -/
  | lastItems (count : Nat)
  /-- Between two bounds, each of them optional. -/
  | range (start stop : Option Json)
  deriving DecidableEq, Repr

/-- A query. -/
structure QueryDescriptor where
  dimensions : List Dimension
  metrics : List Metric
  filter : List Filter
  timeframe : Option Timeframe
  interval : Option Interval
  /-- The collection of a query for groups only. -/
  collection : Option CollectionRef
  deriving DecidableEq, Repr

namespace QueryDescriptor

/-- The query that asks for nothing. -/
def empty : QueryDescriptor := ⟨[], [], [], none, none, none⟩

end QueryDescriptor

end SeriesPivot
