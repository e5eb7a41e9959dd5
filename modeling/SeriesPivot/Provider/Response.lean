import SeriesPivot.Pivot
import SeriesPivot.Plan.Encode
import SeriesPivot.Statement

/-!
# Answers of a provider

What queries, dry runs and counts answer, and how the answers look as JSON. Anomalies are written only if
there are any.
-/

namespace SeriesPivot

/-- The answer to a query. -/
structure QueryResponse where
  result : PivotResult
  plan : QueryPlan
  deriving DecidableEq, Repr

/-- The answer to a query as an object. -/
def QueryResponse.toJson (r : QueryResponse) : Json :=
  .object ([("dimensions", .array (r.result.dimensions.map Dimension.toJson)),
    ("metrics", .array (r.result.metrics.map Metric.toJson)),
    ("documents", .array (r.result.documents.map .object)),
    ("queryplan", r.plan.toJson)] ++
    (if r.result.anomalies.isEmpty then []
      else [("anomalies", .array (r.result.anomalies.map .string))]))

/-- The answer to a dry run. -/
structure PlanResponse where
  plan : QueryPlan
  /-- The statements under the keys of the sub-queries, in key order. -/
  statements : List (String × String)
  deriving DecidableEq, Repr

/-- The answer to a dry run as an object. -/
def PlanResponse.toJson (r : PlanResponse) : Json :=
  .object [("queryplan", r.plan.toJson),
    ("statements", .object (r.statements.map fun (key, s) => (key, .string s)))]

/-- The numbers of points of a collection, one for each field. -/
structure CollectionStats where
  collection : String
  counts : Row
  deriving DecidableEq, Repr

/-- The counts of the first row of a result, which also carries a time. -/
def CollectionStats.ofResult (collection : String) (raw : RawResult) : CollectionStats :=
  ⟨collection, Assoc.erase timeColumn (raw.rows.head?.getD [])⟩

/-- The numbers of points as an object. -/
def CollectionStats.toJson (s : CollectionStats) : Json :=
  .object [("collection", .string s.collection), ("counts", .object s.counts)]

end SeriesPivot
