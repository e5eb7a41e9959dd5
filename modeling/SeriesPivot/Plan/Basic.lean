import SeriesPivot.Plan.Clauses
import SeriesPivot.Json.Print

/-!
# Query plans

A plan is a set of sub-queries, one for each collection and set of conditions that its metrics need, and
what it takes to put their answers together.

* `Match.toJson` is the canonical form of conditions, by which sub-queries are told apart.
* `SubQuery.toJson` shows a sub-query.
-/

namespace SeriesPivot

/-- Conditions as an object of objects in key order. -/
def Match.toJson (m : Match) : Json :=
  .object (m.map fun (field, conditions) =>
    (field, .object (conditions.map fun (operator, value) => (operator.name, value))))

/-- A projection as an object. -/
def ProjectExpr.toJson : ProjectExpr → Json
  | .column name => .object [("kind", .string "column"), ("column", .string name)]
  | .time => .object [("kind", .string "time")]
  | .aggregate function source =>
    .object [("kind", .string "aggregate"), ("aggregation", .string function.name),
      ("attribute", .string source)]

/-- A grouping as an object. -/
def GroupExpr.toJson : GroupExpr → Json
  | .column name => .object [("kind", .string "column"), ("column", .string name)]
  | .timeBucket unit => .object [("kind", .string "time_bucket"), ("interval", .string unit)]

/-- A limit, if there is one. -/
def limitField (limit : Option Nat) : List (String × Json) :=
  match limit with
  | some n => [("limit", .ofInt n)]
  | none => []

/-- Clauses as an object. -/
def Clauses.toJson (c : Clauses) : Json :=
  .object (("match", Match.toJson c.conditions) ::
    ("project", .array (c.project.map fun (shown, e) =>
      .object [("alias", .string shown), ("expr", e.toJson)])) ::
    ("group", .array (c.group.map fun (key, e) =>
      .object [("key", .string key), ("expr", e.toJson)])) ::
    ("sort", .array (c.sort.map fun s =>
      .object [("column", .string s.column), ("descending", .bool s.descending)])) ::
    limitField c.limit)

/-- One query to the store, which may serve several metrics. -/
structure SubQuery where
  key : String
  /-- The logical key of the collection. -/
  collection : String
  /-- The measurement that is read. -/
  measurement : String
  clauses : Clauses
  /-- The keys of the metrics that it serves. -/
  metrics : List String
  deriving DecidableEq, Repr

/-- A sub-query as an object. -/
def SubQuery.toJson (s : SubQuery) : Json :=
  .object [("key", .string s.key), ("collection", .string s.collection),
    ("collections", .string s.measurement), ("query", s.clauses.toJson),
    ("metrics", .array (s.metrics.map .string))]

/-- A compiled query. -/
structure QueryPlan where
  uid : String
  /-- The sub-queries under their keys, in key order. -/
  subQueries : List (String × SubQuery)
  dimensions : List Dimension
  metrics : List Metric
  limit : Option Nat
  /-- Whether a dimension is a date. -/
  timeSeries : Bool
  deriving DecidableEq, Repr

/-- Why a query has no plan. -/
inductive PlanError where
  /-- The type of a dimension is none that can be grouped by. -/
  | unknownDimensionType (key datatype : String)
  deriving DecidableEq, Repr

/-- The wording of a plan error. -/
def PlanError.message : PlanError → String
  | .unknownDimensionType key datatype =>
    "Dimension [" ++ key ++ "] has unknown type of [" ++ datatype ++ "]"

end SeriesPivot
