import SeriesPivot.Descriptor.Basic
import SeriesPivot.Keyed

/-!
# Clauses of a sub-query

What a sub-query selects, groups by and is restricted to, and the steps that build it up. Conditions are
kept per field and operator in increasing order, so equal restrictions are equal values; projections and
groupings keep the order in which their names came in.

* `withFilter` sets the condition of a field and an operator.
* `withProjection` and `withGrouping` replace an entry in its place or append it.
* `withProjectionsFrom` appends the entries whose names are new.
-/

namespace SeriesPivot

/-- The time column of the store. -/
def timeColumn : String := "time"

/-- Conditions by field and operator. -/
abbrev Match := List (String × List (Operator × Json))

/-- What a projected column selects. -/
inductive ProjectExpr where
  /-- A column of the store. -/
  | column (name : String)
  /-- The start of the time bucket. -/
  | time
  /-- A function over a column. -/
  | aggregate (function : Aggregation) (column : String)
  deriving DecidableEq, Repr

/-- What a group is made of. -/
inductive GroupExpr where
  | column (name : String)
  /-- A time bucket one unit wide. -/
  | timeBucket (unit : String)
  deriving DecidableEq, Repr

/-- An ordering, which plans show and statements leave out. -/
structure SortKey where
  column : String
  descending : Bool
  deriving DecidableEq, Repr

/-- The clauses of a sub-query. -/
structure Clauses where
  conditions : Match
  project : List (String × ProjectExpr)
  group : List (String × GroupExpr)
  sort : List SortKey
  /-- The number of largest values to keep. -/
  limit : Option Nat
  deriving DecidableEq, Repr

namespace Clauses

/-- No clauses but the ordering by time, latest first. -/
def empty : Clauses := ⟨[], [], [], [⟨timeColumn, true⟩], none⟩

/-- Set the condition of the filter's field and operator. -/
def withFilter (c : Clauses) (f : Filter) : Clauses :=
  let onField := (Assoc.find? f.field c.conditions).getD []
  { c with conditions := Assoc.insert f.field (Assoc.insert f.operator f.value onField) c.conditions }

/-- Replace the projection of that alias in its place, or append it. -/
def withProjection (c : Clauses) (shown : String) (e : ProjectExpr) : Clauses :=
  { c with project := Keyed.put shown e c.project }

/-- Replace the grouping of that key in its place, or append it. -/
def withGrouping (c : Clauses) (key : String) (e : GroupExpr) : Clauses :=
  { c with group := Keyed.put key e c.group }

/-- Append the projections of `other` whose aliases are new. -/
def withProjectionsFrom (c other : Clauses) : Clauses :=
  { c with project := other.project.foldl (fun l p => Keyed.putNew p.1 p.2 l) c.project }

/-- Set or clear the limit. -/
def withLimit (c : Clauses) (limit : Option Nat) : Clauses :=
  { c with limit := limit }

/-- The projection of that alias. -/
def projection? (c : Clauses) (shown : String) : Option ProjectExpr :=
  Keyed.find? shown c.project

/-- Set the conditions of a list of filters in order. -/
def withFilters (c : Clauses) (filters : List Filter) : Clauses :=
  filters.foldl withFilter c

end Clauses

end SeriesPivot
