import SeriesPivot.Text.Basic

/-!
# Tokens of query descriptors

The closed sets that a descriptor picks from, each with the tokens it is read from and written as, and
with its counterpart in InfluxQL.

* `Operator` compares a field with a value in a filter.
* `Aggregation` is the function of a metric. Names are read in any case of their letters, two of them
  have synonyms, and an unknown name stands for the store's function of that name.
* `Interval` is the width of a time bucket; an unknown token is used as the width itself.
* `DimensionType` is the type of a dimension.
-/

namespace SeriesPivot

/-- Comparison of a field with a value. -/
inductive Operator where
  | eq | gt | gte | lt | lte
  deriving DecidableEq, Repr, Inhabited

namespace Operator

/-- The place of an operator among the conditions on one field. -/
def rank : Operator → Nat
  | .eq => 0 | .gt => 1 | .gte => 2 | .lt => 3 | .lte => 4

instance : LT Operator := ⟨fun a b => a.rank < b.rank⟩

instance : DecidableLT Operator := fun a b => inferInstanceAs (Decidable (a.rank < b.rank))

/-- The name of an operator in a descriptor. -/
def name : Operator → String
  | .eq => "eq" | .gt => "gt" | .gte => "gte" | .lt => "lt" | .lte => "lte"

/-- The operator of that name. -/
def ofName? (s : String) : Option Operator :=
  if s = "eq" then some .eq
  else if s = "gt" then some .gt
  else if s = "gte" then some .gte
  else if s = "lt" then some .lt
  else if s = "lte" then some .lte
  else none

/-- The operator of a token: its name with any number of dollar signs in front. -/
def ofToken? (s : String) : Option Operator :=
  ofName? (Text.trimStartWhile (· == '$') s)

/-- The operator of a token in a filter: its name with at most one dollar sign in front. -/
def ofFilterToken? (s : String) : Option Operator :=
  match s.toList with
  | '$' :: rest => ofName? (String.ofList rest)
  | _ => ofName? s

/-- The comparison in InfluxQL. -/
def symbol : Operator → String
  | .eq => "=" | .gt => ">" | .gte => ">=" | .lt => "<" | .lte => "<="

end Operator

/-- The function that a metric applies to its column. -/
inductive Aggregation where
  | sum | mean | count | distinct | min | max | first | last | median
  /-- A function that is passed on to the store by its name. -/
  | other (name : String)
  deriving DecidableEq, Repr, Inhabited

namespace Aggregation

/-- The named functions with the names that each is read from. No character outside ASCII has a lower
case within these names, so ASCII case is all that counts. -/
def ofName (s : String) : Aggregation :=
  let name := Text.lowerAscii s
  if name = "sum" then .sum
  else if name = "avg" ∨ name = "average" ∨ name = "mean" then .mean
  else if name = "count" then .count
  else if name = "ucount" ∨ name = "distinct" then .distinct
  else if name = "min" then .min
  else if name = "max" then .max
  else if name = "first" then .first
  else if name = "last" then .last
  else if name = "median" then .median
  else .other s

/-- The name of a function in the store and in a descriptor. -/
def name : Aggregation → String
  | .sum => "sum" | .mean => "mean" | .count => "count" | .distinct => "distinct"
  | .min => "min" | .max => "max" | .first => "first" | .last => "last" | .median => "median"
  | .other name => name

/-- The function applied to a quoted column. Distinct values are counted. -/
def applyTo (a : Aggregation) (column : String) : String :=
  match a with
  | .distinct => "count(distinct(" ++ column ++ "))"
  | a => a.name ++ "(" ++ column ++ ")"

end Aggregation

/-- The width of a time bucket. -/
inductive Interval where
  | second | minute | hour | day | week
  /-- A width that is passed on to the store as it is. -/
  | raw (text : String)
  deriving DecidableEq, Repr, Inhabited

namespace Interval

/-- The interval of a token. -/
def ofToken (s : String) : Interval :=
  if s = "timebucket.second" then .second
  else if s = "timebucket.minute" then .minute
  else if s = "timebucket.hour" then .hour
  else if s = "timebucket.day" then .day
  else if s = "timebucket.week" then .week
  else .raw s

/-- The unit in a grouping by time. -/
def suffix : Interval → String
  | .second => "s" | .minute => "m" | .hour => "h" | .day => "d" | .week => "w"
  | .raw text => text

/-- The token in a descriptor. -/
def token : Interval → String
  | .second => "timebucket.second"
  | .minute => "timebucket.minute"
  | .hour => "timebucket.hour"
  | .day => "timebucket.day"
  | .week => "timebucket.week"
  | .raw text => text

end Interval

/-- The type of a dimension. -/
inductive DimensionType where
  | date | ip | number | string | geo
  /-- A type that no plan can be made for. -/
  | unknown (name : String)
  deriving DecidableEq, Repr, Inhabited

namespace DimensionType

/-- The type of that name. -/
def ofName (s : String) : DimensionType :=
  if s = "date" then .date
  else if s = "ip" then .ip
  else if s = "number" then .number
  else if s = "string" then .string
  else if s = "geo" then .geo
  else .unknown s

/-- The name of the type. -/
def name : DimensionType → String
  | .date => "date" | .ip => "ip" | .number => "number" | .string => "string" | .geo => "geo"
  | .unknown name => name

end DimensionType

end SeriesPivot
