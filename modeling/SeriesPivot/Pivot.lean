import SeriesPivot.Descriptor.Basic
import SeriesPivot.Calendar.Instant
import SeriesPivot.Plan.Basic
import SeriesPivot.Store.Series

/-!
# Pivoting results

The results of the sub-queries of a plan are put together into one document for each tuple of dimension
values.

* A row is normalised first: the time column becomes `timestamp`, in RFC 3339 if it is a positive number
  of epoch milliseconds, and dots in other names become underscores.
* The identity of a row holds a value for each keyed dimension, from the first of its candidate columns
  that the row has. A dimension that the row does not have is `(not set)`, and an anomaly is noted.
* Rows whose identities have the same hash make up one document, in the order in which the hashes came in.
  It starts with the identity, and each row puts in its columns.
* In the end every requested metric that a document does not have is null.
-/

namespace SeriesPivot

namespace Pivot

/-- The name of the time column in documents. -/
def timestampField : String := "timestamp"

/-- The name of the dimension tuple in documents. -/
def idField : String := "_id"

/-- The name of the hash of the dimension tuple in documents. -/
def keyField : String := "key"

/-- The value of a dimension that a row does not have. -/
def notSet : String := "(not set)"

/-- Dots become underscores. -/
def normalizeColumn (column : String) : String :=
  Text.expand (fun c => if c = '.' then ['_'] else [c]) column

/-- Epoch milliseconds as a document shows them. -/
def renderMillis (ms : Int) (value : Json) : Json :=
  if 0 < ms then
    match Instant.ofMillis? ms with
    | some t => .string t.toUtcMillis
    | none => value
  else .ofInt ms

/-- The time of a row: epoch milliseconds as a number or as the text of one; other values stay. -/
def normalizeTime (value : Json) : Json :=
  match value with
  | .number n => match n.asInt64? with
    | some ms => renderMillis ms value
    | none => value
  | .string s => match Text.readInt64 s with
    | some ms => renderMillis ms value
    | none => value
  | _ => value

/-- One column of a row under its name in documents. -/
def normalizeCell (cell : String × Json) : String × Json :=
  if cell.1 = timeColumn then (timestampField, normalizeTime cell.2)
  else (normalizeColumn cell.1, cell.2)

/-- A row with the names of documents; of two columns with one name the later counts. -/
def normalizeRow (row : Row) : Row :=
  Assoc.ofList (row.map normalizeCell)

/-- A keyed dimension: its name in documents and the columns that may hold it, the first one first. -/
structure Source where
  key : String
  columns : List String
  deriving DecidableEq, Repr

/-- How a dimension is keyed; geographic and unknown ones are not. -/
def Source.ofDimension? (d : Dimension) : Option Source :=
  let key := normalizeColumn d.key
  match d.datatype with
  | .date => some ⟨key, [timestampField]⟩
  | .ip | .number | .string =>
    let column := normalizeColumn d.column
    some ⟨key, if column = key then [column] else [column, key]⟩
  | .geo | .unknown _ => none

/-- The value of a dimension in a normalised row. -/
def Source.value? (s : Source) (row : Row) : Option Json :=
  s.columns.findSome? fun column => Assoc.find? column row

/-- The identity of a normalised row: a value for each keyed dimension. -/
def identity (sources : List Source) (row : Row) : Row :=
  Assoc.ofList (sources.map fun s => (s.key, (s.value? row).getD (.string notSet)))

/-- What is noted about a row: each dimension that it does not have. -/
def anomaliesOf (subQuery : String) (sources : List Source) (row : Row) : List String :=
  (sources.filter fun s => (s.value? row).isNone).map fun s =>
    "sub-query " ++ subQuery ++ " returned a row without dimension [" ++ s.key ++ "]"

/-- The start of a document: the identity, the identity as one value, and its hash. -/
def newDocument (identity : Row) (key : String) : Row :=
  Assoc.insert keyField (.string key) (Assoc.insert idField (.object identity) identity)

/-- The columns of a row that are no keys of dimensions. -/
def ownColumns (sources : List Source) (row : Row) : Row :=
  row.filter fun cell => !(sources.any fun s => s.key == cell.1)

end Pivot

/-- Results put together so far. -/
structure Pivot where
  dimensions : List Dimension
  metrics : List Metric
  sources : List Pivot.Source
  /-- Documents under the hashes of their identities. -/
  documents : List (String × Row)
  anomalies : List String
  deriving DecidableEq, Repr

/-- The documents of a query. -/
structure PivotResult where
  dimensions : List Dimension
  metrics : List Metric
  documents : List Row
  anomalies : List String
  deriving DecidableEq, Repr

namespace Pivot

/-- No documents yet, for these dimensions and metrics. -/
def start (dimensions : List Dimension) (metrics : List Metric) : Pivot :=
  ⟨dimensions, metrics, dimensions.filterMap Source.ofDimension?, [], []⟩

/-- Put in one normalised row of a sub-query. -/
def foldRow (hash : String → String) (subQuery : String) (p : Pivot) (row : Row) : Pivot :=
  let id := identity p.sources row
  let key := hash (Json.object id).compress
  let document := (Keyed.find? key p.documents).getD (newDocument id key)
  { p with
    documents := Keyed.put key (Assoc.insertAll document (ownColumns p.sources row)) p.documents
    anomalies := p.anomalies ++ anomaliesOf subQuery p.sources row }

/-- Put in the result of a sub-query. -/
def fold (hash : String → String) (subQuery : String) (p : Pivot) (raw : RawResult) : Pivot :=
  (raw.rows.map normalizeRow).foldl (foldRow hash subQuery) p

/-- Bind a name to null if it is not bound. -/
def fillNull (document : Row) (name : String) : Row :=
  if Assoc.contains name document then document else Assoc.insert name .null document

/-- The names of the metrics that every document has. -/
def metricColumns (metrics : List Metric) : List String :=
  (metrics.filter fun m => !m.isPlaceholder).map fun m => normalizeColumn m.key

/-- The documents, each with all metrics. -/
def finish (p : Pivot) : PivotResult :=
  ⟨p.dimensions, p.metrics,
    p.documents.map fun d => (metricColumns p.metrics).foldl fillNull d.2, p.anomalies⟩

/-- Put together the results of a plan, in the order of its sub-queries. -/
def merge (hash : String → String) (plan : QueryPlan) (results : List (String × RawResult)) :
    PivotResult :=
  let step (p : Pivot) (key : String) : Pivot :=
    match Assoc.find? key results with
    | some raw => p.fold hash key raw
    | none => p
  ((plan.subQueries.map (·.1)).foldl step (start plan.dimensions plan.metrics)).finish

end Pivot

end SeriesPivot
