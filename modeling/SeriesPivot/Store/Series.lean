import SeriesPivot.Json.Decode

/-!
# Results of statements

A store answers a statement with series. A series has columns, a list of values for each point, and tags
that all of its points share.

* `Series.rows` are the points as objects: the tags, overlaid by the columns with their values.
* `RawResult.rows` are the rows of all series in order.
-/

namespace SeriesPivot

open Json (Decoder)
open Json.Decode (record listOf)

/-- A row by column names, in their order. -/
abbrev Row := List (String × Json)

/-- One series of a result. -/
structure Series where
  name : String
  tags : List (String × Json)
  columns : List String
  values : List (List Json)
  deriving DecidableEq, Repr

namespace Series

/-- The row of a list of values; a value without a column and a column without a value do not count. -/
def row (s : Series) (values : List Json) : Row :=
  Assoc.insertAll s.tags (s.columns.zip values)

/-- The rows of a series. -/
def rows (s : Series) : List Row :=
  s.values.map s.row

/-- A series from its fields. -/
def decode : Decoder Series :=
  record false
    [⟨"name", false, fun s v => do return { s with name := ← Json.Decode.string v }⟩,
     ⟨"tags", false, fun s v => do
       return { s with tags := ← Json.Decode.dictionary Json.Decode.json v }⟩,
     ⟨"columns", false, fun s v => do
       return { s with columns := ← listOf Json.Decode.string v }⟩,
     ⟨"values", false, fun s v => do
       return { s with values := ← listOf (listOf Json.Decode.json) v }⟩]
    ⟨"", [], [], []⟩

/-- A series as an object. -/
def toJson (s : Series) : Json :=
  .object (("name", .string s.name) ::
    ((if s.tags.isEmpty then [] else [("tags", .object s.tags)]) ++
      [("columns", .array (s.columns.map .string)),
        ("values", .array (s.values.map .array))]))

end Series

/-- The result of one statement. -/
structure RawResult where
  series : List Series
  deriving DecidableEq, Repr

namespace RawResult

/-- A result without series. -/
def empty : RawResult := ⟨[]⟩

/-- Whether no series has a point. -/
def isEmpty (r : RawResult) : Bool :=
  r.series.all fun s => s.values.isEmpty

/-- The number of points. -/
def rowCount (r : RawResult) : Nat :=
  r.series.foldl (fun n s => n + s.values.length) 0

/-- The rows of all series. -/
def rows (r : RawResult) : List Row :=
  r.series.flatMap Series.rows

/-- A result from its fields. -/
def decode : Decoder RawResult :=
  record false
    [⟨"series", false, fun r v => do return { r with series := ← listOf Series.decode v }⟩]
    empty

/-- A result as an object. -/
def toJson (r : RawResult) : Json :=
  .object [("series", .array (r.series.map Series.toJson))]

end RawResult

end SeriesPivot
