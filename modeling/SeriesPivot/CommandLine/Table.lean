import SeriesPivot.Json.Print
import SeriesPivot.Provider.Response

/-!
# Tables

Results as text for a terminal.

* `documentTable` shows documents: a header, a line of dashes, a line for each document and their number.
  A column is as wide as its longest cell in bytes, and cells are filled up with blanks to as many
  characters.
* `planTable` shows the statements of a plan, each behind the start of its key.
* `statsTable` shows the counts of a collection.
-/

namespace SeriesPivot.CommandLine

/-- Lines, each with its end. -/
def lines (ls : List String) : String :=
  String.join (ls.map (· ++ "\n"))

/-- Hyphens. -/
def dashes (n : Nat) : String :=
  String.ofList (List.replicate n '-')

/-- A value in a table. -/
def cellText : Option Json → String
  | none | some .null => "-"
  | some (.string s) => s
  | some j => j.compress

/-- A cell of a document. -/
def cell (document : Row) (column : String) : String :=
  cellText (Assoc.find? column document)

/-- The width of a column. -/
def width (documents : List Row) (column : String) : Nat :=
  (documents.map fun d => (cell d column).utf8ByteSize).foldl max column.utf8ByteSize

/-- Cells side by side, each filled up to its width. -/
def tableLine (cells : List (String × Nat)) : String :=
  "  ".intercalate (cells.map fun (text, width) => Text.padEnd width text)

/-- A table of documents. -/
def documentTable (columns : List String) (documents : List Row) : String :=
  if documents.isEmpty then lines ["No data"]
  else
    let sized := columns.map fun c => (c, width documents c)
    lines ([tableLine sized,
        dashes (sized.foldl (fun n (_, w) => n + w) 0 + 2 * (sized.length - 1))] ++
      documents.map (fun d => tableLine (sized.map fun (c, w) => (cell d c, w))) ++
      ["", toString documents.length ++ " rows"])

/-- The columns of the answer to a query: its dimensions, then its metrics. -/
def responseColumns (r : QueryResponse) : List String :=
  (r.result.dimensions.map fun d => Pivot.normalizeColumn d.key) ++
    Pivot.metricColumns r.result.metrics

/-- The answer to a query as a table. -/
def responseTable (r : QueryResponse) : String :=
  documentTable (responseColumns r) r.result.documents

/-- The statements of a plan. -/
def planTable (r : PlanResponse) : String :=
  lines (["Plan " ++ r.plan.uid ++ " (" ++ toString r.statements.length ++ " sub-queries)", ""] ++
    r.statements.map fun (key, statement) =>
      String.ofList (key.toList.take 12) ++ "  " ++ statement)

/-- Drop `start` from the front as often as it stands there. -/
def trimStarts (start : List Char) : (fuel : Nat) → List Char → List Char
  | 0, cs => cs
  | fuel + 1, cs =>
    match Text.stripStart? start cs with
    | some rest => trimStarts start fuel rest
    | none => cs

/-- The field that a count is of. -/
def countedField (column : String) : String :=
  String.ofList (trimStarts "count_".toList column.length column.toList)

/-- The counts of a collection. -/
def statsTable (s : CollectionStats) : String :=
  if s.counts.isEmpty then lines ["No points in " ++ s.collection]
  else
    lines ([Text.padEnd 30 "Field" ++ " Points", dashes 42] ++
      s.counts.map fun (column, count) =>
        Text.padEnd 30 (countedField column) ++ " " ++ count.compress)

end SeriesPivot.CommandLine
