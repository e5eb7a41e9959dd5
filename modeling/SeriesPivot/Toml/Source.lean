import SeriesPivot.Json.Source
import SeriesPivot.Toml.Read

/-!
# TOML documents as trees for decoding

`Toml.source?` gives a document the form of a JSON tree, so that the same decoders read both. A time is an
object with one private field, and infinities and what is not a number are numbers without a value.
-/

namespace SeriesPivot.Toml

open Json (Source)

/-- The name of the field that holds a time. -/
def timeField : String := "$__toml_private_datetime"

mutual

/-- A value as a tree. -/
def Node.toSource : Node → Source
  | .string s => .string (some s)
  | .integer n => .number (some (.int n))
  | .float x => .number (x.map .float)
  | .boolean b => .bool b
  | .time text => .object [(some timeField, .string (some text))]
  | .array items => .array (itemSources items)
  | .inlineTable entries => .object (entrySources entries)
  | .table _ entries => .object (entrySources entries)
  | .tables items => .array (tableSources items)

/-- The items of an array as trees. -/
def itemSources : List Node → List Source
  | [] => []
  | node :: rest => node.toSource :: itemSources rest

/-- The entries of a table as members. -/
def entrySources : List (String × Node) → List (Option String × Source)
  | [] => []
  | (name, node) :: rest => (some name, node.toSource) :: entrySources rest

/-- A list of tables as trees. -/
def tableSources : List (List (String × Node)) → List Source
  | [] => []
  | entries :: rest => .object (entrySources entries) :: tableSources rest

end

/-- The tree of the document that a text is. -/
def source? (text : String) : Option Source :=
  (read? text).map fun t => .object (entrySources t.entries)

end SeriesPivot.Toml
