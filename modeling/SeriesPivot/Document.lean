import SeriesPivot.Json.Basic

/-!
# Flat documents

The store has columns, not nested values, so a document is flattened before it is written: each scalar
leaf becomes a column named by the path to it, names and positions joined by dots. Objects are walked in
the order of their fields. A later leaf with the same path overrides an earlier one; empty objects and
arrays leave no column, and a scalar document has none.

* `Document.leaves` are the leaves with their paths.
* `Document.flatten` is the row of the leaves.
-/

namespace SeriesPivot.Document

/-- A path extended by one more name. -/
def join (path : Option String) (name : String) : String :=
  match path with
  | some p => p ++ "." ++ name
  | none => name

mutual

/-- The scalar leaves below a path. -/
def leaves (path : Option String) : Json → List (String × Json)
  | .object fields => fieldLeaves path fields
  | .array items => itemLeaves path 0 items
  | .null => scalarLeaf path .null
  | .bool b => scalarLeaf path (.bool b)
  | .number n => scalarLeaf path (.number n)
  | .string s => scalarLeaf path (.string s)

/-- The leaves of the fields of an object. -/
def fieldLeaves (path : Option String) : List (String × Json) → List (String × Json)
  | [] => []
  | (name, j) :: rest => leaves (some (join path name)) j ++ fieldLeaves path rest

/-- The leaves of the items of an array, the first of them at `index`. -/
def itemLeaves (path : Option String) (index : Nat) : List Json → List (String × Json)
  | [] => []
  | j :: rest =>
    leaves (some (join path (toString index))) j ++ itemLeaves path (index + 1) rest

/-- A scalar as a leaf; without a path it has no name. -/
def scalarLeaf (path : Option String) (j : Json) : List (String × Json) :=
  match path with
  | some p => [(p, j)]
  | none => []

end

/-- The flat form of a document. -/
def flatten (document : Json) : List (String × Json) :=
  Assoc.ofList (leaves none document)

end SeriesPivot.Document
