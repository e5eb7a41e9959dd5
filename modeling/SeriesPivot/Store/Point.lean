import SeriesPivot.Json.Print
import SeriesPivot.Store.Error

/-!
# Points

What the store keeps of a document: tags, which are texts to group by, fields, which are values to
aggregate, and a time in epoch milliseconds.

* `Point.ofFlat` makes a point of a flat document: texts are tags, numbers and truth values are fields, and
  nulls are left out. A document without a field has no point.
-/

namespace SeriesPivot

/-- The value of a field. -/
inductive FieldValue where
  | float (x : Binary64)
  | int (n : Int)
  | bool (b : Bool)
  | text (s : String)
  deriving DecidableEq, Repr

/-- A point to write. -/
structure Point where
  measurement : String
  tags : List (String × String)
  fields : List (String × FieldValue)
  /-- Epoch milliseconds. -/
  time : Int
  deriving DecidableEq, Repr

namespace Point

/-- The tag that a column is. -/
def tag? : String × Json → Option (String × String)
  | (name, .string s) => some (name, s)
  | _ => none

/-- A number as a field: an integer if it fits into 64 bits with a sign. -/
def numberField (n : Json.Number) : FieldValue :=
  match n.asInt64? with
  | some i => .int i
  | none => .float n.toBinary64

/-- The field that a column is; an array or object is the text of its JSON form. -/
def field? : String × Json → Option (String × FieldValue)
  | (_, .string _) => none
  | (_, .null) => none
  | (name, .bool b) => some (name, .bool b)
  | (name, .number n) => some (name, numberField n)
  | (name, j) => some (name, .text j.compress)

/-- The point of a flat document. -/
def ofFlat (measurement : String) (document : List (String × Json)) (time : Int) :
    Except StoreError Point :=
  match document.filterMap field? with
  | [] => .error (.invalidPoint
      ("document for [" ++ measurement ++ "] has no numeric or boolean fields"))
  | fields => .ok ⟨measurement, document.filterMap tag?, fields, time⟩

end Point

end SeriesPivot
