import SeriesPivot.Descriptor.Time
import SeriesPivot.Descriptor.Basic
import SeriesPivot.Document
import SeriesPivot.Pivot
import SeriesPivot.Store.Point

/-!
# From documents to points

A document is flattened, its time columns are taken out, and what is left is a point at the time that the
first readable one of them names, or at the current time.

* `Insertion.timeFields` are the columns that may hold the time, the chosen one before `time` and
  `timestamp`. All of them are taken out.
* `Insertion.points` makes the points of a batch, or fails at the first document that has no point.
-/

namespace SeriesPivot.Insertion

/-- The columns that may hold the time of a document, the first one first. -/
def timeFields (chosen : Option String) : List String :=
  chosen.toList ++ [timeColumn, Pivot.timestampField]

/-- The time in epoch milliseconds from the first of the columns that holds an instant. -/
def time? (fields : List String) (document : List (String × Json)) : Option Int :=
  fields.findSome? fun name =>
    ((Assoc.find? name document).bind Json.instant?).map Instant.toMillis

/-- The document without these columns. -/
def without (fields : List String) (document : List (String × Json)) : List (String × Json) :=
  document.filter fun cell => !fields.contains cell.1

/-- The point of a document. -/
def point (collection : CollectionRef) (chosen : Option String) (now : Int) (document : Json) :
    Except StoreError Point :=
  let columns := Document.flatten document
  let fields := timeFields chosen
  Point.ofFlat collection.measurement (without fields columns) ((time? fields columns).getD now)

/-- The points of a batch, in the order of the documents. -/
def points (collection : CollectionRef) (chosen : Option String) (now : Int) :
    List Json → Except StoreError (List Point)
  | [] => .ok []
  | document :: rest =>
    match point collection chosen now document with
    | .error e => .error e
    | .ok p => (points collection chosen now rest).map (p :: ·)

end SeriesPivot.Insertion
