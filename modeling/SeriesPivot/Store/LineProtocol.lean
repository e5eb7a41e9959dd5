import SeriesPivot.Store.Point
import SeriesPivot.Text.Basic

/-!
# Line protocol

A point as one line, `measurement,tag=value field=1i,other=0.5 1704067200000`, and a batch as one line for
each point.

* A backslash stands before a comma and a blank in a measurement, and also before an equals sign in names
  and tag values.
* A tag with an empty value is not written.
* Integers end in `i`, doubles have no exponent, and texts are in double quotes.
-/

namespace SeriesPivot.LineProtocol

/-- The measurement of a line. -/
def escapeMeasurement (s : String) : String :=
  Text.escape (fun c => c == ',' || c == ' ') '\\' s

/-- A tag, a tag value or the name of a field. -/
def escapeName (s : String) : String :=
  Text.escape (fun c => c == ',' || c == '=' || c == ' ') '\\' s

/-- The value of a field. -/
def encodeField : FieldValue → String
  | .float x => x.toPositional
  | .int n => toString n ++ "i"
  | .bool b => if b then "true" else "false"
  | .text s => "\"" ++ Text.escape (fun c => c == '\\' || c == '"') '\\' s ++ "\""

/-- The tags of a line, each behind a comma. -/
def encodeTags (tags : List (String × String)) : String :=
  String.join (tags.map fun (name, value) =>
    if value.isEmpty then "" else "," ++ escapeName name ++ "=" ++ escapeName value)

/-- The fields of a line. -/
def encodeFields (fields : List (String × FieldValue)) : String :=
  ",".intercalate (fields.map fun (name, value) => escapeName name ++ "=" ++ encodeField value)

/-- A point with a text for its time. -/
def encodeAt (time : String) (p : Point) : String :=
  escapeMeasurement p.measurement ++ encodeTags p.tags ++ " " ++ encodeFields p.fields ++ " " ++ time

/-- A point as one line. -/
def encodePoint (p : Point) : String :=
  encodeAt (toString p.time) p

/-- A batch, one point a line. -/
def encodePoints (points : List Point) : String :=
  "\n".intercalate (points.map encodePoint)

end SeriesPivot.LineProtocol
