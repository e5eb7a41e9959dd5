import SeriesPivot.Text.Percent

/-!
# Routes

The resources of the HTTP interface: queries, collections and the database below `/api/v1`, and the state
of the program below `/health`. Each resource has one method. Paths are matched as they are written, and
the key of a collection is decoded afterwards.
-/

namespace SeriesPivot.Http

/-- A resource. The keys of collections are as written in the path. -/
inductive Route where
  | query
  | plan
  | documents (key : String)
  | stats (key : String)
  | collection (key : String)
  | database
  | live
  | ready
  | health
  deriving DecidableEq, Repr

namespace Route

/-- The resource below `/api/v1`. -/
def ofApiPath? : List (List Char) → Option Route
  | [a] =>
    if a = "query".toList then some .query
    else if a = "plan".toList then some .plan
    else if a = "database".toList then some .database
    else none
  | [a, key] =>
    if a = "collections".toList ∧ key ≠ [] then some (.collection (String.ofList key)) else none
  | [a, key, b] =>
    if a = "collections".toList then
      if b = "documents".toList then some (.documents (String.ofList key))
      else if b = "stats".toList then some (.stats (String.ofList key))
      else none
    else none
  | _ => none

/-- The resource below `/health`. -/
def ofHealthPath? : List (List Char) → Option Route
  | [] => some .health
  | [a] =>
    if a = "live".toList then some .live else if a = "ready".toList then some .ready else none
  | _ => none

/-- The resource of a path. -/
def ofPath? (path : String) : Option Route :=
  match Text.splitOn (· == '/') path.toList with
  | [] :: a :: rest =>
    if a = "health".toList then ofHealthPath? rest
    else
      match rest with
      | b :: rest => if a = "api".toList ∧ b = "v1".toList then ofApiPath? rest else none
      | [] => none
  | _ => none

/-- The method of a resource. -/
def method : Route → String
  | .query | .plan | .documents _ => "POST"
  | .stats _ | .live | .ready | .health => "GET"
  | .collection _ | .database => "DELETE"

/-- Whether a method is served: that of the resource, and `HEAD` in place of `GET`. -/
def allows (r : Route) (method : String) : Bool :=
  method == r.method || (method == "HEAD" && r.method == "GET")

end Route

/-- The key of a collection; `none` if it is not UTF-8. -/
def decodeKey (key : String) : Option String :=
  Text.ofUtf8? (Text.percentDecode key.toList)

end SeriesPivot.Http
