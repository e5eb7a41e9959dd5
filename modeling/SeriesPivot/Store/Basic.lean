import SeriesPivot.Store.Point
import SeriesPivot.Store.Series

/-!
# Stores

A store answers statements, takes batches of points and answers pings. It is given by its answers; what is
asked of it is a list of calls, kept beside the answers by whoever asks.
-/

namespace SeriesPivot

/-- What is asked of a store. -/
inductive Call where
  | statement (text : String)
  | write (points : List Point)
  | ping
  deriving DecidableEq, Repr

/-- The statement that a call sends. -/
def Call.statement? : Call → Option String
  | .statement text => some text
  | .write _ | .ping => none

/-- The points that a call writes. -/
def Call.written : Call → List Point
  | .write points => points
  | .statement _ | .ping => []

/-- A store, by its answers. -/
structure Store where
  name : String
  database : String
  query : String → Except StoreError RawResult
  write : List Point → Except StoreError Unit
  ping : Except StoreError Unit

end SeriesPivot
