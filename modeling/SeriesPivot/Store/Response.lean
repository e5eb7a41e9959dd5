import SeriesPivot.Store.Series
import SeriesPivot.Store.Error

/-!
# Responses to statements

The body of a response holds a list of statement results, or an error. Each statement result holds series,
or an error.

* `Response.toResult` is the first error, that of the whole response before those of statements, or else
  all series in order.
* `Response.read` decodes the text of a body.
-/

namespace SeriesPivot

open Json (Decoder)
open Json.Decode (record listOf optional)

/-- The result of a statement within a response. -/
structure StatementResult where
  series : List Series
  error : Option String
  deriving DecidableEq, Repr

namespace StatementResult

/-- A statement result from its fields. -/
def decode : Decoder StatementResult :=
  record false
    [⟨"series", false, fun r v => do return { r with series := ← listOf Series.decode v }⟩,
     ⟨"error", false, fun r v => do
       return { r with error := ← optional Json.Decode.string v }⟩]
    ⟨[], none⟩

end StatementResult

/-- The body of a response. -/
structure Response where
  results : List StatementResult
  error : Option String
  deriving DecidableEq, Repr

namespace Response

/-- A body from its fields. -/
def decode : Decoder Response :=
  record false
    [⟨"results", false, fun r v => do
       return { r with results := ← listOf StatementResult.decode v }⟩,
     ⟨"error", false, fun r v => do
       return { r with error := ← optional Json.Decode.string v }⟩]
    ⟨[], none⟩

/-- The series of statement results in order, or the first error. -/
def collect : List StatementResult → Except StoreError (List Series)
  | [] => .ok []
  | r :: rest =>
    match r.error with
    | some message => .error (.statement message)
    | none => (collect rest).map (r.series ++ ·)

/-- The result of a response. -/
def toResult (r : Response) : Except StoreError RawResult :=
  match r.error with
  | some message => .error (.statement message)
  | none => (collect r.results).map RawResult.mk

/-- The result of a body. -/
def read (body : String) : Except StoreError RawResult :=
  match Json.Decode.fromText? decode body with
  | some r => r.toResult
  | none => .error (.decode "the body is not a query response")

end Response

end SeriesPivot
