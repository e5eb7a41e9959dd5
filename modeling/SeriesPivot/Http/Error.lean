import SeriesPivot.Provider.Error
import SeriesPivot.Json.Print

/-!
# Errors of the HTTP interface

Every error has a status and a code, and is answered by an object with code and wording.
-/

namespace SeriesPivot.Http

/-- Why a request fails. -/
inductive ApiError where
  | validation (detail : String)
  | query (e : QueryError)
  | internal (detail : String)
  | io (detail : String)
  deriving DecidableEq, Repr

namespace ApiError

/-- The wording of an error. -/
def message : ApiError → String
  | .validation detail => "Validation error: " ++ detail
  | .query e => "Query error: " ++ e.message
  | .internal detail => "Internal error: " ++ detail
  | .io detail => "IO error: " ++ detail

/-- The status and the code of an error of the store. -/
def ofStore : StoreError → Nat × String
  | .statement _ => (400, "STATEMENT_ERROR")
  | .invalidPoint _ => (400, "INVALID_POINT")
  | .timeout => (504, "STORE_TIMEOUT")
  | .unavailable | .request => (503, "STORE_UNAVAILABLE")
  | .api _ _ | .decode _ => (502, "STORE_ERROR")

/-- The status and the code of an error. -/
def statusAndCode : ApiError → Nat × String
  | .validation _ => (400, "VALIDATION_ERROR")
  | .query (.plan _) => (400, "PLAN_ERROR")
  | .query .notConnected => (503, "NOT_CONNECTED")
  | .query (.execution _) => (500, "EXECUTION_ERROR")
  | .query (.store e) => ofStore e
  | .internal _ => (500, "INTERNAL_ERROR")
  | .io _ => (500, "IO_ERROR")

/-- The status of an error. -/
def status (e : ApiError) : Nat :=
  e.statusAndCode.1

/-- The code of an error. -/
def code (e : ApiError) : String :=
  e.statusAndCode.2

/-- The body of the answer, with an identifier to find it in the log. -/
def toJson (requestId : String) (e : ApiError) : Json :=
  .object [("error", .object [("code", .string e.code), ("message", .string e.message)]),
    ("request_id", .string requestId)]

end ApiError

end SeriesPivot.Http
