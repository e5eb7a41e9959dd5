import SeriesPivot.Plan.Basic
import SeriesPivot.Store.Error

/-!
# Errors of operations

Why an operation of a provider fails, and the wording of each cause.
-/

namespace SeriesPivot

/-- Why an operation fails. -/
inductive QueryError where
  /-- The query has no plan. -/
  | plan (e : PlanError)
  /-- The store did not do what it was asked for. -/
  | store (e : StoreError)
  /-- The provider is closed. -/
  | notConnected
  /-- A sub-query was started and never came to an end. -/
  | execution (detail : String)
  deriving DecidableEq, Repr

/-- The wording of an error. -/
def QueryError.message : QueryError → String
  | .plan e => "Plan error: " ++ e.message
  | .store e => "Store error: " ++ e.message
  | .notConnected => "No connection to the store"
  | .execution detail => "Execution error: " ++ detail

end SeriesPivot
