/-!
# Errors of a store

What may go wrong between a statement or a batch of points and the store. `StoreError.message` is the
wording of each cause.
-/

namespace SeriesPivot

/-- Why a store did not do what it was asked for. -/
inductive StoreError where
  /-- The request could not be made. -/
  | request
  | timeout
  | unavailable
  /-- The store answered with a status other than success. -/
  | api (status : Nat) (message : String)
  /-- The store rejected a statement. -/
  | statement (message : String)
  /-- The answer is no result. -/
  | decode (detail : String)
  /-- A document has no point. -/
  | invalidPoint (reason : String)
  deriving DecidableEq, Repr

/-- The wording of a store error. -/
def StoreError.message : StoreError → String
  | .request => "HTTP request failed"
  | .timeout => "Request timed out"
  | .unavailable => "Store unavailable"
  | .api status message => "API error (" ++ toString status ++ "): " ++ message
  | .statement message => "Statement failed: " ++ message
  | .decode detail => "Failed to decode response: " ++ detail
  | .invalidPoint reason => "Invalid point: " ++ reason

end SeriesPivot
