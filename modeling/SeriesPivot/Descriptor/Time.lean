import SeriesPivot.Calendar.Read
import SeriesPivot.Json.Basic

/-!
# Points in time in descriptors and documents

`Json.instant?` reads a value as an instant: a text as `Instant.read?` does, and a number as epoch
milliseconds, its fraction cut off. Other values are no instants.
-/

namespace SeriesPivot.Json

/-- The instant that a value denotes. -/
def instant? : Json → Option Instant
  | .number n => Instant.ofMillis? n.clampInt64
  | .string s => Instant.read? s
  | _ => none

end SeriesPivot.Json
