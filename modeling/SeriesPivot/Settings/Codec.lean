import SeriesPivot.Json.Decode
import SeriesPivot.Settings.Basic

/-!
# Settings as records

Each group of settings is a record in which every field may be absent. `surplus` says whether a group that
is written as an array may have more items than fields.
-/

namespace SeriesPivot

open Json (Decoder)
open Json.Decode (record optional listOf natBelow)

/-- The settings of the store from their fields. -/
def StoreSettings.decode (surplus : Bool) : Decoder StoreSettings :=
  record surplus
    [⟨"url", false, fun s v => do return { s with url := ← Json.Decode.string v }⟩,
     ⟨"database", false, fun s v => do return { s with database := ← Json.Decode.string v }⟩,
     ⟨"username", false, fun s v => do
       return { s with username := ← optional Json.Decode.string v }⟩,
     ⟨"password", false, fun s v => do
       return { s with password := ← optional Json.Decode.string v }⟩,
     ⟨"request_timeout_ms", false, fun s v => do
       return { s with timeoutMillis := ← natBelow UInt64.size v }⟩]
    .standard

/-- The settings of the HTTP interface from their fields. -/
def ApiSettings.decode (surplus : Bool) : Decoder ApiSettings :=
  record surplus
    [⟨"host", false, fun s v => do return { s with host := ← Json.Decode.string v }⟩,
     ⟨"port", false, fun s v => do return { s with port := ← natBelow UInt16.size v }⟩,
     ⟨"cors_origins", false, fun s v => do
       return { s with corsOrigins := ← listOf Json.Decode.string v }⟩,
     ⟨"request_timeout_secs", false, fun s v => do
       return { s with timeoutSeconds := ← natBelow UInt64.size v }⟩]
    .standard

/-- The settings of queries from their fields. -/
def QuerySettings.decode (surplus : Bool) : Decoder QuerySettings :=
  record surplus
    [⟨"default_interval", false, fun s v => do
       return { s with defaultInterval := Interval.ofToken (← Json.Decode.string v) }⟩,
     ⟨"fill_zero", false, fun s v => do return { s with fillZero := ← Json.Decode.bool v }⟩]
    .standard

/-- The settings of the log from their fields. -/
def LogSettings.decode (surplus : Bool) : Decoder LogSettings :=
  record surplus
    [⟨"level", false, fun s v => do return { s with level := ← Json.Decode.string v }⟩,
     ⟨"format", false, fun s v => do return { s with format := ← Json.Decode.string v }⟩]
    .standard

/-- All settings from their groups. -/
def Settings.decode (surplus : Bool) : Decoder Settings :=
  record surplus
    [⟨"influx", false, fun s v => do return { s with store := ← StoreSettings.decode surplus v }⟩,
     ⟨"api", false, fun s v => do return { s with api := ← ApiSettings.decode surplus v }⟩,
     ⟨"query", false, fun s v => do return { s with query := ← QuerySettings.decode surplus v }⟩,
     ⟨"logging", false, fun s v => do return { s with logging := ← LogSettings.decode surplus v }⟩]
    .standard

end SeriesPivot
