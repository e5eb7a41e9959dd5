import SeriesPivot.Descriptor.Tokens

/-!
# Settings

The settings of the program in four groups, each with its defaults in `standard`: the store, the HTTP
interface, the planning of queries and the log.
-/

namespace SeriesPivot

/-- How the store is reached. -/
structure StoreSettings where
  url : String
  database : String
  username : Option String
  password : Option String
  timeoutMillis : Nat
  deriving DecidableEq, Repr

/-- A local server without credentials. -/
def StoreSettings.standard : StoreSettings :=
  ⟨"http://localhost:8086", "analytics", none, none, 30000⟩

/-- The HTTP interface. -/
structure ApiSettings where
  host : String
  port : Nat
  /-- The origins that may call from other sites; none are listed where all may. -/
  corsOrigins : List String
  timeoutSeconds : Nat
  deriving DecidableEq, Repr

/-- All interfaces, port 8082. -/
def ApiSettings.standard : ApiSettings :=
  ⟨"0.0.0.0", 8082, [], 30⟩

/-- The address to listen on. -/
def ApiSettings.address (s : ApiSettings) : String :=
  s.host ++ ":" ++ toString s.port

/-- How queries are planned. -/
structure QuerySettings where
  /-- The time bucket of queries that name none. -/
  defaultInterval : Interval
  /-- Whether groups without points are filled with zero. -/
  fillZero : Bool
  deriving DecidableEq, Repr

/-- Buckets of a day, filled with zero. -/
def QuerySettings.standard : QuerySettings :=
  ⟨.day, true⟩

/-- The log. -/
structure LogSettings where
  level : String
  format : String
  deriving DecidableEq, Repr

/-- Readable lines from `info` on. -/
def LogSettings.standard : LogSettings :=
  ⟨"info", "pretty"⟩

/-- All settings. -/
structure Settings where
  store : StoreSettings
  api : ApiSettings
  query : QuerySettings
  logging : LogSettings
  deriving DecidableEq, Repr

/-- All defaults. -/
def Settings.standard : Settings :=
  ⟨.standard, .standard, .standard, .standard⟩

end SeriesPivot
