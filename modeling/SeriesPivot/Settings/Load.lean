import SeriesPivot.Settings.Codec
import SeriesPivot.Text.Quoted
import SeriesPivot.Toml.Source

/-!
# Where settings come from

Settings come from a file in TOML, over which variables of the environment take precedence.

* `Settings.override` sets what the variables say. A port that is no 16-bit number is passed over.
* `Settings.loadFirst` takes the first of the usual files that can be loaded, or the defaults if there is
  none. A file that is broken is passed over like one that is missing. Where users keep their own files is
  for the system to say.
-/

namespace SeriesPivot

/-- Why settings are not loaded from a file. -/
inductive SettingsError where
  | unreadable (path reason : String)
  | malformed (path : String)
  deriving DecidableEq, Repr

/-- The wording of an error. -/
def SettingsError.message : SettingsError → String
  | .unreadable path reason =>
    "Failed to read config file " ++ Text.quotePath path ++ ": " ++ reason
  | .malformed path => "Failed to parse config file " ++ Text.quotePath path

/-- The files that can be read: the text of each, or the reason why there is none. -/
abbrev Files := String → Except String String

/-- The variables of the environment that are set. -/
abbrev Environment := String → Option String

namespace Settings

/-- The settings of a text in TOML. -/
def ofToml? (text : String) : Option Settings :=
  (Toml.source? text).bind fun source => (decode true source).toOption

/-- The settings of a file. -/
def load (files : Files) (path : String) : Except SettingsError Settings :=
  match files path with
  | .error reason => .error (.unreadable path reason)
  | .ok text =>
    match ofToml? text with
    | some s => .ok s
    | none => .error (.malformed path)

/-- The settings of the store with the variables that are set. -/
def overrideStore (env : Environment) (s : StoreSettings) : StoreSettings :=
  { s with
    url := (env "INFLUX_PROVIDER_URL").getD s.url
    database := (env "INFLUX_PROVIDER_DATABASE").getD s.database
    username := (env "INFLUX_PROVIDER_USERNAME").or s.username
    password := (env "INFLUX_PROVIDER_PASSWORD").or s.password }

/-- The settings of the HTTP interface with the variables that are set. -/
def overrideApi (env : Environment) (s : ApiSettings) : ApiSettings :=
  { s with
    host := (env "INFLUX_PROVIDER_API_HOST").getD s.host
    port := ((env "INFLUX_PROVIDER_API_PORT").bind (Text.readNatBelow UInt16.size)).getD s.port }

/-- The settings of the log with the variables that are set. -/
def overrideLog (env : Environment) (s : LogSettings) : LogSettings :=
  ⟨(env "INFLUX_PROVIDER_LOG_LEVEL").getD s.level,
    (env "INFLUX_PROVIDER_LOG_FORMAT").getD s.format⟩

/-- The settings with the variables that are set. -/
def override (env : Environment) (s : Settings) : Settings :=
  { s with
    store := overrideStore env s.store
    api := overrideApi env s.api
    logging := overrideLog env s.logging }

/-- The settings of a file with the variables that are set. -/
def loadWith (env : Environment) (files : Files) (path : String) :
    Except SettingsError Settings :=
  (load files path).map (override env)

/-- The defaults with the variables that are set. -/
def ofEnvironment (env : Environment) : Settings :=
  override env standard

/-- The usual files, the first one first. The user's own is in the directory of the user's configuration
files, if the system knows one. -/
def candidates (directory : Option String) : List String :=
  (directory.map (· ++ "/influx-provider/config.toml")).toList ++
    ["/etc/influx-provider/config.toml", "./config.toml"]

/-- The settings of the first usual file that can be loaded, or the defaults, with the variables that are
set. -/
def loadFirst (directory : Option String) (env : Environment) (files : Files) : Settings :=
  ((candidates directory).findSome? fun path =>
    (loadWith env files path).toOption).getD (ofEnvironment env)

end Settings

end SeriesPivot
