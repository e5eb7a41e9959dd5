import Std.Time.DateTime.Timestamp
import SeriesPivot.CommandLine.Program
import SeriesPivot.Sha256

/-!
# The program as an executable

`main` looks around for what a run may need, lets `CommandLine.run` decide, and prints or writes what it
says. There is no way to a server: every request is refused.
-/

namespace SeriesPivot.CommandLine

/-- The variables that settings may come from. -/
def variableNames : List String :=
  ["INFLUX_PROVIDER_URL", "INFLUX_PROVIDER_DATABASE", "INFLUX_PROVIDER_USERNAME",
    "INFLUX_PROVIDER_PASSWORD", "INFLUX_PROVIDER_API_HOST", "INFLUX_PROVIDER_API_PORT",
    "INFLUX_PROVIDER_LOG_LEVEL", "INFLUX_PROVIDER_LOG_FORMAT"]

/-- The reason why a file cannot be used. -/
def reasonOf (e : IO.Error) : String :=
  match e with
  | .noFileOrDirectory _ _ _ => "No such file or directory (os error 2)"
  | .permissionDenied _ _ _ => "Permission denied (os error 13)"
  | e => toString e

/-- The directory of the user's configuration files, as far as the environment tells. The user database,
which may still know the home of a user without the variable `HOME`, is out of reach. -/
def lookDirectory : IO (Option String) := do
  let chosen := (← IO.getEnv "XDG_CONFIG_HOME").filter fun path => path.startsWith "/"
  let home := (← IO.getEnv "HOME").filter fun path => path != ""
  return chosen.or (home.map (· ++ "/.config"))

/-- The variables that are set. -/
def lookEnvironment : IO Environment := do
  let found ← variableNames.filterMapM fun name => do
    return (← IO.getEnv name).map fun value => (name, value)
  return fun name => Keyed.find? name found

/-- The text of a file, or the reason why there is none. -/
def lookFile (path : String) : IO (String × Except String String) := do
  try
    return (path, .ok (← IO.FS.readFile path))
  catch e =>
    return (path, .error (reasonOf e))

/-- The standard input. -/
def lookInput : IO (Except String String) := do
  try
    return .ok (← (← IO.getStdin).readToEnd)
  catch e =>
    return .error (reasonOf e)

/-- Four bits in hexadecimal. -/
def hexDigits (bytes : List UInt8) : List Char :=
  bytes.flatMap fun b => [Json.hexChar (b.toNat / 16), Json.hexChar (b.toNat % 16)]

/-- The text of a random identifier, with its version and variant set. -/
def identifierText (bytes : List UInt8) : String :=
  let set (i : Nat) (b : UInt8) : UInt8 :=
    if i = 6 then (b &&& 0x0F) ||| 0x40 else if i = 8 then (b &&& 0x3F) ||| 0x80 else b
  let digits := hexDigits (bytes.mapIdx set)
  let part (start count : Nat) : String := String.ofList ((digits.drop start).take count)
  "-".intercalate [part 0 8, part 8 4, part 12 4, part 16 4, part 20 12]

/-- As many fresh identifiers as a run may take. -/
def freshIdentifiers : IO (Nat → String) := do
  let texts ← (List.range 2).mapM fun _ => do
    return identifierText (← IO.getRandomBytes 16).toList
  return fun n => texts.getD n ""

/-- What a run with these arguments may need. -/
def lookAround (args : List String) : IO World := do
  let directory ← lookDirectory
  let environment ← lookEnvironment
  let wanted := (read args).toOption
  let found ← ((wanted.map (filesOf directory)).getD []).mapM lookFile
  let input ← if wanted.any readsInput then lookInput else pure (.ok "")
  let now ← Std.Time.Timestamp.now
  return {
    directory := directory
    environment := environment
    files := fun path => (Keyed.find? path found).getD (.error "not looked for")
    input := input
    exchange := fun _ => .error .refused
    identifier := ← freshIdentifiers
    now := now.toMillisecondsSinceUnixEpoch.toInt }

/-- Print a report. -/
def report (r : Report) : IO UInt32 := do
  IO.print r.output
  IO.eprint r.errorOutput
  return r.code.toUInt32

/-- Carry out what is to be done. -/
def carryOut : Action → IO UInt32
  | .report r => report r
  | .save path text => do
    try
      IO.FS.writeFile path text
      report (.saved path)
    catch e =>
      report (.unsaved path (reasonOf e))

end SeriesPivot.CommandLine

/-- The program. -/
def main (args : List String) : IO UInt32 := do
  let world ← SeriesPivot.CommandLine.lookAround args
  SeriesPivot.CommandLine.carryOut (SeriesPivot.CommandLine.run SeriesPivot.Sha256.hex world args)
