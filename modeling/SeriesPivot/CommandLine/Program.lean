import SeriesPivot.CommandLine.Arguments
import SeriesPivot.CommandLine.Table
import SeriesPivot.Client.Basic
import SeriesPivot.Provider.Basic
import SeriesPivot.Settings.Load
import SeriesPivot.Settings.Template

/-!
# The program

`run` says what the program does with its arguments in a given world: what it prints and its exit code, or
the file that it writes.

* The settings are loaded before any other file is read, except for the command that writes them.
* The exit code is 2 for arguments that are none of the program's, and 1 for every other failure.
-/

namespace SeriesPivot.CommandLine

/-- What the program finds around it. -/
structure World where
  /-- The directory of the user's configuration files, if there is one. -/
  directory : Option String
  environment : Environment
  files : Files
  /-- The standard input, or the reason why it is no text. -/
  input : Except String String
  /-- The way to the server of the store. -/
  exchange : Client.Exchange
  /-- Fresh identifiers. -/
  identifier : Nat → String
  /-- Epoch milliseconds. -/
  now : Int

/-- Why a command fails. -/
inductive Failure where
  | settings (e : SettingsError)
  | query (e : QueryError)
  | unreadableInput (reason : String)
  | unreadable (path reason : String)
  | unwritable (path reason : String)
  | malformed (path : String)
  | noDescriptor
  | noDocuments
  | unconfirmed (database : String)
  deriving DecidableEq, Repr

/-- The wording of a failure. -/
def Failure.message : Failure → String
  | .settings e => e.message
  | .query e => e.message
  | .unreadableInput reason => reason
  | .unreadable path _ => "Failed to read " ++ Text.quotePath path
  | .unwritable path _ => "Failed to write " ++ Text.quotePath path
  | .malformed path => "Invalid JSON in " ++ Text.quotePath path
  | .noDescriptor => "Invalid query descriptor"
  | .noDocuments => "Expected a JSON object or array of objects"
  | .unconfirmed database => "Refusing to drop database " ++ database ++ " without --yes"

/-- The reason behind a failure that its wording leaves out. -/
def Failure.cause? : Failure → Option String
  | .unreadable _ reason | .unwritable _ reason => some reason
  | _ => none

/-- What the program leaves behind: its exit code and what it prints. -/
structure Report where
  code : Nat
  output : String
  errorOutput : String
  deriving DecidableEq, Repr

/-- A report of success. -/
def Report.success (output : String) : Report := ⟨0, output, ""⟩

/-- A report of failure. -/
def Report.failure (f : Failure) : Report :=
  let cause := match f.cause? with
    | some reason => "\n\nCaused by:\n    " ++ reason
    | none => ""
  ⟨1, "", "Error: " ++ f.message ++ cause ++ "\n"⟩

/-- What the program does. -/
inductive Action where
  | report (r : Report)
  /-- Write a file, and report success or the reason of the failure. -/
  | save (path text : String)
  deriving DecidableEq, Repr

/-- The report on a file that was written. -/
def Report.saved (path : String) : Report :=
  .success (lines ["Config written to " ++ Text.quotePath path])

/-- The report on a file that could not be written. -/
def Report.unsaved (path reason : String) : Report :=
  .failure (.unwritable path reason)

/-- A value from a file in JSON, or from the standard input for the name `-`. -/
def readJson (w : World) (path : String) : Except Failure Json :=
  let content := if path = "-" then w.input.mapError .unreadableInput
    else (w.files path).mapError (.unreadable path)
  match content with
  | .error f => .error f
  | .ok text =>
    match Json.parse? text with
    | some j => .ok j
    | none => .error (.malformed path)

/-- A query from a file. -/
def readDescriptor (w : World) (path : String) : Except Failure QueryDescriptor :=
  match readJson w path with
  | .error f => .error f
  | .ok j =>
    match QueryDescriptor.ofJson? j with
    | some q => .ok q
    | none => .error .noDescriptor

/-- Documents from a file: the items of an array, or one object. -/
def readDocuments (w : World) (path : String) : Except Failure (List Json) :=
  match readJson w path with
  | .error f => .error f
  | .ok (.array items) => .ok items
  | .ok (.object fields) => .ok [.object fields]
  | .ok _ => .error .noDocuments

/-- A result in either form. -/
def render {α : Type} (format : Format) (json : α → Json) (table : α → String) (a : α) : String :=
  match format with
  | .json => lines [(json a).pretty]
  | .table => table a

/-- The report on an answer of the provider. -/
def Report.ofAnswer {α : Type} (answer : Except QueryError α) (output : α → String) : Report :=
  match answer with
  | .ok a => .success (output a)
  | .error e => .failure (.query e)

/-- A report on what was read from a file. -/
def Report.reading {α : Type} (read : Except Failure α) (report : α → Report) : Report :=
  match read with
  | .ok a => report a
  | .error f => .failure f

/-- What is noted about the answer to a query, in the form of a table. -/
def warnings (format : Format) (r : QueryResponse) : String :=
  match format with
  | .json => ""
  | .table => lines (r.result.anomalies.map ("warning: " ++ ·))

/-- The report on a query. -/
def Report.ofQuery (format : Format) (answer : Except QueryError QueryResponse) : Report :=
  match answer with
  | .ok r => ⟨0, render format QueryResponse.toJson responseTable r, warnings format r⟩
  | .error e => .failure (.query e)

/-- Carry out a command with a provider over the store of the settings. -/
def execute (w : World) (format : Format) (s : Settings) (p : Provider) : Command → Report
  | .query file => .reading (readDescriptor w file) fun q => .ofQuery format (p.query q).answer
  | .plan file => .reading (readDescriptor w file) fun q =>
      .ofAnswer (p.plan q).answer (render format PlanResponse.toJson planTable)
  | .insert collection file storeKey timeField => .reading (readDocuments w file) fun documents =>
      .ofAnswer (p.insert ⟨collection, storeKey⟩ timeField w.now documents).answer fun count =>
        lines ["Inserted " ++ toString count ++ " documents into " ++ collection]
  | .stats collection =>
      .ofAnswer (p.stats ⟨collection, none⟩).answer
        (render format CollectionStats.toJson statsTable)
  | .drop collection => .ofAnswer (p.dropCollection ⟨collection, none⟩).answer fun _ =>
      lines ["Dropped " ++ collection]
  | .purge false => .failure (.unconfirmed s.store.database)
  | .purge true => .ofAnswer p.purge.answer fun _ =>
      lines ["Dropped database " ++ s.store.database]
  | .config _ => .success ""

/-- The files that an invocation may read, the standard input left out. -/
def filesOf (directory : Option String) (i : Invocation) : List String :=
  let read := match i.command with
    | .query file | .plan file | .insert _ file _ _ => [file]
    | _ => []
  i.settings.toList ++ Settings.candidates directory ++ read.filter fun file => file != "-"

/-- Whether an invocation reads the standard input. -/
def readsInput (i : Invocation) : Bool :=
  match i.command with
  | .query file | .plan file | .insert _ file _ _ => file == "-"
  | _ => false

/-- The settings that an invocation works with. -/
def loadSettings (w : World) (path : Option String) : Except Failure Settings :=
  match path with
  | some path => (Settings.loadWith w.environment w.files path).mapError .settings
  | none => .ok (Settings.loadFirst w.directory w.environment w.files)

/-- The provider over the store of the settings. The program itself takes the first identifier. -/
def openProvider (hash : String → String) (w : World) (s : Settings) : Provider :=
  (Provider.create hash w.identifier s.query (some (Client.store s.store w.exchange))).advance

/-- Do what an invocation asks for. -/
def invoke (hash : String → String) (w : World) (i : Invocation) : Action :=
  match i.command with
  | .config (some path) => .save path Settings.template
  | .config none => .report (.success Settings.template)
  | command =>
    match loadSettings w i.settings with
    | .error f => .report (.failure f)
    | .ok s => .report (execute w i.format s (openProvider hash w s) command)

/-- The name and version of the program. -/
def versionText : String := "influx-provider-cli 0.1.0"

/-- How the program is used. -/
def usage : String :=
  lines ["Usage: influx-provider-cli [OPTIONS] <COMMAND>", "",
    "Commands:",
    "  query <FILE>                Execute a query descriptor",
    "  plan <FILE>                 Print the statements of a query descriptor",
    "  insert <COLLECTION> <FILE>  Insert documents into a collection",
    "  stats <COLLECTION>          Show point counts of a collection",
    "  drop <COLLECTION>           Drop every series of a collection",
    "  purge --yes                 Drop the whole database",
    "  config [--output <PATH>]    Generate a default config file", "",
    "Options:",
    "  -c, --config <PATH>         Config file",
    "  -f, --format <FORMAT>       Output format, table or json",
    "  -h, --help                  Print help",
    "  -V, --version               Print version"]

/-- What the program does with its arguments. -/
def run (hash : String → String) (w : World) (args : List String) : Action :=
  match read args with
  | .ok i => invoke hash w i
  | .error .help => .report (.success usage)
  | .error .version => .report (.success (lines [versionText]))
  | .error .misuse => .report ⟨2, "", usage⟩

end SeriesPivot.CommandLine
