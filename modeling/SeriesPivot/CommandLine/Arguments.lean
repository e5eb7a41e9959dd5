import SeriesPivot.Text.Basic

/-!
# Arguments

What the arguments of the program ask for. Options may stand before the command and behind it; an option
behind the command counts more than the same option before it.

* A long option takes its value as `--name value` or `--name=value`, a short one as `-n value`, `-nvalue` or
  `-n=value`. A value that is an argument of its own does not begin with a hyphen, unless it is one.
* Behind `--` every argument is a word.
* An option is given at most once on each side of the command.
* Arguments are read in order, so the first help, version or mistake decides.
-/

namespace SeriesPivot.CommandLine

/-- The form of results. -/
inductive Format where
  | table | json
  deriving DecidableEq, Repr

/-- The format of a name. -/
def Format.ofName? (s : String) : Option Format :=
  if s = "table" then some .table else if s = "json" then some .json else none

/-- What is to be done. -/
inductive Command where
  | query (file : String)
  | plan (file : String)
  | insert (collection file : String) (storeKey timeField : Option String)
  | stats (collection : String)
  | drop (collection : String)
  | purge (confirmed : Bool)
  | config (output : Option String)
  deriving DecidableEq, Repr

/-- A command with the options that all commands have. -/
structure Invocation where
  command : Command
  settings : Option String
  format : Format
  deriving DecidableEq, Repr

/-- Why arguments ask for no command. -/
inductive Stop where
  | help
  | version
  /-- The arguments are none of the program's. -/
  | misuse
  deriving DecidableEq, Repr

/-- An option: its names, whether it takes a value, and which values it takes. -/
structure Switch where
  name : String
  short : Option Char
  valued : Bool
  accepts : String → Bool

/-- Options and words that were read. -/
structure Given where
  options : List (String × String)
  words : List String

/-- Nothing yet. -/
def Given.none : Given := ⟨[], []⟩

/-- The value of an option. -/
def Given.value? (g : Given) (name : String) : Option String :=
  (g.options.find? fun p => p.1 == name).map (·.2)

/-- What may be given on one side of the command. -/
structure Level where
  options : List Switch
  /-- Which words are taken, in order. -/
  words : List (String → Bool)
  /-- Whether this is the side before the command. -/
  isFront : Bool

/-- Put in an option with its value. -/
def Level.give (o : Switch) (value : String) (g : Given) : Except Stop Given :=
  if (g.value? o.name).isSome ∨ !o.accepts value then .error .misuse
  else .ok { g with options := g.options ++ [(o.name, value)] }

/-- Put in a word. -/
def Level.word (l : Level) (w : String) (g : Given) : Except Stop Given :=
  match l.words[g.words.length]? with
  | some accepts => if accepts w then .ok { g with words := g.words ++ [w] } else .error .misuse
  | none => .error .misuse

/-- Put in words. -/
def Level.wordsAll (l : Level) : Given → List String → Except Stop Given
  | g, [] => .ok g
  | g, w :: rest => do l.wordsAll (← l.word w g) rest

/-- An option as it is written: an option of the level with the value that is attached to it, or a reason
to stop. -/
def Level.read (l : Level) (long : Bool) (body : List Char) : Except Stop (Switch × Option String) :=
  if long then
    let name := String.ofList (body.takeWhile (· != '='))
    let attached := match body.dropWhile (· != '=') with
      | _ :: value => some (String.ofList value)
      | [] => none
    if name = "help" ∧ attached.isNone then .error .help
    else if name = "version" ∧ attached.isNone ∧ l.isFront then .error .version
    else
      match l.options.find? fun o => o.name == name with
      | some o => .ok (o, attached)
      | none => .error .misuse
  else
    match body with
    | 'h' :: _ => .error .help
    | c :: rest =>
      if c = 'V' ∧ l.isFront then .error .version
      else
        let attached := match rest with
          | '=' :: value => some (String.ofList value)
          | [] => none
          | value => some (String.ofList value)
        match l.options.find? fun o => o.short == some c with
        | some o => .ok (o, attached)
        | none => .error .misuse
    | [] => .error .misuse

/-- Whether an argument may be the value of the option before it. -/
def isValue (arg : String) : Bool :=
  match arg.toList with
  | ['-'] => true
  | '-' :: _ => false
  | _ => true

/-- Read the arguments of a level. On the front side the first word ends it, and is returned with what
follows it. -/
def Level.scan (l : Level) (g : Given) : List String → Except Stop (Given × List String)
  | [] => .ok (g, [])
  | arg :: rest =>
    let takeOption (long : Bool) (body : List Char) : Except Stop (Given × List String) :=
      match l.read long body with
      | .error stop => .error stop
      | .ok (o, attached) =>
        match o.valued, attached, rest with
        | false, none, rest => do l.scan (← Level.give o "" g) rest
        | false, some _, _ => .error .misuse
        | true, some value, rest => do l.scan (← Level.give o value g) rest
        | true, none, value :: rest =>
          if isValue value then do l.scan (← Level.give o value g) rest else .error .misuse
        | true, none, [] => .error .misuse
    match arg.toList with
    | ['-', '-'] =>
      if l.isFront then .error .misuse
      else do return (← l.wordsAll g rest, [])
    | '-' :: '-' :: body => takeOption true body
    | '-' :: c :: body => takeOption false (c :: body)
    | _ =>
      if l.isFront then .ok (g, arg :: rest)
      else do l.scan (← l.word arg g) rest
termination_by args => args.length

/-- Any text. -/
def anyText (_ : String) : Bool := true

/-- The name of a file. -/
def isPath (s : String) : Bool := s != ""

/-- The options that all commands have. -/
def commonOptions : List Switch :=
  [⟨"config", some 'c', true, isPath⟩,
    ⟨"format", some 'f', true, fun s => (Format.ofName? s).isSome⟩]

/-- The side before the command. -/
def front : Level := ⟨commonOptions, [], true⟩

/-- The side behind a command. -/
def level? (command : String) : Option Level :=
  let level (options : List Switch) (words : List (String → Bool)) : Level :=
    ⟨options ++ commonOptions, words, false⟩
  if command = "query" ∨ command = "plan" then some (level [] [isPath])
  else if command = "insert" then
    some (level [⟨"store-key", none, true, anyText⟩, ⟨"time-field", none, true, anyText⟩]
      [anyText, isPath])
  else if command = "stats" ∨ command = "drop" then some (level [] [anyText])
  else if command = "purge" then some (level [⟨"yes", none, false, anyText⟩] [])
  else if command = "config" then some (level [⟨"output", some 'o', true, isPath⟩] [])
  else none

/-- The command of its name and what was given behind it. -/
def command? (name : String) (g : Given) : Option Command :=
  match g.words with
  | [] =>
    if name = "purge" then some (.purge (g.value? "yes").isSome)
    else if name = "config" then some (.config (g.value? "output"))
    else none
  | [word] =>
    if name = "query" then some (.query word)
    else if name = "plan" then some (.plan word)
    else if name = "stats" then some (.stats word)
    else if name = "drop" then some (.drop word)
    else none
  | [collection, file] =>
    if name = "insert" then
      some (.insert collection file (g.value? "store-key") (g.value? "time-field"))
    else none
  | _ => none

/-- What the arguments ask for. -/
def read (args : List String) : Except Stop Invocation := do
  let (before, rest) ← front.scan .none args
  match rest with
  | [] => throw .misuse
  | name :: rest =>
    match level? name with
    | none =>
      match name, rest with
      | "help", [] => throw .help
      | "help", [topic] => if topic = "help" ∨ (level? topic).isSome then throw .help else throw .misuse
      | _, _ => throw .misuse
    | some level => do
      let (behind, _) ← level.scan .none rest
      let value? (name : String) : Option String := (behind.value? name).or (before.value? name)
      match command? name behind with
      | none => throw .misuse
      | some command =>
        return ⟨command, value? "config", ((value? "format").bind Format.ofName?).getD .table⟩

end SeriesPivot.CommandLine
