import SeriesPivot.Plan.Compile
import SeriesPivot.Provider.Error
import SeriesPivot.Provider.FanOut
import SeriesPivot.Provider.Insertion
import SeriesPivot.Provider.Response
import SeriesPivot.Settings.Basic

/-!
# Providers

A provider answers queries over a store until it is closed. An operation returns its answer, the calls to
the store that it made and the provider afterwards (`Step`).

* Every operation but `plan` needs the store, and fails with `notConnected` once the provider is closed,
  whatever its arguments.
* A plan takes one fresh identifier, and a query that has no plan takes none.
* A query sends all of its statements, also if some of them fail.
* An insertion makes all points before it writes them in one call.
-/

namespace SeriesPivot

/-- A provider. -/
structure Provider where
  hash : String → String
  /-- The identifiers that it gives out, one after another. -/
  identifier : Nat → String
  /-- The number of identifiers given out. -/
  issued : Nat
  settings : QuerySettings
  /-- The store, until the provider is closed. -/
  store : Option Store

/-- What an operation does. -/
structure Step (α : Type) where
  answer : Except QueryError α
  calls : List Call
  provider : Provider

namespace Step

/-- The statements that were sent. -/
def statements {α : Type} (s : Step α) : List String :=
  s.calls.filterMap Call.statement?

/-- The points that were written. -/
def written {α : Type} (s : Step α) : List Point :=
  s.calls.flatMap Call.written

/-- The step with another answer. -/
def map {α β : Type} (f : α → β) (s : Step α) : Step β :=
  ⟨s.answer.map f, s.calls, s.provider⟩

end Step

namespace Provider

/-- A provider over a store, or over none. -/
def create (hash : String → String) (identifier : Nat → String) (settings : QuerySettings)
    (store : Option Store) : Provider :=
  ⟨hash, identifier, 0, settings, store⟩

/-- Whether the provider has a store. -/
def isConnected (p : Provider) : Bool :=
  p.store.isSome

/-- The provider without its store. -/
def close (p : Provider) : Provider :=
  { p with store := none }

/-- The identifier that comes next. -/
def nextIdentifier (p : Provider) : String :=
  p.identifier p.issued

/-- The provider after it gave out an identifier. -/
def advance (p : Provider) : Provider :=
  { p with issued := p.issued + 1 }

/-- An operation on the store, which fails if there is none. -/
def withStore {α : Type} (p : Provider) (operation : Store → Step α) : Step α :=
  match p.store with
  | some store => operation store
  | none => ⟨.error .notConnected, [], p⟩

/-- The plan of a query. -/
def compile (p : Provider) (q : QueryDescriptor) : Except PlanError QueryPlan :=
  QueryPlan.compile p.hash p.settings.defaultInterval p.nextIdentifier q

/-- Compile a query and render its statements, without the store. -/
def plan (p : Provider) (q : QueryDescriptor) : Step PlanResponse :=
  match p.compile q with
  | .error e => ⟨.error (.plan e), [], p⟩
  | .ok plan => ⟨.ok ⟨plan, plan.statements p.settings.fillZero⟩, [], p.advance⟩

/-- The answer to a query from the completions of its sub-queries in order of arrival. -/
def conclude (p : Provider) (plan : QueryPlan) (completions : List Completion) :
    Except QueryError QueryResponse :=
  match gather completions with
  | .error e => .error (.store e)
  | .ok results => .ok ⟨Pivot.merge p.hash plan results, plan⟩

/-- Compile a query, send its statements and put their results together. -/
def query (p : Provider) (q : QueryDescriptor) : Step QueryResponse :=
  p.withStore fun store =>
    match p.compile q with
    | .error e => ⟨.error (.plan e), [], p⟩
    | .ok plan =>
      let fillZero := p.settings.fillZero
      ⟨p.conclude plan (plan.completions store fillZero),
        (plan.statements fillZero).map fun s => .statement s.2, p.advance⟩

/-- Write documents into a collection, and count them. -/
def insert (p : Provider) (collection : CollectionRef) (timeField : Option String) (now : Int)
    (documents : List Json) : Step Nat :=
  p.withStore fun store =>
    match Insertion.points collection timeField now documents with
    | .error e => ⟨.error (.store e), [], p⟩
    | .ok points => match store.write points with
      | .error e => ⟨.error (.store e), [.write points], p⟩
      | .ok () => ⟨.ok points.length, [.write points], p⟩

/-- Send one statement and make an answer of its result. -/
def send {α : Type} (p : Provider) (statement : Store → String) (answer : RawResult → α) : Step α :=
  p.withStore fun store =>
    let text := statement store
    match store.query text with
    | .error e => ⟨.error (.store e), [.statement text], p⟩
    | .ok raw => ⟨.ok (answer raw), [.statement text], p⟩

/-- Count the points of a collection. -/
def stats (p : Provider) (collection : CollectionRef) : Step CollectionStats :=
  p.send (fun _ => Statement.count collection.measurement) (CollectionStats.ofResult collection.key)

/-- Drop all series of a collection. -/
def dropCollection (p : Provider) (collection : CollectionRef) : Step Unit :=
  p.send (fun _ => Statement.dropSeries collection.measurement) (fun _ => ())

/-- Drop the database of the store. -/
def purge (p : Provider) : Step Unit :=
  p.send (fun store => Statement.dropDatabase store.database) (fun _ => ())

/-- Ping the store. -/
def check (p : Provider) : Step Unit :=
  p.withStore fun store =>
    match store.ping with
    | .error e => ⟨.error (.store e), [.ping], p⟩
    | .ok () => ⟨.ok (), [.ping], p⟩

end Provider

end SeriesPivot
