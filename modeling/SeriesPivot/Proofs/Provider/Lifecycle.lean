import SeriesPivot.Proofs.Provider.FanOut
import SeriesPivot.Provider.Run

/-!
# The life of a provider

A provider sends what its operations need until it is closed, and nothing from then on. Here it lives
through any operations, each at a time of its own and over a store that may answer differently by then.

* `Provider.live` performs operations so; a run at one time over one store is a special case (`run_eq_live`).
* `Operation.statements` are the statements that an operation sends through an open provider.
* `perform_provider`: an operation changes nothing but the number of identifiers given out, and closing
  takes the store away.
* `Provider.Lawful` is what one step of an open or closed provider does, and `lawful_live` says that all
  steps of a life do so.
-/

namespace SeriesPivot

/-! ### Operations -/

namespace Operation

/-- Whether an operation works on the store. -/
def needsStore : Operation → Bool
  | .query _ | .insert _ _ _ | .stats _ | .drop _ | .purge | .check => true
  | .plan _ | .close | .connected => false

/-- The store of a provider after an operation. -/
def leaves (store : Option Store) : Operation → Option Store
  | .close => none
  | .query _ | .plan _ | .insert _ _ _ | .stats _ | .drop _ | .purge | .check | .connected => store

/-- The statements that an operation sends through an open provider: a query sends those of its plan, and
an operation on a collection or on the whole database sends its own. -/
def statements (p : Provider) (store : Store) : Operation → List String
  | .query q => match (p.plan q).answer with
    | .ok r => r.statements.map Prod.snd
    | .error _ => []
  | .stats collection => [Statement.count collection.measurement]
  | .drop collection => [Statement.dropSeries collection.measurement]
  | .purge => [Statement.dropDatabase store.database]
  | .plan _ | .insert _ _ _ | .check | .close | .connected => []

theorem leaves_eq_none_iff {store : Option Store} {operation : Operation} :
    operation.leaves store = none ↔ store = none ∨ operation = .close := by
  cases operation <;> simp [leaves]

end Operation

/-- The answer to a dry run without the identifier of its plan. -/
def PlanResponse.anonymous (r : PlanResponse) : PlanResponse :=
  { r with plan := { r.plan with uid := "" } }

namespace Provider

/-- When an operation is performed, and the store by its answers at that time. -/
structure Moment where
  now : Int
  store : Store

/-- The provider over its store as it is by now; a closed provider stays without one. -/
def refresh (p : Provider) (store : Store) : Provider :=
  { p with store := p.store.map fun _ => store }

/-- Perform operations one after another, each at its moment. -/
def live (p : Provider) : List (Moment × Operation) → List (Step Outcome)
  | [] => []
  | (moment, operation) :: rest =>
    let step := (p.refresh moment.store).perform moment.now operation
    step :: live step.provider rest

/-! ### What an operation changes -/

theorem provider_query (p : Provider) (q : QueryDescriptor) :
    (p.query q).provider = p ∨ (p.query q).provider = p.advance := by
  unfold query withStore
  cases p.store with
  | none => exact .inl rfl
  | some store =>
    cases p.compile q with
    | error e => exact .inl rfl
    | ok plan => exact .inr rfl

theorem provider_plan (p : Provider) (q : QueryDescriptor) :
    (p.plan q).provider = p ∨ (p.plan q).provider = p.advance := by
  unfold plan
  cases p.compile q with
  | error e => exact .inl rfl
  | ok plan => exact .inr rfl

theorem provider_insert (p : Provider) (collection : CollectionRef) (chosen : Option String) (now : Int)
    (documents : List Json) : (p.insert collection chosen now documents).provider = p := by
  unfold insert withStore
  cases p.store with
  | none => rfl
  | some store =>
    cases Insertion.points collection chosen now documents with
    | error e => rfl
    | ok points => cases hw : store.write points <;> simp [hw]

theorem provider_send {α : Type} (p : Provider) (statement : Store → String) (answer : RawResult → α) :
    (p.send statement answer).provider = p := by
  unfold send withStore
  cases p.store with
  | none => rfl
  | some store => cases hq : store.query (statement store) <;> simp [hq]

theorem provider_check (p : Provider) : p.check.provider = p := by
  unfold check withStore
  cases p.store with
  | none => rfl
  | some store => cases hp : store.ping <;> simp [hp]

/-- An operation changes nothing but the number of identifiers given out, and closing takes the store
away. -/
theorem perform_provider (now : Int) (p : Provider) (operation : Operation) :
    ∃ issued, (p.perform now operation).provider =
      { p with issued := issued, store := operation.leaves p.store } := by
  cases operation with
  | query q =>
    rcases p.provider_query q with h | h
    · exact ⟨p.issued, h⟩
    · exact ⟨p.issued + 1, h⟩
  | plan q =>
    rcases p.provider_plan q with h | h
    · exact ⟨p.issued, h⟩
    · exact ⟨p.issued + 1, h⟩
  | insert collection chosen documents =>
    exact ⟨p.issued, p.provider_insert collection chosen now documents⟩
  | stats collection =>
    exact ⟨p.issued, p.provider_send (fun _ => Statement.count collection.measurement)
      (CollectionStats.ofResult collection.key)⟩
  | drop collection =>
    exact ⟨p.issued, p.provider_send (fun _ => Statement.dropSeries collection.measurement) fun _ => ()⟩
  | purge =>
    exact ⟨p.issued, p.provider_send (fun store => Statement.dropDatabase store.database) fun _ => ()⟩
  | check => exact ⟨p.issued, p.provider_check⟩
  | close => exact ⟨p.issued, rfl⟩
  | connected => exact ⟨p.issued, rfl⟩

/-! ### Dry runs -/

/-- Providers that compile and render alike. -/
structure Alike (p r : Provider) : Prop where
  hash : r.hash = p.hash
  settings : r.settings = p.settings

theorem Alike.refl (p : Provider) : Alike p p := ⟨rfl, rfl⟩

/-- The identifier of a plan is all that depends on the identifier. -/
theorem compile_uid (hash : String → String) (defaultInterval : Interval) (uid uid' : String)
    (q : QueryDescriptor) :
    QueryPlan.compile hash defaultInterval uid' q =
      (QueryPlan.compile hash defaultInterval uid q).map fun plan => { plan with uid := uid' } := by
  unfold QueryPlan.compile
  cases Clauses.ofQuery defaultInterval q <;> rfl

/-- Providers that compile and render alike give the same answer to a dry run, up to the identifier. -/
theorem Alike.plan {p r : Provider} (h : Alike p r) (q : QueryDescriptor) :
    (r.plan q).answer.map PlanResponse.anonymous = (p.plan q).answer.map PlanResponse.anonymous := by
  unfold Provider.plan Provider.compile
  rw [h.hash, h.settings, compile_uid p.hash _ p.nextIdentifier r.nextIdentifier]
  cases QueryPlan.compile p.hash p.settings.defaultInterval p.nextIdentifier q <;> rfl

/-- The statements of a dry run as a query sends them. -/
theorem Alike.statements {p r : Provider} (h : Alike p r) (store : Store) (operation : Operation) :
    operation.statements r store = operation.statements p store := by
  cases operation with
  | query q =>
    have hplan := h.plan q
    simp only [Operation.statements]
    cases hr : (r.plan q).answer <;> cases hp : (p.plan q).answer <;> simp only [hr, hp] at hplan ⊢
    · cases hplan
    · cases hplan
    · have hstatements := congrArg PlanResponse.statements (Except.ok.inj hplan)
      exact congrArg (List.map Prod.snd) hstatements
  | plan _ | insert _ _ _ | stats _ | drop _ | purge | check | close | connected => rfl

/-! ### Steps of open and of closed providers -/

/-- Calls that send statements. -/
theorem filterMap_statement? (texts : List (String × String)) :
    (texts.map fun s => Call.statement s.2).filterMap Call.statement? = texts.map Prod.snd := by
  simp [List.filterMap_map, Function.comp_def, Call.statement?]

/-- An open provider sends one statement for an operation that needs one. -/
theorem statements_send {α : Type} {p : Provider} {store : Store} (hstore : p.store = some store)
    (statement : Store → String) (answer : RawResult → α) :
    (p.send statement answer).statements = [statement store] := by
  simp only [Step.statements, send, withStore, hstore]
  cases store.query (statement store) <;> rfl

/-- An open provider sends the statements that a dry run of the query shows, also if the store fails. -/
theorem statements_query {p : Provider} {store : Store} (hstore : p.store = some store)
    (q : QueryDescriptor) : (p.query q).statements = Operation.statements p store (.query q) := by
  simp only [Step.statements, Operation.statements, query, withStore, hstore, plan]
  cases p.compile q with
  | error e => rfl
  | ok plan => exact filterMap_statement? (plan.statements p.settings.fillZero)

/-- An open provider sends the statements of its operations, whatever the store answers. -/
theorem statements_perform {p : Provider} {store : Store} (hstore : p.store = some store) (now : Int)
    (operation : Operation) :
    (p.perform now operation).statements = operation.statements p store := by
  cases operation with
  | query q => exact statements_query hstore q
  | plan q =>
    simp only [Step.statements, perform, Step.map, plan, Operation.statements]
    cases p.compile q <;> rfl
  | insert collection chosen documents =>
    simp only [Step.statements, perform, Step.map, insert, withStore, hstore, Operation.statements]
    cases Insertion.points collection chosen now documents with
    | error e => rfl
    | ok points => cases hw : store.write points <;> simp [hw, Call.statement?]
  | stats collection =>
    exact statements_send hstore (fun _ => Statement.count collection.measurement)
      (CollectionStats.ofResult collection.key)
  | drop collection =>
    exact statements_send hstore (fun _ => Statement.dropSeries collection.measurement) fun _ => ()
  | purge =>
    exact statements_send hstore (fun store => Statement.dropDatabase store.database) fun _ => ()
  | check =>
    simp only [Step.statements, perform, Step.map, check, withStore, hstore, Operation.statements]
    cases store.ping <;> simp [Call.statement?]
  | close => rfl
  | connected => rfl

/-- Without a store, an operation on it fails before it calls anything. -/
theorem withStore_of_closed {α β : Type} {p : Provider} (hstore : p.store = none)
    (operation : Store → Step α) (f : α → β) :
    (p.withStore operation).map f = ⟨.error .notConnected, [], p⟩ := by
  unfold withStore
  rw [hstore]
  rfl

/-- On a closed provider, an operation that needs the store fails whatever it was asked for. -/
theorem perform_of_needsStore {p : Provider} (hstore : p.store = none) (now : Int)
    {operation : Operation} (hneeds : operation.needsStore = true) :
    p.perform now operation = ⟨.error .notConnected, [], p⟩ := by
  cases operation with
  | query _ | insert _ _ _ | stats _ | drop _ | purge | check => exact withStore_of_closed hstore _ _
  | plan _ | close | connected => cases hneeds

/-- An operation that needs no store calls none. -/
theorem calls_of_not_needsStore (p : Provider) (now : Int) {operation : Operation}
    (hneeds : operation.needsStore = false) : (p.perform now operation).calls = [] := by
  cases operation with
  | plan q =>
    simp only [perform, Step.map, plan]
    cases p.compile q <;> rfl
  | close | connected => rfl
  | query _ | insert _ _ _ | stats _ | drop _ | purge | check => cases hneeds

/-- A closed provider calls no store. -/
theorem calls_of_closed {p : Provider} (hstore : p.store = none) (now : Int) (operation : Operation) :
    (p.perform now operation).calls = [] := by
  cases hneeds : operation.needsStore with
  | true => rw [perform_of_needsStore hstore now hneeds]
  | false => exact p.calls_of_not_needsStore now hneeds

/-- What a step of a provider does that was opened as `p` and may be closed by now. -/
structure Lawful (p : Provider) (closed : Prop) (moment : Moment) (operation : Operation)
    (step : Step Outcome) : Prop where
  /-- An open provider sends the statements of the operation, also if the store fails. -/
  sends : ¬ closed → step.statements = operation.statements p moment.store
  /-- A closed provider sends no statement and no ping, and writes no points. -/
  silent : closed → step.calls = []
  refuses : closed → operation.needsStore = true → step.answer = .error .notConnected
  /-- A dry run is answered as at the beginning, up to the identifier of the plan. -/
  plans : ∀ q, operation = .plan q → ∃ answer : Except QueryError PlanResponse,
    step.answer = answer.map .plan ∧
      answer.map PlanResponse.anonymous = (p.plan q).answer.map PlanResponse.anonymous

/-- One step is lawful, whatever the store has become. -/
theorem lawful_perform {p r : Provider} (h : Alike p r) (moment : Moment) (operation : Operation) :
    Lawful p (r.store = none) moment operation
      ((r.refresh moment.store).perform moment.now operation) := by
  have hrefresh : Alike p (r.refresh moment.store) := ⟨h.hash, h.settings⟩
  refine ⟨fun hopen => ?_, fun hclosed => ?_, fun hclosed => ?_, fun q hq => ?_⟩
  · obtain ⟨store, hstore⟩ := Option.ne_none_iff_exists'.1 hopen
    have hnow : (r.refresh moment.store).store = some moment.store := by simp [refresh, hstore]
    rw [statements_perform hnow, hrefresh.statements]
  · exact calls_of_closed (by simp [refresh, hclosed]) moment.now operation
  · intro hneeds
    rw [perform_of_needsStore (by simp [refresh, hclosed]) moment.now hneeds]
  · subst hq
    exact ⟨((r.refresh moment.store).plan q).answer, rfl, hrefresh.plan q⟩

theorem Lawful.congr {p : Provider} {closed closed' : Prop} {moment : Moment} {operation : Operation}
    {step : Step Outcome} (h : Lawful p closed moment operation step) (hiff : closed ↔ closed') :
    Lawful p closed' moment operation step :=
  propext hiff ▸ h

/-! ### Lives -/

theorem length_live (p : Provider) (history : List (Moment × Operation)) :
    (p.live history).length = history.length := by
  induction history generalizing p with
  | nil => rfl
  | cons event history ih => simp [live, ih]

/-- Over the store that it has, a provider is as it was. -/
theorem refresh_eq_self {store : Store} {p : Provider} (hstore : ∀ s ∈ p.store, s = store) :
    p.refresh store = p := by
  unfold refresh
  cases hp : p.store with
  | none => cases p; simp_all
  | some s =>
    have hs := hstore s hp
    cases p
    simp_all

/-- An operation gives a provider no other store. -/
theorem mem_store_of_perform {now : Int} {p : Provider} {operation : Operation} {store : Store}
    (h : store ∈ (p.perform now operation).provider.store) : store ∈ p.store := by
  obtain ⟨issued, hprovider⟩ := perform_provider now p operation
  rw [hprovider] at h
  cases operation <;> first | exact h | cases h

/-- At one time over one store, a life is a run. -/
theorem run_eq_live (now : Int) {store : Store} {p : Provider} (hstore : ∀ s ∈ p.store, s = store)
    (operations : List Operation) :
    p.run now operations = p.live (operations.map fun operation => (⟨now, store⟩, operation)) := by
  induction operations generalizing p with
  | nil => rfl
  | cons operation operations ih =>
    rw [run, List.map_cons, live, refresh_eq_self hstore]
    exact congrArg (_ :: ·) (ih fun s hs => hstore s (mem_store_of_perform hs))

/-- All steps of a provider that was opened as `p` are lawful, from wherever it is by now. -/
theorem Alike.lawful {p r : Provider} (h : Alike p r) (history : List (Moment × Operation)) (i : Nat)
    {moment : Moment} {operation : Operation} {step : Step Outcome}
    (hevent : history[i]? = some (moment, operation)) (hstep : (r.live history)[i]? = some step) :
    Lawful p (r.store = none ∨ .close ∈ (history.take i).map Prod.snd) moment operation step := by
  induction history generalizing r i with
  | nil => cases hevent
  | cons event history ih =>
    obtain ⟨moment', operation'⟩ := event
    cases i with
    | zero =>
      cases hevent
      cases hstep
      exact (lawful_perform h moment operation).congr (by simp)
    | succ i =>
      obtain ⟨issued, hprovider⟩ :=
        perform_provider moment'.now (r.refresh moment'.store) operation'
      have halike : Alike p
          ((r.refresh moment'.store).perform moment'.now operation').provider := by
        rw [hprovider]
        exact ⟨h.hash, h.settings⟩
      -- the provider is closed by now if it was before or if this operation closed it
      have hclosed : ((r.refresh moment'.store).perform moment'.now operation').provider.store = none ↔
          r.store = none ∨ operation' = .close := by
        rw [hprovider]
        exact Operation.leaves_eq_none_iff.trans (by simp [refresh])
      refine (ih halike i hevent hstep).congr ?_
      rw [hclosed, List.take_succ_cons, List.map_cons, List.mem_cons, or_assoc, @eq_comm _ operation']

/-- Until it is closed for the first time, a provider sends for each operation exactly the statements that
the operation needs, and from then on nothing at all: what needs the store fails as not connected, whatever
it was asked for. Dry runs are answered alike all the time. A query sends the statements that a dry run
shows, one for each sub-query, in some order and also if some of them fail. -/
theorem lawful_live {p : Provider} (hopen : p.isConnected = true) (history : List (Moment × Operation)) :
    (p.live history).length = history.length ∧
    (∀ i moment operation step, history[i]? = some (moment, operation) →
      (p.live history)[i]? = some step →
        Lawful p (.close ∈ (history.take i).map Prod.snd) moment operation step) ∧
    ∀ q r, (p.plan q).answer = .ok r →
      r.statements.map Prod.fst = r.plan.subQueries.map Prod.fst ∧
      ∀ store f, FanOut.Reached store r.statements f → f.Settled store → f.sent.Perm r.statements := by
  have hstore : p.store ≠ none := by
    rintro hnone
    simp [isConnected, hnone] at hopen
  refine ⟨length_live p history, fun i moment operation step hevent hstep => ?_, fun q r hr => ⟨?_, ?_⟩⟩
  · exact ((Alike.refl p).lawful history i hevent hstep).congr (by simp [hstore])
  · unfold plan at hr
    cases hplan : p.compile q with
    | error e => simp [hplan] at hr
    | ok plan =>
      simp only [hplan, Except.ok.injEq] at hr
      subst hr
      exact QueryPlan.keys_statements plan p.settings.fillZero
  · exact fun store f hreached hsettled => hreached.sent_perm hsettled

/-- A query that has no plan. -/
def shapeless : QueryDescriptor :=
  { halfQuery with dimensions := [⟨"area", .unknown "polygon", none, none⟩] }

/-- Operations before and after a close, over a store that does not answer everything and one that answers
nothing any more. -/
def closing : List (Moment × Operation) :=
  let early : Moment := ⟨0, halfStore⟩
  let late : Moment := ⟨1704067200000, { halfStore with query := fun _ => .error .timeout }⟩
  [(early, .query halfQuery), (late, .query shapeless), (late, .purge), (late, .close),
    (late, .insert ⟨"events", none⟩ none [.string "no document"]), (early, .query shapeless),
    (early, .plan halfQuery)]

theorem lawful_live_closing :
    let p := create id toString QuerySettings.standard (some halfStore)
    p.isConnected = true ∧ ∃ steps : List (Step Outcome), p.live closing = steps ∧
      (∃ step, steps[0]? = some step ∧ step.statements =
        ["select sum(visits) as visits from events", "select sum(views) as views from pages"]) ∧
      (∃ step, steps[1]? = some step ∧ step.statements = []) ∧
      (∃ step, steps[2]? = some step ∧ step.statements = ["DROP DATABASE db"]) ∧
      (∀ i ∈ [4, 5], ∃ step, steps[i]? = some step ∧ step.calls = [] ∧
        step.answer = .error .notConnected) ∧
      ∃ step, steps[6]? = some step ∧ ∃ answer : Except QueryError PlanResponse,
        step.answer = answer.map .plan ∧
          answer.map PlanResponse.anonymous = (p.plan halfQuery).answer.map PlanResponse.anonymous := by
  intro p
  have hopen : p.isConnected = true := rfl
  obtain ⟨hlength, hlawful, -⟩ := lawful_live hopen closing
  have hstep : ∀ i < 7, ∃ step, (p.live closing)[i]? = some step := fun i hi =>
    ⟨_, List.getElem?_eq_getElem (hlength ▸ hi)⟩
  refine ⟨hopen, _, rfl, ?_, ?_, ?_, ?_, ?_⟩
  · obtain ⟨step, hs⟩ := hstep 0 (by decide)
    have htexts : Operation.statements p halfStore (.query halfQuery) =
        ["select sum(visits) as visits from events", "select sum(views) as views from pages"] := by
      decide
    exact ⟨step, hs, ((hlawful 0 _ _ step rfl hs).sends (by simp)).trans htexts⟩
  · obtain ⟨step, hs⟩ := hstep 1 (by decide)
    exact ⟨step, hs, (hlawful 1 _ _ step rfl hs).sends (by simp [closing])⟩
  · obtain ⟨step, hs⟩ := hstep 2 (by decide)
    exact ⟨step, hs, (hlawful 2 _ _ step rfl hs).sends (by simp [closing])⟩
  · intro i hi
    have hclosed : .close ∈ (closing.take i).map Prod.snd ∧ ∃ event, closing[i]? = some event ∧
        event.2.needsStore = true ∧ i < 7 := by
      rcases List.mem_pair.1 hi with rfl | rfl
      · exact ⟨by simp [closing], _, rfl, rfl, by decide⟩
      · exact ⟨by simp [closing], _, rfl, rfl, by decide⟩
    obtain ⟨hmem, event, hevent, hneeds, hlt⟩ := hclosed
    obtain ⟨step, hs⟩ := hstep i hlt
    have hlaw := hlawful i event.1 event.2 step hevent hs
    exact ⟨step, hs, hlaw.silent hmem, hlaw.refuses hmem hneeds⟩
  · obtain ⟨step, hs⟩ := hstep 6 (by decide)
    exact ⟨step, hs, (hlawful 6 _ _ step rfl hs).plans halfQuery rfl⟩

end Provider

end SeriesPivot
