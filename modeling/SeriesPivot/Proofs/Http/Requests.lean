import SeriesPivot.Client.Basic
import SeriesPivot.Http.Service
import SeriesPivot.Proofs.Http.Routes
import SeriesPivot.Proofs.Provider.Lifecycle
import SeriesPivot.Proofs.Statement.Reading

/-!
# What requests send

A request asks for one operation of the provider at most, and what it sends is what this operation sends.
So statements that destroy data are sent for requests that ask for just this, whatever else is requested.

* `Request.operation?` is the operation that a request asks for, and `performs_dispatch` says that nothing
  else is done. A request that is refused asks for none (`operation?_of_refused`).
* `Route.Sends` lists the statements of the resources; `sends_of_mem_statements` says that these are all.
* `Service.live` serves requests that come one after another, each at a moment of its own and over a store
  that may answer differently by then; a run is a special case (`run_eq_live`).
* `Guarded` is what serving one request may send, and `guarded_live` says that no request of a life sends
  anything else.
-/

namespace SeriesPivot

namespace Statement

/-- A text that begins as a statement that reads does is one that reads. -/
theorem isRead_append {start : String} (h : isRead start = true) (s : String) :
    isRead (start ++ s) = true := by
  have hne : Text.skipBlanks start.toList ≠ [] := by
    intro hnil
    simp only [isRead, hnil, List.map_nil] at h
    exact absurd h (by decide)
  have hhead : Text.skipBlanks (start ++ s).toList = Text.skipBlanks start.toList ++ s.toList := by
    simp only [Text.skipBlanks] at hne ⊢
    rw [String.toList_append, List.dropWhile_append, if_neg (by simpa using hne)]
  simp only [isRead, hhead, List.map_append, Bool.or_eq_true] at h ⊢
  exact h.imp (Text.startsWith_append · _) (Text.startsWith_append · _)

theorem isRead_render (fillZero : Bool) (s : SubQuery) : isRead (render fillZero s) = true := by
  rw [render]
  simp only [String.append_assoc]
  exact isRead_append (by decide) _

theorem isRead_count (measurement : String) : isRead (count measurement) = true :=
  isRead_append (by decide) _

/-- A name is read back from the text that it is written as, with nothing left over. -/
theorem readName_toList_quoteIdent (s : String) : readName (quoteIdent s).toList = some (s, []) := by
  simpa using readName_quoteIdent s (Text.stops_nil isWordPart)

end Statement

namespace Http

open Statement (isRead readName quoteIdent)

/-! ### What a request asks for -/

namespace Route

/-- The operation that a request for a resource asks for. -/
def operation? (r : Request) : Route → Option Operation
  | .query => (extract QueryDescriptor.decode r).toOption.map .query
  | .plan => (extract QueryDescriptor.decode r).toOption.map .plan
  | .documents key => do
    let key ← decodeKey key
    let q ← (extract InsertRequest.decode r).toOption
    if q.documents.isEmpty then none else some (.insert ⟨key, q.storeKey⟩ q.timeField q.documents)
  | .stats key => (decodeKey key).map fun key => .stats ⟨key, none⟩
  | .collection key => (decodeKey key).map fun key => .drop ⟨key, none⟩
  | .database => if confirmed? r.target.query = some true then some .purge else none
  | .live => none
  | .ready | .health => some .check

/-- Whether a request for a resource is refused by what it carries: a key that is no text, a body that is
not what is asked for, an insertion without documents, or a purge that is not confirmed. -/
def Refuses (r : Request) : Route → Prop
  | .query | .plan => ∃ status, extract QueryDescriptor.decode r = .error status
  | .documents key => decodeKey key = none ∨
      (∃ status, extract InsertRequest.decode r = .error status) ∨
      ∃ q, extract InsertRequest.decode r = .ok q ∧ q.documents = []
  | .stats key | .collection key => decodeKey key = none
  | .database => confirmed? r.target.query ≠ some true
  | .live | .ready | .health => False

end Route

namespace Request

/-- Whether a request is refused: nothing is served at its path or for its method, or it is refused by
what it carries. -/
def Refused (r : Request) : Prop :=
  ∀ route, Route.ofPath? r.target.path = some route → route.allows r.method = true → route.Refuses r

/-- The operation that a request asks for; `none` if it is refused, or asks whether the program lives. -/
def operation? (r : Request) : Option Operation := do
  let route ← Route.ofPath? r.target.path
  if route.allows r.method then route.operation? r else none

/-- A request that asks for an operation leads to a resource, in the method of the resource. -/
theorem operation?_eq_some_iff {r : Request} {operation : Operation} :
    r.operation? = some operation ↔ ∃ route, Route.ofPath? r.target.path = some route ∧
      route.allows r.method = true ∧ route.operation? r = some operation := by
  unfold operation?
  cases h : Route.ofPath? r.target.path <;> simp

/-- A request that is refused asks for nothing. -/
theorem operation?_of_refused {r : Request} (h : r.Refused) : r.operation? = none := by
  rw [Option.eq_none_iff_forall_ne_some]
  intro operation hsome
  obtain ⟨route, hpath, hallows, hroute⟩ := operation?_eq_some_iff.1 hsome
  have hrefuses := h route hpath hallows
  cases route with
  | query | plan =>
    obtain ⟨status, herror⟩ := hrefuses
    simp [Route.operation?, herror, Except.toOption] at hroute
  | documents key =>
    rcases hrefuses with hkey | ⟨status, herror⟩ | ⟨q, hok, hempty⟩
    · simp [Route.operation?, hkey] at hroute
    · simp [Route.operation?, herror, Except.toOption] at hroute
    · simp [Route.operation?, hok, Except.toOption, hempty] at hroute
  | stats key | collection key => simp_all [Route.operation?, Route.Refuses]
  | database => simp_all [Route.operation?, Route.Refuses]
  | live | ready | health => exact hrefuses.elim

end Request

/-! ### What serving does -/

/-- Serving does what the provider does for an operation, and nothing else: the provider may have given
out another identifier before. -/
def Performs {α : Type} (now : Int) (p : Provider) (served : Served α) : Option Operation → Prop
  | none => served.calls = [] ∧ served.provider = p
  | some operation => ∃ issued, served.calls = (({ p with issued }).perform now operation).calls ∧
      served.provider = (({ p with issued }).perform now operation).provider

theorem calls_conclude {α : Type} (m : Moment) (status : Nat) (body : α → Json) (s : Step α) :
    (conclude m status body s).calls = s.calls := by
  unfold conclude
  cases s.answer <;> rfl

theorem provider_conclude {α : Type} (m : Moment) (status : Nat) (body : α → Json) (s : Step α) :
    (conclude m status body s).provider = s.provider := by
  unfold conclude
  cases s.answer <;> rfl

/-- The identifier of a request changes nothing else. -/
theorem identified_eq (p : Provider) (headers : Headers) :
    ∃ issued, identified p headers = { p with issued } := by
  unfold identified
  cases requestId? headers with
  | none => exact ⟨p.issued + 1, rfl⟩
  | some id => exact ⟨p.issued, rfl⟩

theorem performs_conclude {α : Type} {m : Moment} (status : Nat) (body : α → Json) {p : Provider}
    {issued : Nat} {s : Step α} {operation : Operation}
    (hcalls : s.calls = (({ p with issued } : Provider).perform m.now operation).calls)
    (hprovider : s.provider = (({ p with issued } : Provider).perform m.now operation).provider) :
    Performs m.now p (conclude m status body s) (some operation) :=
  ⟨issued, (calls_conclude m status body s).trans hcalls,
    (provider_conclude m status body s).trans hprovider⟩

theorem performs_serveRoute (m : Moment) (p : Provider) (r : Request) (route : Route) :
    Performs m.now p (serveRoute m p r route) (route.operation? r) := by
  obtain ⟨issued, hidentified⟩ := identified_eq p r.headers
  cases route with
  | query =>
    simp only [serveRoute, withBody, Route.operation?, hidentified]
    cases extract QueryDescriptor.decode r with
    | error status => exact ⟨rfl, rfl⟩
    | ok q => exact performs_conclude 200 QueryResponse.toJson rfl rfl
  | plan =>
    simp only [serveRoute, withBody, Route.operation?]
    cases extract QueryDescriptor.decode r with
    | error status => exact ⟨rfl, rfl⟩
    | ok q => exact performs_conclude 200 PlanResponse.toJson rfl rfl
  | documents key =>
    simp only [serveRoute, withKey, serveInsert, withBody, Route.operation?, hidentified]
    cases decodeKey key with
    | none => exact ⟨rfl, rfl⟩
    | some key =>
      cases extract InsertRequest.decode r with
      | error status => exact ⟨rfl, rfl⟩
      | ok q =>
        simp only [Except.toOption, Option.bind_eq_bind, Option.bind_some]
        cases q.documents.isEmpty with
        | true => exact ⟨rfl, rfl⟩
        | false => exact performs_conclude 201 _ rfl rfl
  | stats key =>
    simp only [serveRoute, withKey, Route.operation?]
    cases decodeKey key with
    | none => exact ⟨rfl, rfl⟩
    | some key => exact performs_conclude 200 CollectionStats.toJson rfl rfl
  | collection key =>
    simp only [serveRoute, withKey, Route.operation?]
    cases decodeKey key with
    | none => exact ⟨rfl, rfl⟩
    | some key => exact performs_conclude 200 _ rfl rfl
  | database =>
    simp only [serveRoute, servePurge, Route.operation?]
    cases h : confirmed? r.target.query with
    | none => exact ⟨rfl, rfl⟩
    | some confirmed =>
      cases confirmed with
      | false => exact ⟨rfl, rfl⟩
      | true => exact performs_conclude 200 _ rfl rfl
  | live => exact ⟨rfl, rfl⟩
  | ready | health => exact ⟨p.issued, rfl, rfl⟩

/-- Serving a request does what the provider does for the operation that it asks for. -/
theorem performs_dispatch (m : Moment) (p : Provider) (r : Request) :
    Performs m.now p (dispatch m p r) r.operation? := by
  unfold dispatch
  split
  case isTrue hoptions =>
    have hrefused : r.Refused := by
      intro route _ hallows
      rw [beq_iff_eq.1 hoptions] at hallows
      cases route <;> simp [Route.allows, Route.method] at hallows
    rw [Request.operation?_of_refused hrefused]
    exact ⟨rfl, rfl⟩
  case isFalse =>
    unfold Request.operation?
    cases Route.ofPath? r.target.path with
    | none => exact ⟨rfl, rfl⟩
    | some route =>
      simp only [Option.bind_eq_bind, Option.bind_some]
      cases route.allows r.method with
      | false => exact ⟨rfl, rfl⟩
      | true =>
        have hroute := performs_serveRoute m p r route
        simp only [if_true]
        split <;> exact hroute

/-- Serving gives the provider no other store. -/
theorem mem_store_of_dispatch {m : Moment} {p : Provider} {r : Request} {store : Store}
    (h : store ∈ (dispatch m p r).provider.store) : store ∈ p.store := by
  have hperforms := performs_dispatch m p r
  cases hoperation : r.operation? with
  | none =>
    rw [hoperation] at hperforms
    rwa [hperforms.2] at h
  | some operation =>
    rw [hoperation] at hperforms
    obtain ⟨issued, -, hprovider⟩ := hperforms
    rw [hprovider] at h
    exact Provider.mem_store_of_perform (p := { p with issued }) h

/-! ### What resources send -/

/-- The statements that are sent for a resource, over a store of this database: a drop is for the key of
the path or for the database, and anything else reads. -/
inductive Route.Sends (database : String) (r : Request) (text : String) : Route → Prop
  | query (h : isRead text = true) : Sends database r text .query
  | stats (key : String) (h : isRead text = true) : Sends database r text (.stats key)
  | collection (key name : String) (hkey : decodeKey key = some name)
      (h : text = Statement.dropSeries name) : Sends database r text (.collection key)
  | database (hconfirmed : confirmed? r.target.query = some true)
      (h : text = Statement.dropDatabase database) : Sends database r text .database

/-- The statements of a query read, whatever its descriptor. -/
theorem isRead_of_mem_statements_query {p : Provider} {store : Store} {q : QueryDescriptor}
    {text : String} (h : text ∈ Operation.statements p store (.query q)) : isRead text = true := by
  simp only [Operation.statements, Provider.plan] at h
  cases hplan : p.compile q with
  | error e => simp [hplan] at h
  | ok plan =>
    simp only [hplan, QueryPlan.statements, List.map_map, List.mem_map, Function.comp_apply] at h
    obtain ⟨subQuery, -, rfl⟩ := h
    exact Statement.isRead_render p.settings.fillZero subQuery.2

/-- What the operation of a request for a resource sends is listed for the resource. -/
theorem sends_of_mem_statements {p : Provider} {store : Store} {r : Request} {route : Route}
    {operation : Operation} (hroute : route.operation? r = some operation) {text : String}
    (h : text ∈ operation.statements p store) : route.Sends store.database r text := by
  cases route with
  | query =>
    obtain ⟨q, -, rfl⟩ := Option.map_eq_some_iff.1 hroute
    exact .query (isRead_of_mem_statements_query h)
  | plan =>
    obtain ⟨q, -, rfl⟩ := Option.map_eq_some_iff.1 hroute
    cases h
  | documents key =>
    simp only [Route.operation?, Option.bind_eq_bind, Option.bind_eq_some_iff] at hroute
    obtain ⟨name, -, q, -, hinsert⟩ := hroute
    split at hinsert <;> cases hinsert
    cases h
  | stats key =>
    obtain ⟨name, -, rfl⟩ := Option.map_eq_some_iff.1 hroute
    rw [List.mem_singleton.1 h]
    exact .stats key (Statement.isRead_count _)
  | collection key =>
    obtain ⟨name, hkey, rfl⟩ := Option.map_eq_some_iff.1 hroute
    exact .collection key name hkey (List.mem_singleton.1 h)
  | database =>
    simp only [Route.operation?] at hroute
    split at hroute
    case isTrue hconfirmed =>
      cases hroute
      exact .database hconfirmed (List.mem_singleton.1 h)
    case isFalse => cases hroute
  | live => cases hroute
  | ready | health =>
    cases hroute
    cases h

/-! ### What a request may send -/

/-- The statements that serving did send. -/
def Served.statements {α : Type} (s : Served α) : List String :=
  s.calls.filterMap Call.statement?

/-- The requests that statements which do not only read are sent for: to drop the collection of the path,
or the database of the store if this is confirmed. The name in the statement is read back in whole. -/
inductive Destroys (database : String) (r : Request) (text : String) : Prop
  | collection (key name ident : String) (hmethod : r.method = "DELETE")
      (hpath : r.target.path = "/api/v1/collections/" ++ key) (hkey : '/' ∉ key.toList)
      (hname : decodeKey key = some name) (htext : text = "DROP SERIES FROM " ++ ident)
      (hident : readName ident.toList = some (name, []))
  | database (ident : String) (hmethod : r.method = "DELETE")
      (hpath : r.target.path = "/api/v1/database")
      (hconfirmed : confirmed? r.target.query = some true) (htext : text = "DROP DATABASE " ++ ident)
      (hident : readName ident.toList = some (database, []))

/-- What serving a request may send to a store of this database. -/
structure Guarded (database : String) (r : Request) (sent : List String) : Prop where
  /-- A statement that does not only read is sent for a request that asks for just this. -/
  destroys : ∀ text ∈ sent, isRead text = false → Destroys database r text
  /-- What is sent for a query or for the size of a collection reads, and goes out by `GET`. -/
  reads : r.target.path = "/api/v1/query" ∨
      (∃ key : String, '/' ∉ key.toList ∧ r.target.path = "/api/v1/collections/" ++ key ++ "/stats") →
    ∀ text ∈ sent, isRead text = true ∧
      ∀ settings, (Client.queryRequest settings text).method = .get
  /-- Nothing is sent for a plan, for the state of the program, and for a request that is refused. -/
  silent : r.target.path ∈ ["/api/v1/plan", "/health", "/health/live", "/health/ready"] ∨ r.Refused →
    sent = []

theorem guarded_nil (database : String) (r : Request) : Guarded database r [] :=
  ⟨nofun, fun _ => nofun, fun _ => rfl⟩

/-- Statements that are listed for the resource of a request are what the request may send. -/
theorem guarded_of_sends {database : String} {r : Request} {route : Route} {sent : List String}
    (hpath : Route.ofPath? r.target.path = some route) (hallows : route.allows r.method = true)
    (hserved : ¬ r.Refused) (h : ∀ text ∈ sent, route.Sends database r text) :
    Guarded database r sent := by
  have hroute : ∀ route' : Route, r.target.path = route'.path → route'.Keyed → route = route' :=
    fun route' hpath' hkeyed =>
      Option.some.inj (hpath.symm.trans (Route.ofPath?_eq_some_iff.2 ⟨hpath', hkeyed⟩))
  refine ⟨fun text hmem hwrites => ?_, fun hreads text hmem => ?_, fun hsilent => ?_⟩
  · obtain ⟨hwritten, hkeyed⟩ := Route.ofPath?_eq_some_iff.1 hpath
    cases h text hmem with
    | query hread => rw [hread] at hwrites; cases hwrites
    | stats key hread => rw [hread] at hwrites; cases hwrites
    | collection key name hname htext =>
      exact .collection key name (quoteIdent name) (by simpa [Route.allows, Route.method] using hallows)
        hwritten hkeyed.1 hname htext (Statement.readName_toList_quoteIdent name)
    | database hconfirmed htext =>
      exact .database (quoteIdent database) (by simpa [Route.allows, Route.method] using hallows)
        hwritten hconfirmed htext (Statement.readName_toList_quoteIdent database)
  · have hread : isRead text = true := by
      rcases hreads with hquery | ⟨key, hkey, hstats⟩
      · obtain rfl := hroute .query hquery trivial
        cases h text hmem with
        | query hread => exact hread
      · obtain rfl := hroute (.stats key) hstats hkey
        cases h text hmem with
        | stats _ hread => exact hread
    exact ⟨hread, fun settings => if_pos hread⟩
  · have hpaths := hsilent.resolve_right hserved
    refine List.eq_nil_iff_forall_not_mem.2 fun text hmem => ?_
    have hsends := h text hmem
    simp only [List.mem_cons, List.not_mem_nil, or_false] at hpaths
    rcases hpaths with hp | hp | hp | hp
    · obtain rfl := hroute .plan hp trivial
      cases hsends
    · obtain rfl := hroute .health hp trivial
      cases hsends
    · obtain rfl := hroute .live hp trivial
      cases hsends
    · obtain rfl := hroute .ready hp trivial
      cases hsends

/-- One request sends what it may send, wherever the provider is by now. -/
theorem guarded_dispatch (m : Moment) {p : Provider} {database : String}
    (hdatabase : ∀ store ∈ p.store, store.database = database) (r : Request) :
    Guarded database r (dispatch m p r).statements := by
  have hperforms := performs_dispatch m p r
  cases hoperation : r.operation? with
  | none =>
    rw [hoperation] at hperforms
    rw [Served.statements, hperforms.1]
    exact guarded_nil database r
  | some operation =>
    rw [hoperation] at hperforms
    obtain ⟨issued, hcalls, -⟩ := hperforms
    cases hstore : p.store with
    | none =>
      rw [Served.statements, hcalls, Provider.calls_of_closed (p := { p with issued }) hstore]
      exact guarded_nil database r
    | some store =>
      obtain ⟨route, hpath, hallows, hroute⟩ := Request.operation?_eq_some_iff.1 hoperation
      have hserved : ¬ r.Refused := fun hrefused => by
        rw [Request.operation?_of_refused hrefused] at hoperation
        cases hoperation
      have hsent : (dispatch m p r).statements = operation.statements { p with issued } store := by
        rw [Served.statements, hcalls]
        exact Provider.statements_perform (p := { p with issued }) hstore m.now operation
      rw [hsent, ← hdatabase store hstore]
      exact guarded_of_sends hpath hallows hserved fun text => sends_of_mem_statements hroute

/-! ### Lives -/

/-- When a request is served, and the store by its answers at that time. -/
structure Occasion where
  moment : Moment
  store : Store

namespace Service

/-- The service over its store as it is by now. -/
def refresh (s : Service) (store : Store) : Service :=
  { s with provider := s.provider.refresh store }

/-- Serve requests one after another, each on its occasion. -/
def live (s : Service) : List (Occasion × Request) → List (Served Response)
  | [] => []
  | (occasion, r) :: rest =>
    let served := (s.refresh occasion.store).serve occasion.moment r
    served :: live { s with provider := served.provider } rest

/-- At one moment over one store, a life is a run. -/
theorem run_eq_live (m : Moment) {store : Store} {s : Service}
    (hstore : ∀ st ∈ s.provider.store, st = store) (requests : List Request) :
    s.run m requests = s.live (requests.map fun r => (⟨m, store⟩, r)) := by
  induction requests generalizing s with
  | nil => rfl
  | cons r requests ih =>
    have hrefresh : s.refresh store = s := by rw [refresh, Provider.refresh_eq_self hstore]
    rw [run, List.map_cons, live, hrefresh]
    exact congrArg (_ :: ·) (ih fun st hst => hstore st (mem_store_of_dispatch hst))

/-- No request of a life sends anything but what it may send: statements that do not only read are sent to
drop what the path of the request names, and nothing else. -/
theorem guarded_live (s : Service) (visits : List (Occasion × Request)) :
    List.Forall₂ (fun visit served => Guarded visit.1.store.database visit.2 served.statements) visits
      (s.live visits) := by
  induction visits generalizing s with
  | nil => exact .nil
  | cons visit visits ih =>
    obtain ⟨occasion, r⟩ := visit
    refine .cons (guarded_dispatch occasion.moment (fun store hstore => ?_) r) (ih _)
    obtain ⟨_, -, rfl⟩ := Option.map_eq_some_iff.1 hstore
    rfl

example :
    (run ⟨0, 0, "error"⟩ ⟨.create id toString .standard (some Provider.halfStore), .standard⟩
      [⟨"DELETE", ⟨"/api/v1/collections/web%20visits", ""⟩, [], ""⟩,
       ⟨"DELETE", ⟨"/api/v1/database", ""⟩, [], ""⟩,
       ⟨"DELETE", ⟨"/api/v1/database", "confirm=true"⟩, [], ""⟩]).map Served.statements =
    [["DROP SERIES FROM \"web visits\""], [], ["DROP DATABASE db"]] := by
  decide +kernel

end Service

end Http

end SeriesPivot
