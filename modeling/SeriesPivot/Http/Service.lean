import SeriesPivot.Http.Error
import SeriesPivot.Http.Header
import SeriesPivot.Http.Route
import SeriesPivot.Http.Uri
import SeriesPivot.Provider.Basic

/-!
# The HTTP interface

`Service.serve` answers one request over a provider, and `Service.run` one after another.

* A request is refused, without any call to the store, if its path or method is not served (404, 405), the
  key in its path is not UTF-8 (400), or its body is not what is asked for (`extract`).
* `OPTIONS` is answered for every path, for calls from other sites.
* Queries and insertions carry an identifier: that of the header `x-request-id`, or a fresh one.
* Dropping the database has to be confirmed by `confirm=true` in the query.
-/

namespace SeriesPivot.Http

/-- A request. -/
structure Request where
  method : String
  target : Target
  headers : Headers
  body : String
  deriving DecidableEq, Repr

/-- The request with these parts; `none` if they are no HTTP. -/
def Request.read? (method target : String) (headers : Headers) (body : String) : Option Request := do
  let target ← Target.read? target
  if isName method ∧ headers.all fun h => isName h.1 && isValue h.2 then
    some ⟨method, target, headers, body⟩
  else none

/-- What is answered: a status, and a body if it is JSON. -/
structure Answer where
  status : Nat
  body : Option Json
  deriving DecidableEq, Repr

/-- A response: an answer, and the origin that may read it from another site. -/
structure Response where
  answer : Answer
  allowOrigin : Option String
  deriving DecidableEq, Repr

/-- What the answers to a request depend on beside the request and the provider. -/
structure Moment where
  /-- Epoch milliseconds. -/
  now : Int
  /-- Seconds since the program was started. -/
  uptime : Nat
  /-- The identifier of an error. -/
  errorId : String

/-- A provider behind HTTP. -/
structure Service where
  provider : Provider
  settings : ApiSettings

/-- What serving a request does. -/
structure Served (α : Type) where
  answer : α
  calls : List Call
  provider : Provider

/-- The version of the program. -/
def version : String := "0.1.0"

/-! ## Reading requests -/

/-- The largest body in bytes. -/
def bodyLimit : Nat := 10 * 1024 * 1024

/-- The value at the front of a body in JSON, or the status of the refusal. -/
def extract {α : Type} (d : Json.Decoder α) (r : Request) : Except Nat α :=
  if !((header? "content-type" r.headers).any isJson) then .error 415
  else if bodyLimit < r.body.utf8ByteSize then .error 413
  else
    match Json.Decode.fromFront d r.body with
    | .ok a => .ok a
    | .error .malformed => .error 400
    | .error .shape => .error 422

/-- What an insertion asks for. -/
structure InsertRequest where
  documents : List Json
  storeKey : Option String
  timeField : Option String
  deriving DecidableEq, Repr

/-- An insertion from its fields. -/
def InsertRequest.decode : Json.Decoder InsertRequest :=
  Json.Decode.record false
    [⟨"documents", true, fun q v => do
       return { q with documents := ← Json.Decode.listOf Json.Decode.json v }⟩,
     ⟨"storeKey", false, fun q v => do
       return { q with storeKey := ← Json.Decode.optional Json.Decode.string v }⟩,
     ⟨"time_field", false, fun q v => do
       return { q with timeField := ← Json.Decode.optional Json.Decode.string v }⟩]
    ⟨[], none, none⟩

/-- Whether a query confirms; `none` if it does not say so as a truth value, or says it twice. -/
def confirmed? (query : String) : Option Bool :=
  match (Text.formPairs query).filter fun p => p.1 == some "confirm" with
  | [] => some false
  | [(_, some "true")] => some true
  | [(_, some "false")] => some false
  | _ => none

/-- The identifier that a request carries. -/
def requestId? (headers : Headers) : Option String :=
  (header? "x-request-id" headers).filter fun id => isVisible id && !id.isEmpty

/-- The provider after a request got its identifier. -/
def identified (p : Provider) (headers : Headers) : Provider :=
  match requestId? headers with
  | some _ => p
  | none => p.advance

/-! ## Answers -/

/-- An answer without JSON. -/
def bare (status : Nat) : Answer := ⟨status, none⟩

/-- The answer to an error. -/
def failed (m : Moment) (e : ApiError) : Answer :=
  ⟨e.status, some (e.toJson m.errorId)⟩

/-- The answer to a step of the provider. -/
def conclude {α : Type} (m : Moment) (status : Nat) (body : α → Json) (s : Step α) : Served Answer :=
  match s.answer with
  | .ok a => ⟨⟨status, some (body a)⟩, s.calls, s.provider⟩
  | .error e => ⟨failed m (.query e), s.calls, s.provider⟩

/-- An answer that leaves the provider alone. -/
def refuse (p : Provider) (a : Answer) : Served Answer :=
  ⟨a, [], p⟩

/-- An answer of success with a target. -/
def deleted (target : String) : Json :=
  .object [("status", .string "ok"), ("target", .string target)]

/-- The state of the program. -/
def healthBody (m : Moment) (ping : Except QueryError Unit) : Json :=
  let (status, store) := match ping with
    | .ok () => ("healthy", "ok")
    | .error .notConnected => ("unhealthy", "closed")
    | .error _ => ("unhealthy", "error")
  .object [("status", .string status), ("store", .string store), ("uptime_seconds", .ofInt m.uptime),
    ("version", .string version)]

/-! ## Serving -/

/-- Serve with the value of the body. -/
def withBody {α : Type} (p : Provider) (d : Json.Decoder α) (r : Request)
    (serve : α → Served Answer) : Served Answer :=
  match extract d r with
  | .error status => refuse p (bare status)
  | .ok a => serve a

/-- Serve with the key of the path. -/
def withKey (p : Provider) (key : String) (serve : String → Served Answer) : Served Answer :=
  match decodeKey key with
  | none => refuse p (bare 400)
  | some key => serve key

/-- Insert the documents of a request. -/
def serveInsert (m : Moment) (p : Provider) (r : Request) (key : String) : Served Answer :=
  withBody p InsertRequest.decode r fun q =>
    if q.documents.isEmpty then
      refuse p (failed m (.validation "documents cannot be empty"))
    else
      conclude m 201 (fun (n : Nat) => .object [("status", .string "ok"), ("inserted", .ofInt n)])
        ((identified p r.headers).insert ⟨key, q.storeKey⟩ q.timeField m.now q.documents)

/-- Drop the database. -/
def servePurge (m : Moment) (p : Provider) (r : Request) : Served Answer :=
  match confirmed? r.target.query with
  | none => refuse p (bare 400)
  | some false =>
    refuse p (failed m (.validation "purging the database requires confirm=true"))
  | some true => conclude m 200 (fun _ => deleted "database") p.purge

/-- Serve a request for a resource. -/
def serveRoute (m : Moment) (p : Provider) (r : Request) : Route → Served Answer
  | .query => withBody p QueryDescriptor.decode r fun q =>
      conclude m 200 QueryResponse.toJson ((identified p r.headers).query q)
  | .plan => withBody p QueryDescriptor.decode r fun q =>
      conclude m 200 PlanResponse.toJson (p.plan q)
  | .documents key => withKey p key (serveInsert m p r)
  | .stats key => withKey p key fun key =>
      conclude m 200 CollectionStats.toJson (p.stats ⟨key, none⟩)
  | .collection key => withKey p key fun key =>
      conclude m 200 (fun _ => deleted key) (p.dropCollection ⟨key, none⟩)
  | .database => servePurge m p r
  | .live => refuse p (bare 200)
  | .ready =>
    let s := p.check
    ⟨bare (if s.answer matches .ok () then 200 else 503), s.calls, s.provider⟩
  | .health =>
    let s := p.check
    ⟨⟨200, some (healthBody m s.answer)⟩, s.calls, s.provider⟩

/-- Serve a request by its method and path. An answer to `HEAD` has no body. -/
def dispatch (m : Moment) (p : Provider) (r : Request) : Served Answer :=
  if r.method == "OPTIONS" then refuse p (bare 200)
  else
    match Route.ofPath? r.target.path with
    | none => refuse p (bare 404)
    | some route =>
      if route.allows r.method then
        let s := serveRoute m p r route
        if r.method == "HEAD" then { s with answer := { s.answer with body := none } } else s
      else refuse p (bare 405)

/-- The origin that may read the response to a request: any, if no origins are listed, and else that of the
request, if it is listed. -/
def allowedOrigin (s : ApiSettings) (headers : Headers) : Option String :=
  if s.corsOrigins.isEmpty then some "*"
  else (header? "origin" headers).filter s.corsOrigins.contains

namespace Service

/-- Answer a request. -/
def serve (m : Moment) (s : Service) (r : Request) : Served Response :=
  let served := dispatch m s.provider r
  ⟨⟨served.answer, allowedOrigin s.settings r.headers⟩, served.calls, served.provider⟩

/-- Answer requests one after another. -/
def run (m : Moment) (s : Service) : List Request → List (Served Response)
  | [] => []
  | r :: rest =>
    let served := s.serve m r
    served :: run m { s with provider := served.provider } rest

end Service

end SeriesPivot.Http
