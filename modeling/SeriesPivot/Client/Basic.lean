import SeriesPivot.Client.Url
import SeriesPivot.Settings.Basic
import SeriesPivot.Statement
import SeriesPivot.Store.Basic
import SeriesPivot.Store.LineProtocol
import SeriesPivot.Store.Response
import SeriesPivot.Text.Base64

/-!
# The store behind HTTP

`Client.store` is the store that a server offers at three endpoints below its base URL, reached by a given
exchange of requests and replies.

* `ping` succeeds on any reply of success.
* `query` sends a statement, by `GET` only if it reads. Times come back as epoch milliseconds.
* `write` sends a batch in line protocol; an empty batch is not sent.

With a user name every request carries credentials.
-/

namespace SeriesPivot.Client

/-- The method of a request to the server. -/
inductive Method where
  | get | post
  deriving DecidableEq, Repr

/-- A request to the server. -/
structure Request where
  method : Method
  /-- The URL without its parameters. -/
  url : String
  parameters : List (String × String)
  authorization : Option String
  body : String
  deriving DecidableEq, Repr

/-- The URL of a request with its parameters. -/
def Request.fullUrl (r : Request) : String :=
  if r.parameters.isEmpty then r.url else r.url ++ "?" ++ Text.formText r.parameters

/-- The reply of the server. -/
structure Reply where
  status : Nat
  body : String
  deriving DecidableEq, Repr

/-- Whether the server did what it was asked for. -/
def Reply.isSuccess (r : Reply) : Bool :=
  200 ≤ r.status && r.status < 300

/-- How a request was not answered. -/
inductive TransportError where
  | timeout
  /-- No connection was made. -/
  | refused
  | other
  deriving DecidableEq, Repr

/-- A transport error as an error of the store. -/
def TransportError.toStoreError : TransportError → StoreError
  | .timeout => .timeout
  | .refused => .unavailable
  | .other => .request

/-- The way to the server. -/
abbrev Exchange := Request → Except TransportError Reply

/-- The URL of an endpoint. -/
def endpoint (s : StoreSettings) (path : String) : String :=
  Text.trimEndWhile (· == '/') s.url ++ "/" ++ path

/-- The credentials of a request. -/
def authorization (s : StoreSettings) : Option String :=
  s.username.map fun user =>
    "Basic " ++ Text.base64 (Text.utf8 (user ++ ":" ++ s.password.getD ""))

/-- The request that pings. -/
def pingRequest (s : StoreSettings) : Request :=
  ⟨.get, endpoint s "ping", [], authorization s, ""⟩

/-- The request that sends a statement. -/
def queryRequest (s : StoreSettings) (statement : String) : Request :=
  ⟨if Statement.isRead statement then .get else .post, endpoint s "query",
    [("db", s.database), ("q", statement), ("epoch", "ms")], authorization s, ""⟩

/-- The request that writes points. -/
def writeRequest (s : StoreSettings) (points : List Point) : Request :=
  ⟨.post, endpoint s "write", [("db", s.database), ("precision", "ms")], authorization s,
    LineProtocol.encodePoints points⟩

/-- Send a request; one without a usable URL fails before it is sent. -/
def send (exchange : Exchange) (r : Request) : Except StoreError Reply :=
  if Url.isHttp r.url then
    match exchange r with
    | .ok reply => .ok reply
    | .error e => .error e.toStoreError
  else .error .request

/-- The result of a reply to a statement. A reply of failure may name an error of the statement. -/
def readResult (reply : Reply) : Except StoreError RawResult :=
  if reply.isSuccess then Response.read reply.body
  else
    match (Json.Decode.fromText? Response.decode reply.body).bind (·.error) with
    | some message => .error (.statement message)
    | none => .error (.api reply.status reply.body)

/-- Send a statement. -/
def query (s : StoreSettings) (exchange : Exchange) (statement : String) :
    Except StoreError RawResult :=
  match send exchange (queryRequest s statement) with
  | .error e => .error e
  | .ok reply => readResult reply

/-- Write points. -/
def write (s : StoreSettings) (exchange : Exchange) (points : List Point) : Except StoreError Unit :=
  if points.isEmpty then .ok ()
  else
    match send exchange (writeRequest s points) with
    | .error e => .error e
    | .ok reply => if reply.isSuccess then .ok () else .error (.api reply.status reply.body)

/-- Ping the server. -/
def ping (s : StoreSettings) (exchange : Exchange) : Except StoreError Unit :=
  match send exchange (pingRequest s) with
  | .error e => .error e
  | .ok reply => if reply.isSuccess then .ok () else .error .unavailable

/-- The store that a server offers. -/
def store (s : StoreSettings) (exchange : Exchange) : Store where
  name := "influxDB"
  database := s.database
  query := query s exchange
  write := write s exchange
  ping := ping s exchange

end SeriesPivot.Client
