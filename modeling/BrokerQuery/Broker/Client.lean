import BrokerQuery.Broker.Error
import BrokerQuery.Broker.Metadata
import BrokerQuery.Broker.Row
import BrokerQuery.Broker.Session
import BrokerQuery.Query.Wire
/-
  The client of a broker.

  `send` posts a query and reads the rows.  A broker whose cache is stale fails with a status of
  its own fault and a known text; then the query is posted once more without the cache, unless it
  had switched the cache off itself.  The second answer counts, whatever it is.

  `dataSources` and `metadata` get a list of names and the lists of one data source.
-/

namespace BrokerQuery

/-- What an answer has in its body, if it is a success. -/
def Outcome.success : Outcome → Except ClientError String
  | .silence => .error .noAnswer
  | .answer status body => if status = 200 then .ok body else .error (.refused status body)

/-- A successful answer read as a value. -/
def Outcome.read (decode? : String → Option α) (o : Outcome) : Except ClientError α := do
  match decode? (← o.success) with
  | some a => return a
  | none => .error .unreadable

/-- The text by which a broker complains of its cache. -/
def staleCacheText : String := "Cannot have a null result!"

/-- Whether an error is a complaint of a broker about its cache. -/
def ClientError.isStaleCache : ClientError → Bool
  | .refused status body => status == 500 && Text.contains staleCacheText.toList body.toList
  | _ => false

/-- A client of one broker. -/
structure Client where
  url : Url.BrokerUrl
  /-- How long an answer is waited for. -/
  timeoutSecs : Nat
deriving DecidableEq

namespace Client

/-- The seconds that an answer is waited for unless something else is said. -/
def defaultTimeoutSecs : Nat := 120

/-- The client of the broker with this URL. -/
def ofUrl (text : String) (timeoutSecs : Nat := defaultTimeoutSecs) : Except ClientError Client :=
  ((Url.BrokerUrl.read text).mapError (.invalidUrl text)).map fun url => ⟨url, timeoutSecs⟩

/-! ## Queries -/

/-- The rows that a text writes. -/
def rowsOfText? (s : String) : Option (List Row) := (Json.ofText? s).bind Row.ofJsonAll?

/-- Posts a query once.  A query that cannot be written is not posted. -/
def post (c : Client) (q : Query) : Session (Except ClientError (List Row)) :=
  match q.toJson with
  | .error e => .done (.error (.query e))
  | .ok payload =>
    .ask ⟨.post, c.url, some payload, c.timeoutSecs⟩ fun o => .done (o.read rowsOfText?)

/-- Whether a result calls for the query without the cache. -/
def needsRetry (q : Query) : Except ClientError α → Bool
  | .ok _ => false
  | .error e => e.isStaleCache && q.useCache != some false

/-- Posts a query, a second time after a complaint about the cache. -/
def send (c : Client) (q : Query) : Session (Except ClientError (List Row)) := do
  let result ← c.post q
  if needsRetry q result then .warn (.cacheError q.source) (c.post (q.cached false))
  else return result

/-! ## Metadata -/

/-- The path of the data sources, and of one of them. -/
def folder (c : Client) (name : Option String) : List Char :=
  let base := (c.url.pathText.reverse.dropWhile (· = '/')).reverse
  base ++ "/datasources".toList ++ match name with
    | some n => '/' :: n.toList
    | none => []

/-- Gets a document from below the broker's path. -/
def fetch (c : Client) (name : Option String) (decode? : String → Option α) :
    Session (Except ClientError α) :=
  .ask ⟨.get, c.url.withPath (c.folder name), none, c.timeoutSecs⟩ fun o => .done (o.read decode?)

/-- The strings of an array that a text writes. -/
def namesOfText? (s : String) : Option (List String) := (Json.ofText? s).bind Json.strings?

/-- The names of all data sources. -/
def dataSources (c : Client) : Session (Except ClientError (List String)) :=
  c.fetch none namesOfText?

/-- Dimensions and metrics of a data source, which may be named with its service. -/
def metadata (c : Client) (source : String) : Session (Except ClientError Metadata) :=
  c.fetch (some (Text.lastPiece '/' source)) Metadata.ofText?

end Client
end BrokerQuery
