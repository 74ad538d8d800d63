import BrokerQuery.Json.Writer
import BrokerQuery.Url.Basic
/-
  Sessions: programs that talk to a broker and to the user.

  A session either is done, or does one thing and goes on:

    1. `ask` sends a request and goes on with what came back;
    2. `warn` logs a warning;
    3. `print` writes to the standard output.

  A session is a value, so what it would send can be read off it.  `run` plays it against a list
  of outcomes, the n-th outcome for the n-th request, and gives a transcript.
-/

namespace BrokerQuery

/-- What a request does. -/
inductive Method
  | get
  | post
deriving DecidableEq

/-- A request to a broker. -/
structure Request where
  method : Method
  url : Url.BrokerUrl
  /-- The document that is sent along. -/
  payload : Option Json
  /-- How many seconds the broker may take before it sends more of its answer. -/
  timeoutSecs : Nat

/-- What came back from a request. -/
inductive Outcome
  | answer (status : Nat) (body : String)
  /-- The connection broke, or nothing came in time. -/
  | silence
deriving DecidableEq

/-- What is worth a warning. -/
inductive Warning
  /-- A file sets things that do not exist. -/
  | unknownFields (names : List String)
  /-- A broker failed over its cache while it answered a query of this source. -/
  | cacheError (source : String)
deriving DecidableEq

/-- A program that sends requests, warns and prints on its way to a value. -/
inductive Session (α : Type)
  | done (value : α)
  | ask (request : Request) (next : Outcome → Session α)
  | warn (warning : Warning) (next : Session α)
  | print (text : String) (next : Session α)

/-- Whether an answer with this status can have a body. -/
def Outcome.hasBody (status : Nat) : Bool := status != 204 && status != 304

/-- What comes back when a broker sends a status and a body. -/
def Outcome.received (status : Nat) (body : String) : Outcome :=
  .answer status (if Outcome.hasBody status then body else "")

namespace Method

/-- The word for a method. -/
def name : Method → String
  | .get => "GET"
  | .post => "POST"

end Method

namespace Request

/-- The name that a client gives itself. -/
def userAgent : String := "druid-query/0.1.0"

/-- The text that is sent along. -/
def body (r : Request) : String :=
  match r.payload with
  | some document => document.compact
  | none => ""

/-- What kind of text is sent along. -/
def contentType (r : Request) : Option String := r.payload.map fun _ => "application/json"

/-- What is asked for: path and query of the URL. -/
def target (r : Request) : String := r.url.target

end Request

namespace Warning

/-- The warning in words, then what it is about. -/
def text : Warning → String
  | .unknownFields names =>
    "Unknown fields in config file (possible typos) fields=" ++ Text.join ", " names
  | .cacheError source => "Broker returned a cache error, retrying without cache source=" ++ source

end Warning

namespace Session

/-- One session after the other. -/
def bind : Session α → (α → Session β) → Session β
  | .done a, f => f a
  | .ask request next, f => .ask request fun o => (next o).bind f
  | .warn warning next, f => .warn warning (next.bind f)
  | .print text next, f => .print text (next.bind f)

instance : Monad Session where
  pure := .done
  bind := .bind

/-- Logs several warnings. -/
def warnAll (warnings : List Warning) (next : Session α) : Session α :=
  warnings.foldr .warn next

end Session

/-- What happened in a session. -/
structure Transcript (α : Type) where
  value : α
  requests : List Request
  warnings : List Warning
  printed : String

/-- Plays a session against outcomes, the n-th for the n-th request. -/
def Session.run : Session α → (Nat → Outcome) → Transcript α
  | .done a, _ => ⟨a, [], [], ""⟩
  | .ask request next, outcomes =>
    let t := (next (outcomes 0)).run fun n => outcomes (n + 1)
    { t with requests := request :: t.requests }
  | .warn warning next, outcomes =>
    let t := next.run outcomes
    { t with warnings := warning :: t.warnings }
  | .print text next, outcomes =>
    let t := next.run outcomes
    { t with printed := text ++ t.printed }

end BrokerQuery
