import BrokerQuery.Query.Error
import BrokerQuery.Url.Host
/-
  What can go wrong between a client and its broker.

  An error is one of five causes: the URL of the broker, the query, the way to the broker, the
  broker's refusal, or an answer that does not say what it should.
-/

namespace BrokerQuery

/-- Why a client has no result. -/
inductive ClientError
  /-- A text that is no URL of a broker. -/
  | invalidUrl (text : String) (reason : Url.UrlError)
  | query (error : QueryError)
  /-- The broker did not answer. -/
  | noAnswer
  /-- The broker answered with a status that means no success. -/
  | refused (status : Nat) (body : String)
  /-- The broker's answer is not what was asked for. -/
  | unreadable
deriving DecidableEq

/-- The error in words. -/
def ClientError.message : ClientError → String
  | .invalidUrl text .otherScheme => s!"Invalid broker url: {text}"
  | .invalidUrl text reason => s!"Invalid broker url: {text}: " ++ reason.message
  | .query error => error.message
  | .noAnswer => "HTTP error: the broker did not answer"
  | .refused status body => s!"Request failed: {status}: {body}"
  | .unreadable => "Invalid response: the answer has another form"

end BrokerQuery
