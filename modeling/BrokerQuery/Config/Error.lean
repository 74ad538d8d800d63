import BrokerQuery.Query.Error
/-
  What can be wrong with a configuration.
-/

namespace BrokerQuery

/-- Why there is no configuration. -/
inductive ConfigError
  /-- The file that a user asked for is not there. -/
  | missing (path : String)
  /-- A file is there and cannot be read. -/
  | unreadable (path : String)
  /-- A file does not hold settings. -/
  | malformed (path : String)
  | emptyUrl
  /-- The broker's URL has another scheme. -/
  | otherScheme (url : String)
  | zeroTimeout
  /-- The time zone as it was set, and the name that the database does not have. -/
  | unknownZone (zone name : String)
  /-- A granularity that no query can have. -/
  | badGranularity (text : String) (error : QueryError)
deriving DecidableEq

/-- The error in words, and in a second place what caused it. -/
def ConfigError.chain : ConfigError → List String
  | .missing path => [s!"Config file not found: {path}"]
  | .unreadable path => [s!"Failed to read config file: {path}", "not a readable file"]
  | .malformed path => [s!"Failed to parse config file: {path}", "not an object of settings"]
  | .emptyUrl => ["Configuration error: broker_url must not be empty"]
  | .otherScheme url => [s!"Configuration error: broker_url must be an http(s) URL, got '{url}'"]
  | .zeroTimeout => ["Configuration error: timeout_secs must be greater than 0"]
  | .unknownZone zone name =>
    [s!"Configuration error: invalid time_zone '{zone}'", s!"Unknown time zone: {name}"]
  | .badGranularity text error =>
    [s!"Configuration error: invalid granularity '{text}'", error.message]

end BrokerQuery
