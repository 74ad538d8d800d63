import BrokerQuery.Broker.Error
import BrokerQuery.CommandLine.Usage
import BrokerQuery.Config.Error
import BrokerQuery.Text.Split
/-
  What can go wrong with a command.

  An error is told from the outside to the inside: first what was being done, last the cause.
-/

namespace BrokerQuery

/-- Why arguments give no query. -/
inductive BuildError
  | query (error : QueryError)
  /-- The time range as it was given. -/
  | interval (start stop : String) (error : QueryError)
deriving DecidableEq

/-- Why a command fails. -/
inductive CommandError
  | config (error : ConfigError)
  | build (error : BuildError)
  /-- There is no client. -/
  | client (error : ClientError)
  /-- The data sources could not be listed. -/
  | list (error : ClientError)
  /-- A data source could not be described. -/
  | describe (name : String) (error : ClientError)
  /-- A query could not be answered. -/
  | query (source : String) (error : ClientError)
deriving DecidableEq

/-- Why a program ends early. -/
inductive Stop
  | usage (error : UsageError)
  | command (error : CommandError)
deriving DecidableEq

namespace BuildError

/-- What was being done, and the cause. -/
def chain : BuildError → List String
  | .query error => [error.message]
  | .interval start stop error => [s!"Invalid interval {start}/{stop}", error.message]

end BuildError

namespace CommandError

/-- What was being done, and the cause. -/
def chain : CommandError → List String
  | .config error => error.chain
  | .build error => error.chain
  | .client error => [error.message]
  | .list error => ["Failed to list data sources", error.message]
  | .describe name error => [s!"Failed to describe {name}", error.message]
  | .query source error => [s!"Query on {source} failed", error.message]

/-- The error on one line, set off from what was printed before. -/
def report (e : CommandError) : String := "\nError: " ++ Text.join ": " e.chain ++ "\n\n"

end CommandError

namespace Stop

/-- The exit code of a program that ends early; help and version are no failures. -/
def exitCode : Stop → Nat
  | .usage .helpWanted => 0
  | .usage .versionWanted => 0
  | .usage _ => 2
  | .command _ => 1

/-- What is written to the standard error. -/
def report : Stop → String
  | .usage .helpWanted => ""
  | .usage .versionWanted => ""
  | .usage .nothingAsked => usageText
  | .usage e => "error: " ++ e.message ++ "\n\n" ++ usageText
  | .command e => e.report

end Stop
end BrokerQuery
