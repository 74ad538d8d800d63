/-
  Ways to use the command line wrongly.

  Asking for help or for the version also ends the reading of a command line, so both are here.
-/

namespace BrokerQuery

/-- Why a command line is not carried out. -/
inductive UsageError
  | unknownArgument
  /-- The command needs a data source. -/
  | missingSource
  | unknownCommand
  | missingCommand
  /-- An option has no value, or an empty one where that means nothing. -/
  | missingValue
  /-- A value is none of its option, and why. -/
  | badValue (reason : String)
  /-- An option that is given once is given twice. -/
  | repeatedOption
  /-- A switch is given a value. -/
  | needlessValue
  | helpWanted
  | versionWanted
  /-- Nothing is asked for at all. -/
  | nothingAsked
deriving DecidableEq

namespace UsageError

/-- The error in words. -/
def message : UsageError → String
  | .unknownArgument => "there is an argument that the command does not have"
  | .missingSource => "the data source is missing"
  | .unknownCommand => "there is no such command"
  | .missingCommand => "a command is missing"
  | .missingValue => "an option has no value"
  | .badValue reason => reason
  | .repeatedOption => "an option is given twice"
  | .needlessValue => "a switch has no value"
  | .helpWanted => ""
  | .versionWanted => ""
  | .nothingAsked => "nothing is asked for"

end UsageError

/-- How the command line is written. -/
def usageText : String := "Usage: druidq [OPTIONS] <COMMAND>

Commands:
  datasources      List data sources
  describe SOURCE  Show dimensions and metrics of a data source
  query SOURCE     Build a query and send it
  help             Show this text

Options:
  -b, --broker-url URL    Broker query endpoint
      --timeout-secs N    Read timeout in seconds
  -c, --config PATH       Configuration file
      --time-zone NAME    Time zone of period granularities
  -h, --help              Show this text
  -V, --version           Show the version

Options of query:
  --group-by DIMENSION    Group by a dimension (repeatable)
  --long-sum METRIC       Sum whole numbers (repeatable)
  --double-sum METRIC     Sum numbers (repeatable)
  --count METRIC          Count (repeatable)
  --filter DIM=V1,V2      Keep rows with one of the values (repeatable)
  --exclude DIM=V1,V2     Drop rows with one of the values (repeatable)
  --interval FROM/TO      Time range
  --granularity NAME      all, hour, day, or a period such as PT6H
  --no-cache              Bypass the cache of the broker
  --dry-run               Print the query instead of sending it
"

end BrokerQuery
