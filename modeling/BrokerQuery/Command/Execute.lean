import BrokerQuery.Broker.Handle
import BrokerQuery.Command.Build
/-
  Carrying out a command.

  A dry run prints the query and talks to nobody.  Every other command needs a client, then it
  builds what it sends, then it asks the broker; the first of these that fails decides.  Output is
  printed line by line, as soon as there is a line: a description prints the dimensions before it
  asks for the metrics.
-/

namespace BrokerQuery

namespace Command

/-- A session that fails. -/
def fail (e : CommandError) : Session (Except CommandError Unit) := .done (.error e)

/-- Prints a line and goes on. -/
def printLine (line : String) (next : Session α) : Session α := .print (line ++ "\n") next

/-- Prints several lines and succeeds. -/
def finish (lines : List String) : Session (Except CommandError Unit) :=
  lines.foldr printLine (.done (.ok ()))

/-- Prints the query that arguments ask for. -/
def dryRun (clock : Clock) (defaults : QueryDefaults) (args : QueryArgs) :
    Session (Except CommandError Unit) :=
  match args.build clock defaults with
  | .error e => fail (.build e)
  | .ok q =>
    match q.toJson with
    | .error e => fail (.build (.query e))
    | .ok document => finish [document.pretty]

/-- Prints the names of all data sources. -/
def listDataSources (client : Client) : Session (Except CommandError Unit) := do
  match ← client.dataSources with
  | .error e => fail (.list e)
  | .ok names => finish names

/-- Prints dimensions and metrics of a data source. -/
def describeSource (client : Client) (source : String) : Session (Except CommandError Unit) := do
  let (dimensions, handle) ← (Handle.ofSource source client).dimensions
  match dimensions with
  | .error e => fail (.describe handle.name e)
  | .ok dimensions =>
    printLine ("dimensions: " ++ Text.join ", " dimensions) do
      let (metrics, _) ← handle.metrics
      match metrics with
      | .error e => fail (.client e)
      | .ok metrics => finish ["metrics: " ++ Text.join ", " metrics]

/-- Sends a query and prints the rows, each on one line. -/
def sendQuery (clock : Clock) (defaults : QueryDefaults) (client : Client) (args : QueryArgs) :
    Session (Except CommandError Unit) :=
  match args.build clock defaults with
  | .error e => fail (.build e)
  | .ok q => do
    match ← client.send q with
    | .error e => fail (.query q.source e)
    | .ok rows => finish (rows.map Row.text)

/-- A command that needs a client. -/
def withClient (clock : Clock) (defaults : QueryDefaults) (client : Client) :
    Command → Session (Except CommandError Unit)
  | .dataSources => listDataSources client
  | .describe source => describeSource client source
  | .query args => sendQuery clock defaults client args

/-- Carries out a command. -/
def execute (clock : Clock) (config : Config) (c : Command) : Session (Except CommandError Unit) :=
  match c with
  | .query args =>
    if args.dryRun then Command.dryRun clock config.defaults args
    else online clock config (.query args)
  | c => online clock config c
where
  /-- Carries out a command with a client of the configured broker. -/
  online (clock : Clock) (config : Config) (c : Command) : Session (Except CommandError Unit) :=
    match Client.ofUrl config.brokerUrl config.timeoutSecs with
    | .error e => fail (.client e)
    | .ok client => c.withClient clock config.defaults client

end Command
end BrokerQuery
