import BrokerQuery.Command.Error
import BrokerQuery.CommandLine.Basic
import BrokerQuery.Query.Wire
/-
  Queries from the command line.

  The setters are called in a fixed order: grouping and aggregations, conditions, time range,
  granularity, cache.  Lists that are empty call none.  All `filter` arguments are one mapping;
  each `exclude` argument is a negated test after it.
-/

namespace BrokerQuery.QueryArgs

/-- A setter that is called only for a list that is not empty. -/
def unlessEmpty (names : List String) (setter : Query → List String → Query) (q : Query) : Query :=
  if names.isEmpty then q else setter q names

/-- The query with grouping and aggregations. -/
def start (clock : Clock) (args : QueryArgs) : Query :=
  Query.new clock args.source
    |> unlessEmpty args.groupBy Query.groupBy
    |> unlessEmpty args.longSum Query.longSum
    |> unlessEmpty args.doubleSum Query.doubleSum
    |> unlessEmpty args.count Query.count

/-- A condition as an entry of a mapping. -/
def entry (a : FilterArg) : String × Operand := (a.dimension, .ofStrings a.values)

/-- The query without the rows that a condition names. -/
def addExclude (q : Query) (a : FilterArg) : Except FilterError Query :=
  ((Predicate.on a.dimension).notEquals (.ofStrings a.values)).map q.andFilter

/-- The query with all conditions. -/
def addConditions (args : QueryArgs) (q : Query) : Except FilterError Query := do
  args.exclude.foldlM addExclude (← q.filterEntries (args.filter.map entry))

/-- The query with the time range, if one is given. -/
def addInterval (clock : Clock) (args : QueryArgs) (q : Query) : Except BuildError Query :=
  match args.interval with
  | none => .ok q
  | some range =>
    (q.withInterval clock (.text range.start) (.text range.stop)).mapError
      (.interval range.start range.stop)

/-- The query with the granularity of the arguments, or else the default one. -/
def addGranularity (defaults : QueryDefaults) (args : QueryArgs) (q : Query) :
    Except BuildError Query :=
  (q.withGranularity (args.granularity.getD defaults.granularity) defaults.timeZone).mapError .query

/-- The query that arguments ask for. -/
def build (clock : Clock) (defaults : QueryDefaults) (args : QueryArgs) :
    Except BuildError Query := do
  let q ← (args.addConditions (args.start clock)).mapError fun e => .query (.filter e)
  let q ← args.addInterval clock q
  let q ← args.addGranularity defaults q
  return if args.noCache then q.cached false else q

end BrokerQuery.QueryArgs
