import BrokerQuery.Query.Wire
/-
  Building a query step by step.

  A `Step` is one call of a setter as a value, so that a whole run is a list.  Each step has a
  clock of its own, since time passes between calls.  A step that fails leaves the query as it was.
-/

namespace BrokerQuery

/-- One call of a setter. -/
inductive Step
  | source (source : String)
  | queryType (t : QueryType)
  | groupBy (dimensions : List String)
  | topN (dimension metric : String) (threshold : Nat)
  | timeSeries
  | select (dimensions metrics : List String) (rows : Option Nat) (segments : List (String × Int))
  | aggregate (kind : AggregationKind) (fields : List String)
  | distinctCount (dimensions : List String)
  | postAggregation (p : PostAggregation)
  | postAggregationDouble (p : PostAggregation)
  | having (h : Having)
  | limit (rows : Nat) (columns : List (String × Direction))
  | interval (start stop : Bound)
  | since (start : Bound)
  | intervals (ranges : List (Bound × Bound))
  | granularity (text : String) (zone : Option String)
  | duration (milliseconds : Nat) (zone : Option String)
  | useCache (enabled : Bool)
  | filter (entries : List (String × Operand))
  | filterWith (built : Except FilterError Operand)
  | andFilter (f : Filter)

namespace Step

/-- The query after a step, or why the step fails. -/
def apply (clock : Clock) (q : Query) : Step → Except QueryError Query
  | .source s => .ok (q.onSource s)
  | .queryType t => .ok (q.ofType t)
  | .groupBy dimensions => .ok (q.groupBy dimensions)
  | .topN dimension metric threshold => .ok (q.topN dimension metric threshold)
  | .timeSeries => .ok q.timeSeries
  | .select dimensions metrics rows segments => .ok (q.select dimensions metrics rows segments)
  | .aggregate kind fields => .ok (q.aggregate kind fields)
  | .distinctCount dimensions => .ok (q.distinctCount dimensions)
  | .postAggregation p => .ok (q.postAggregation p)
  | .postAggregationDouble p => .ok (q.postAggregationDouble p)
  | .having h => .ok (q.addHaving h)
  | .limit rows columns => .ok (q.limitTo rows columns)
  | .interval start stop => q.withInterval clock start stop
  | .since start => q.since clock start
  | .intervals ranges => q.withIntervals clock ranges
  | .granularity text zone => q.withGranularity text zone
  | .duration milliseconds zone => q.withDuration milliseconds zone
  | .useCache enabled => .ok (q.cached enabled)
  | .filter entries => (q.filterEntries entries).mapError .filter
  | .filterWith built => (q.filterWith built).mapError .filter
  | .andFilter f => .ok (q.andFilter f)

/-- The query after a step; a step that fails changes nothing. -/
def applyOrKeep (clock : Clock) (q : Query) (s : Step) : Query :=
  match s.apply clock q with
  | .ok q' => q'
  | .error _ => q

/-- The query after a run of steps, each with the time of its call. -/
def run (q : Query) (steps : List (Clock × Step)) : Query :=
  steps.foldl (fun q call => applyOrKeep call.1 q call.2) q

end Step
end BrokerQuery
