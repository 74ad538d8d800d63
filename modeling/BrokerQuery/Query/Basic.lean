import BrokerQuery.Filter.Build
import BrokerQuery.Filter.Wire
import BrokerQuery.Having
import BrokerQuery.PostAggregation
import BrokerQuery.Query.Aggregation
import BrokerQuery.Query.Granularity
import BrokerQuery.Query.Interval
import BrokerQuery.Query.Limit
import BrokerQuery.Text.Split
/-
  Queries and the setters that build them.

  A query starts with a source, the granularity `all` and the range from today's midnight to now.
  Setters change one group of properties each:

    * source: `onSource`;
    * shape: `ofType`, `groupBy`, `topN`, `timeSeries`, `select`;
    * aggregation: `longSum`, `doubleSum`, `count`, `min`, `max`, `distinctCount` and the two
      post-aggregations; all but `distinctCount` also settle the type as `groupBy` if it is open;
    * having, limit, time range, granularity, cache and filter.

  Clauses of the last kind only ever grow: `having` and `andFilter` join what is there with "and".
-/

namespace BrokerQuery

/-- What kind of result a query asks for. -/
inductive QueryType
  | groupBy
  | topN
  | timeSeries
  | select
deriving DecidableEq

/-- The broker's name of a type. -/
def QueryType.name : QueryType → String
  | .groupBy => "groupBy"
  | .topN => "topN"
  | .timeSeries => "timeseries"
  | .select => "select"

/-- The times that a query may refer to. -/
structure Clock where
  /-- Midnight of the current day in UTC. -/
  today : Moment
  now : Moment

/-- The clock some seconds after 1970-01-01T00:00:00Z. -/
def Clock.ofSeconds (n : Int) : Clock where
  today := { seconds := n / 86400 * 86400 }
  now := { seconds := n }

/-- A query of a broker. -/
structure Query where
  /-- The service that the source belongs to; it is not sent. -/
  service : String
  dataSource : String
  granularity : Granularity := .named .all
  /-- The time ranges as they are sent. -/
  intervals : List String
  queryType : Option QueryType := none
  dimensions : Option (List String) := none
  /-- Dimension, metric and number of rows of a ranking. -/
  dimension : Option String := none
  metric : Option String := none
  threshold : Option Nat := none
  metrics : Option (List String) := none
  paging : Option PagingSpec := none
  aggregations : Option (List Aggregation) := none
  postAggregations : Option (List PostAggregation) := none
  having : Option Having := none
  limitSpec : Option LimitSpec := none
  /-- Whether the broker may answer from its cache, where that is said. -/
  useCache : Option Bool := none
  filter : Option Filter := none

namespace Query

/-! ## Source and shape -/

/-- Service and data source of a slash-separated name: the first part and the last one, which of a
name without a slash are the same. -/
def splitSource (source : String) : String × String :=
  match Text.pieces '/' source.toList with
  | [] => (source, source)
  | service :: rest => (String.ofList service, String.ofList (rest.getLast?.getD service))

/-- The query on another source. -/
def onSource (q : Query) (source : String) : Query :=
  { q with service := (splitSource source).1, dataSource := (splitSource source).2 }

/-- A new query on a source, from today's midnight to now. -/
def new (clock : Clock) (source : String) : Query where
  service := (splitSource source).1
  dataSource := (splitSource source).2
  intervals := [Interval.between clock.today clock.now]

/-- Service and data source with a slash between them. -/
def source (q : Query) : String := q.service ++ "/" ++ q.dataSource

/-- The type of a query, `groupBy` while it is open. -/
def effectiveType (q : Query) : QueryType := q.queryType.getD .groupBy

def ofType (q : Query) (t : QueryType) : Query := { q with queryType := some t }

def groupBy (q : Query) (dimensions : List String) : Query :=
  { q with dimensions := some dimensions, queryType := some .groupBy }

def topN (q : Query) (dimension metric : String) (threshold : Nat) : Query :=
  { q with
    dimension := some dimension, metric := some metric, threshold := some threshold
    queryType := some .topN }

def timeSeries (q : Query) : Query := q.ofType .timeSeries

/-- The number of raw rows of a page when none is given. -/
def defaultSelectLimit : Nat := 1000

def select (q : Query) (dimensions metrics : List String) (limit : Option Nat)
    (identifiers : List (String × Int)) : Query :=
  { q with
    dimensions := some dimensions, metrics := some metrics
    paging := some (.ofList identifiers (limit.getD defaultSelectLimit))
    queryType := some .select }

/-! ## Aggregations -/

/-- The aggregations, none while the list is absent. -/
def aggregationList (q : Query) : List Aggregation := q.aggregations.getD []

/-- The post-aggregations, none while the list is absent. -/
def postAggregationList (q : Query) : List PostAggregation := q.postAggregations.getD []

/-- Aggregates each field that has no aggregation yet. -/
def aggregate (q : Query) (kind : AggregationKind) (fields : List String) : Query :=
  { q with
    queryType := some q.effectiveType
    aggregations := some (fields.foldl (Aggregation.addUnless kind) q.aggregationList) }

def longSum (q : Query) (fields : List String) : Query := q.aggregate .longSum fields

def doubleSum (q : Query) (fields : List String) : Query := q.aggregate .doubleSum fields

def count (q : Query) (fields : List String) : Query := q.aggregate .count fields

def min (q : Query) (fields : List String) : Query := q.aggregate .min fields

def max (q : Query) (fields : List String) : Query := q.aggregate .max fields

/-- Counts the distinct values of each dimension, also of one that is aggregated already. -/
def distinctCount (q : Query) (dimensions : List String) : Query :=
  { q with
    aggregations := some (q.aggregationList ++ dimensions.map (Aggregation.of .hyperUnique)) }

/-- Attaches a computation and aggregates the fields that it reads. -/
def attach (q : Query) (kind : AggregationKind) (p : PostAggregation) : Query :=
  { q with postAggregations := some (q.postAggregationList ++ [p]) }.aggregate kind p.fieldNames

def postAggregation (q : Query) (p : PostAggregation) : Query := q.attach .longSum p

def postAggregationDouble (q : Query) (p : PostAggregation) : Query := q.attach .doubleSum p

/-! ## Having, limit, time and cache -/

/-- Adds a having clause to those before it. -/
def addHaving (q : Query) (h : Having) : Query :=
  { q with having := some (match q.having with
      | some existing => existing.and h
      | none => h) }

def limitTo (q : Query) (limit : Nat) (columns : List (String × Direction)) : Query :=
  { q with limitSpec := some ⟨limit, columns⟩ }

/-- Replaces all time ranges. -/
def withIntervals (q : Query) (clock : Clock) (ranges : List (Bound × Bound)) :
    Except QueryError Query := do
  let texts ← ranges.mapM fun (a, b) => Interval.format clock.today a b
  return { q with intervals := texts }

def withInterval (q : Query) (clock : Clock) (start stop : Bound) : Except QueryError Query :=
  q.withIntervals clock [(start, stop)]

/-- The time range from an end until now. -/
def since (q : Query) (clock : Clock) (start : Bound) : Except QueryError Query :=
  q.withInterval clock start (.at clock.now)

def withGranularity (q : Query) (text : String) (zone : Option String) : Except QueryError Query := do
  let g ← Granularity.ofText text zone
  return { q with granularity := g }

def withDuration (q : Query) (milliseconds : Nat) (zone : Option String) :
    Except QueryError Query := do
  let g ← Granularity.ofDuration milliseconds zone
  return { q with granularity := g }

def cached (q : Query) (enabled : Bool) : Query := { q with useCache := some enabled }

/-! ## Filters -/

/-- Adds a filter to those before it. -/
def andFilter (q : Query) (f : Filter) : Query :=
  { q with filter := some (match q.filter with
      | some existing => existing.and f
      | none => f) }

/-- Adds a mapping from dimensions to values; an empty one adds nothing. -/
def filterEntries (q : Query) (entries : List (String × Operand)) : Except FilterError Query := do
  match ← Filter.ofEntries entries with
  | some f => return q.andFilter f
  | none => return q

/-- Adds the filter that a builder gave. -/
def filterWith (q : Query) (built : Except FilterError Operand) : Except FilterError Query := do
  let f ← Filter.build built
  return q.andFilter f

end Query
end BrokerQuery
