import BrokerQuery.Query.Basic
/-
  Queries as the broker reads them.

  The fields stand in one fixed order, whatever the order of the setters, and the filter comes
  last.  Properties that were never set are left out; a list that was set to nothing is not.
-/

namespace BrokerQuery.Query

/-- A field that is written only if it has a value. -/
def optional (name : String) (toJson : α → Json) (value : Option α) : List (String × Json) :=
  match value with
  | some v => [(name, toJson v)]
  | none => []

/-- The fields of a query but for its filter. -/
def properties (q : Query) : List (String × Json) :=
  [("dataSource", .string q.dataSource), ("granularity", q.granularity.toJson),
    ("intervals", .ofStrings q.intervals)] ++
  optional "queryType" (.string ·.name) q.queryType ++
  optional "dimensions" .ofStrings q.dimensions ++
  optional "dimension" .string q.dimension ++
  optional "metric" .string q.metric ++
  optional "threshold" (.int ·) q.threshold ++
  optional "metrics" .ofStrings q.metrics ++
  optional "pagingSpec" PagingSpec.toJson q.paging ++
  optional "aggregations" (.array <| ·.map Aggregation.toJson) q.aggregations ++
  optional "postAggregations" (.array <| PostAggregation.toJsonAll ·) q.postAggregations ++
  optional "having" Having.toJson q.having ++
  optional "limitSpec" LimitSpec.toJson q.limitSpec ++
  optional "context" (fun b => .object [("useCache", .bool b)]) q.useCache

/-- The filter field, if there is a filter. -/
def filterField (q : Query) : Except QueryError (List (String × Json)) :=
  match q.filter with
  | none => .ok []
  | some f => (f.toJson.mapError .filter).map fun v => [("filter", v)]

/-- A query as JSON; it fails only where its filter cannot be written. -/
def toJson (q : Query) : Except QueryError Json := do
  let filter ← q.filterField
  return .object (q.properties ++ filter)

end BrokerQuery.Query
