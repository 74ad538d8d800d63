import BrokerQuery.Json.Basic
/-
  Aggregations: the values that a query computes per bucket.

  Every aggregation reads one field and is named after it.  `addUnless` is the rule for sums,
  counts and extremes: a field that already has an aggregation, of whatever kind, gets no other.
-/

namespace BrokerQuery

/-- What is computed of a field. -/
inductive AggregationKind
  | longSum
  | doubleSum
  | count
  | min
  | max
  | hyperUnique
deriving DecidableEq

/-- A value that is computed per bucket. -/
structure Aggregation where
  kind : AggregationKind
  /-- The name of the result. -/
  name : String
  /-- The field that is read. -/
  fieldName : String
deriving DecidableEq

namespace AggregationKind

/-- The broker's name of a kind. -/
def wireName : AggregationKind → String
  | .longSum => "longSum"
  | .doubleSum => "doubleSum"
  | .count => "count"
  | .min => "min"
  | .max => "max"
  | .hyperUnique => "hyperUnique"

end AggregationKind

namespace Aggregation

/-- The aggregation of a field under its own name. -/
def of (kind : AggregationKind) (field : String) : Aggregation := ⟨kind, field, field⟩

/-- Adds the aggregation of a field unless the field has one. -/
def addUnless (kind : AggregationKind) (list : List Aggregation) (field : String) :
    List Aggregation :=
  if list.any (·.fieldName = field) then list else list ++ [of kind field]

/-- An aggregation as JSON. -/
def toJson (a : Aggregation) : Json := .object
  [("type", .string a.kind.wireName), ("name", .string a.name),
    ("fieldName", .string a.fieldName)]

end Aggregation
end BrokerQuery
