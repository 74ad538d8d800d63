import BrokerQuery.Json.Basic
/-
  Having clauses: which groups a query keeps.

  A having clause compares aggregated values with numbers and joins comparisons like a filter does.
  Unlike a filter it may be put together by hand, so empty junctions and stacked negations exist.
-/

namespace BrokerQuery

/-- How an aggregated value is compared. -/
inductive Relation
  | greaterThan
  | lessThan
  | equalTo
deriving DecidableEq

/-- A condition on aggregated values. -/
inductive Having
  | compare (relation : Relation) (aggregation : String) (value : Binary64)
  | conj (children : List Having)
  | disj (children : List Having)
  | neg (child : Having)

namespace Relation

/-- The broker's name of a comparison. -/
def name : Relation → String
  | .greaterThan => "greaterThan"
  | .lessThan => "lessThan"
  | .equalTo => "equalTo"

end Relation

namespace Having

/-- Both clauses hold; a conjunction on the left is extended. -/
def and (a b : Having) : Having :=
  match a with
  | .conj children => .conj (children ++ [b])
  | a => .conj [a, b]

/-- One of the clauses holds; a disjunction on the left is extended. -/
def or (a b : Having) : Having :=
  match a with
  | .disj children => .disj (children ++ [b])
  | a => .disj [a, b]

/-- The clause does not hold; a negation gives its operand back. -/
def not (a : Having) : Having :=
  match a with
  | .neg child => child
  | a => .neg a

mutual
/-- A clause as JSON: comparisons carry `aggregation` and `value`, "and" and "or" carry
`havingSpecs`, "not" carries `havingSpec`. -/
def toJson : Having → Json
  | .compare relation aggregation value => .object
      [("type", .string relation.name), ("aggregation", .string aggregation),
        ("value", .ofNumber value)]
  | .conj children => .object [("type", .string "and"), ("havingSpecs", .array (toJsonAll children))]
  | .disj children => .object [("type", .string "or"), ("havingSpecs", .array (toJsonAll children))]
  | .neg child => .object [("type", .string "not"), ("havingSpec", toJson child)]

/-- Several clauses as JSON, in order. -/
def toJsonAll : List Having → List Json
  | [] => []
  | h :: hs => toJson h :: toJsonAll hs
end

end Having
end BrokerQuery
