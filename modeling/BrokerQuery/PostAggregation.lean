import BrokerQuery.Json.Basic
/-
  Post-aggregations: arithmetic on aggregated values.

  `fieldNames` lists the fields that a tree reads, in the order of their first occurrence from left
  to right and without repeats; a query aggregates them before it computes with them.
-/

namespace BrokerQuery

/-- An arithmetic operation. -/
inductive Arithmetic
  | add
  | subtract
  | multiply
  | divide
  | quotient
deriving DecidableEq

/-- A computation on aggregated values. -/
inductive PostAggregation
  | arithmetic (name : String) (operation : Arithmetic) (fields : List PostAggregation)
  | fieldAccess (name fieldName : String)
  | constant (name : String) (value : Binary64)

namespace Arithmetic

/-- The broker's sign for an operation. -/
def sign : Arithmetic → String
  | .add => "+"
  | .subtract => "-"
  | .multiply => "*"
  | .divide => "/"
  | .quotient => "quotient"

/-- Every operation. -/
def all : List Arithmetic := [.add, .subtract, .multiply, .divide, .quotient]

/-- The operation with this sign. -/
def ofSign? (s : String) : Option Arithmetic := all.find? (·.sign = s)

end Arithmetic

namespace PostAggregation

/-- Reads the aggregation of a field under its own name. -/
def field (name : String) : PostAggregation := .fieldAccess name name

/-- The name of the computed value. -/
def name : PostAggregation → String
  | .arithmetic name .. => name
  | .fieldAccess name _ => name
  | .constant name _ => name

/-- Adds a name to the end of a list unless it is there. -/
def addName (names : List String) (name : String) : List String :=
  if name ∈ names then names else names ++ [name]

mutual
/-- Adds the fields that a tree reads. -/
def addFieldNames (names : List String) : PostAggregation → List String
  | .arithmetic _ _ fields => addFieldNamesAll names fields
  | .fieldAccess _ fieldName => addName names fieldName
  | .constant .. => names

/-- Adds the fields that several trees read, from the left. -/
def addFieldNamesAll (names : List String) : List PostAggregation → List String
  | [] => names
  | p :: ps => addFieldNamesAll (addFieldNames names p) ps
end

/-- The fields that a tree reads, in the order of their first occurrence, without repeats. -/
def fieldNames (p : PostAggregation) : List String := addFieldNames [] p

mutual
/-- A post-aggregation as JSON. -/
def toJson : PostAggregation → Json
  | .arithmetic name operation fields => .object
      [("type", .string "arithmetic"), ("name", .string name), ("fn", .string operation.sign),
        ("fields", .array (toJsonAll fields))]
  | .fieldAccess name fieldName => .object
      [("type", .string "fieldAccess"), ("name", .string name), ("fieldName", .string fieldName)]
  | .constant name value => .object
      [("type", .string "constant"), ("name", .string name), ("value", .ofNumber value)]

/-- Several post-aggregations as JSON, in order. -/
def toJsonAll : List PostAggregation → List Json
  | [] => []
  | p :: ps => toJson p :: toJsonAll ps
end

end PostAggregation
end BrokerQuery
