import BrokerQuery.Filter.Basic
import BrokerQuery.Filter.Error
import BrokerQuery.Json.Basic
/-
  Filters as the broker reads them.

  A test is a `selector`, "and" and "or" hold their children under `fields`, "not" holds its operand
  under `field`.  A test without a value cannot be written, nor can a "not" of nothing; of several
  faults the leftmost is named.
-/

namespace BrokerQuery.Filter

/-- A test as JSON. -/
def predicateJson (p : Predicate) : Except FilterError Json :=
  match p.value with
  | none => .error (.missingValue p.dimension)
  | some value => .ok (.object
      [("type", .string "selector"), ("dimension", .string p.dimension), ("value", .string value)])

mutual
/-- A filter as JSON. -/
def toJson : Filter → Except FilterError Json
  | .test p => predicateJson p
  | .node .not [] => .error (.notAFilter .noOperand)
  | .node .not (operand :: _) => do
    let field ← toJson operand
    return .object [("type", .string Connective.not.name), ("field", field)]
  | .node op children => do
    let fields ← toJsonAll children
    return .object [("type", .string op.name), ("fields", .array fields)]

/-- Several filters as JSON, in order. -/
def toJsonAll : List Filter → Except FilterError (List Json)
  | [] => return []
  | f :: fs => do
    let v ← toJson f
    let vs ← toJsonAll fs
    return v :: vs
end

end BrokerQuery.Filter
