/-
  What can be wrong with a filter.

  Errors are causes; `message` words them.
-/

namespace BrokerQuery

/-- Why something offered as a filter is none. -/
inductive NotAFilter
  /-- A builder gave a single value. -/
  | scalarBuilt
  /-- A builder gave a list of values. -/
  | listBuilt
  /-- A mapping has no values for a dimension. -/
  | noValues (dimension : String)
  /-- A negation has nothing to negate. -/
  | noOperand
  /-- A builder's reason in its own words. -/
  | other (text : String)
deriving DecidableEq

/-- Why a filter cannot be built or written. -/
inductive FilterError
  /-- A test of a dimension against an empty list of values. -/
  | emptyOperand (dimension : String)
  /-- A test of a dimension against another filter. -/
  | nestedExpression (dimension : String)
  | notAFilter (reason : NotAFilter)
  /-- A test that was never given a value. -/
  | missingValue (dimension : String)
deriving DecidableEq

namespace NotAFilter

/-- The reason in words. -/
def message : NotAFilter → String
  | .scalarBuilt => "builder returned a scalar value"
  | .listBuilt => "builder returned a list of values"
  | .noValues dimension => s!"empty value list for dimension '{dimension}'"
  | .noOperand => "negation without operand"
  | .other text => text

end NotAFilter

namespace FilterError

/-- The error in words. -/
def message : FilterError → String
  | .emptyOperand dimension => s!"Must provide a non-empty value list for dimension '{dimension}'"
  | .nestedExpression dimension =>
    s!"Filter on dimension '{dimension}' is too complex: expressions are not allowed as values"
  | .notAFilter reason => "Not a valid filter: " ++ reason.message
  | .missingValue dimension => s!"No value assigned to dimension '{dimension}'"

end FilterError
end BrokerQuery
