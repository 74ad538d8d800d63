import BrokerQuery.Filter.Operand
/-
  Filters from builders and from mappings.

  A builder gives an operand or stops at an error of its own.  `Filter.build` takes what it gave and
  insists on a filter.  `Filter.ofEntries` takes a mapping from dimensions to values: each entry says
  that the dimension has one of its values, and the entries are joined by "and" in their order.  The
  first bad entry decides the error.
-/

namespace BrokerQuery

/-- A builder that stops at nothing gives its operand. -/
instance : Coe Operand (Except FilterError Operand) := ⟨.ok⟩

namespace Filter

/-- The filter in what a builder gave; an error of the builder's own stays as it is. -/
def build : Except FilterError Operand → Except FilterError Filter
  | .ok (.expression f) => .ok f
  | .ok (.scalar _) => .error (.notAFilter .scalarBuilt)
  | .ok (.list _) => .error (.notAFilter .listBuilt)
  | .error e => .error e

/-- One entry of a mapping; its values are flattened before the test sees them. -/
def ofEntry (entry : String × Operand) : Except FilterError Filter :=
  if entry.2.leaves.isEmpty then .error (.notAFilter (.noValues entry.1))
  else (Predicate.on entry.1).isIn (.list (entry.2.leaves.map Leaf.operand))

/-- A mapping from dimensions to values; no entry gives no filter. -/
def ofEntries (entries : List (String × Operand)) : Except FilterError (Option Filter) :=
  (entries.mapM ofEntry).map all?

end Filter
end BrokerQuery
