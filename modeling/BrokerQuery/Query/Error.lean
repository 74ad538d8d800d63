import BrokerQuery.Filter.Error
/-
  What can be wrong with a query.
-/

namespace BrokerQuery

/-- Why a query cannot be built or written. -/
inductive QueryError
  | filter (error : FilterError)
  /-- An interval end that is no moment, as it was written. -/
  | invalidInterval (bound : String)
  /-- A time zone that is not in the database. -/
  | invalidTimeZone (zone : String)
deriving DecidableEq

/-- The error in words. -/
def QueryError.message : QueryError → String
  | .filter error => error.message
  | .invalidInterval bound => s!"Invalid interval bound: {bound}"
  | .invalidTimeZone zone => s!"Unknown time zone: {zone}"

end BrokerQuery
