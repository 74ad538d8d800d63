import BrokerQuery.TimeZone.Names
/-
  The time zone of a query.

  Without a zone the zone is `UTC`.  `CEST` is no name of the database, and people write it, so it
  stands for `Europe/Berlin`.  Any other name must be in the database.
-/

namespace BrokerQuery.TimeZone

/-- The zone that is used when none is given. -/
def standard : String := "UTC"

/-- The name that a zone goes by in the database. -/
def databaseName (zone : String) : String := if zone = "CEST" then "Europe/Berlin" else zone

/-- The zone of a query; an unknown one is the error. -/
def resolve (zone : Option String) : Except String String :=
  let name := databaseName (zone.getD standard)
  if name ∈ names then .ok name else .error name

end BrokerQuery.TimeZone
