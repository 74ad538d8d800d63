import BrokerQuery.Json.Basic
import BrokerQuery.Number.Whole
import BrokerQuery.Query.Error
import BrokerQuery.TimeZone.Resolve
/-
  Granularity: the buckets of time that results are grouped into.

  Seven buckets have a name.  `day` is short for the period `P1D`, and every other text is taken as
  a period; periods and durations live in a time zone, named buckets do not.
-/

namespace BrokerQuery

/-- A bucket that the broker knows by name. -/
inductive NamedGranularity
  | none
  | all
  | second
  | minute
  | fifteenMinute
  | thirtyMinute
  | hour
deriving DecidableEq

/-- The buckets of a query. -/
inductive Granularity
  | named (name : NamedGranularity)
  | period (text zone : String)
  /-- Buckets of a fixed number of milliseconds. -/
  | duration (milliseconds : Nat) (zone : String)
deriving DecidableEq

namespace NamedGranularity

/-- The broker's name of a bucket. -/
def name : NamedGranularity → String
  | .none => "none"
  | .all => "all"
  | .second => "second"
  | .minute => "minute"
  | .fifteenMinute => "fifteen_minute"
  | .thirtyMinute => "thirty_minute"
  | .hour => "hour"

/-- Every named bucket. -/
def list : List NamedGranularity :=
  [.none, .all, .second, .minute, .fifteenMinute, .thirtyMinute, .hour]

/-- The bucket with this name. -/
def ofName? (s : String) : Option NamedGranularity := list.find? (·.name = s)

/-- What is said about a text that names no bucket. -/
def unknown (s : String) : String := s!"not a simple granularity: {s}"

end NamedGranularity

namespace Granularity

/-- The zone of a query, an unknown one as a query error. -/
def zone? (tz : Option String) : Except QueryError String :=
  (TimeZone.resolve tz).mapError .invalidTimeZone

/-- The buckets that a text means: a name, `day`, or a period. -/
def ofText (s : String) (tz : Option String) : Except QueryError Granularity :=
  match NamedGranularity.ofName? s with
  | some name => .ok (.named name)
  | none => (zone? tz).map (.period (if s = "day" then "P1D" else s))

/-- Buckets of a fixed number of milliseconds. -/
def ofDuration (milliseconds : Nat) (tz : Option String) : Except QueryError Granularity :=
  (zone? tz).map (.duration milliseconds)

/-- The buckets as JSON. -/
def toJson : Granularity → Json
  | .named name => .string name.name
  | .period text tz => .object
      [("type", .string "period"), ("period", .string text), ("timeZone", .string tz)]
  | .duration milliseconds tz => .object
      [("type", .string "duration"), ("duration", .int milliseconds), ("timeZone", .string tz)]

end Granularity
end BrokerQuery
