import BrokerQuery.Calendar.Reader
import BrokerQuery.Query.Error
/-
  Time ranges of a query.

  A range has two ends, each given as a moment, a day, a text, or a number of seconds from a base
  (today's midnight).  It is sent as the two moments with a slash between them.  The first end that
  is no moment is the error; it names a text without the blanks around it.
-/

namespace BrokerQuery

/-- One end of a time range. -/
inductive Bound
  | at (m : Moment)
  | date (d : Date)
  | text (s : String)
  /-- Seconds after the base. -/
  | offset (seconds : Int)

namespace Bound

/-- The moment of an end, with the base that offsets count from. -/
def resolve (base : Moment) : Bound → Except QueryError Moment
  | .at m => .ok m
  | .date d => .ok (.midnight d)
  | .text s =>
    match Moment.ofText? s with
    | some m => .ok m
    | none => .error (.invalidInterval (Text.trim s))
  | .offset seconds =>
    match base.addSeconds? seconds with
    | some m => .ok m
    | none => .error (.invalidInterval ("offset " ++ Whole.text seconds ++ "s out of range"))

end Bound

namespace Interval

/-- The text of a range between two moments. -/
def between (start stop : Moment) : String := String.ofList (start.chars ++ '/' :: stop.chars)

/-- The text of a range between two ends. -/
def format (base : Moment) (start stop : Bound) : Except QueryError String := do
  let a ← start.resolve base
  let b ← stop.resolve base
  return between a b

end Interval
end BrokerQuery
