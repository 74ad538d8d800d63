import BrokerQuery.Config.Load
/-
  What a user can ask for on the command line.

  A command line is one of three commands and settings that hold for all of them.  Conditions on a
  dimension and the time range are written as one argument each, `dim=v1,v2` and `from/to`; both
  are read here, with blanks around the parts left out.
-/

namespace BrokerQuery

/-- A dimension and some of its values, as in `dim=v1,v2`. -/
structure FilterArg where
  dimension : String
  values : List String
deriving DecidableEq

/-- The two ends of a time range, as in `from/to`. -/
structure IntervalArg where
  start : String
  stop : String
deriving DecidableEq

/-- What a query is built from. -/
structure QueryArgs where
  source : String
  groupBy : List String := []
  longSum : List String := []
  doubleSum : List String := []
  count : List String := []
  /-- Rows are kept if the dimension has one of the values. -/
  filter : List FilterArg := []
  /-- Rows are dropped if the dimension has one of the values. -/
  exclude : List FilterArg := []
  interval : Option IntervalArg := none
  granularity : Option String := none
  noCache : Bool := false
  dryRun : Bool := false
deriving DecidableEq

/-- What a user asks for. -/
inductive Command
  | dataSources
  | describe (source : String)
  | query (args : QueryArgs)
deriving DecidableEq

/-- A command line. -/
structure CommandLine where
  overrides : Overrides
  command : Command
deriving DecidableEq

namespace FilterArg

/-- The texts between commas that are not blank. -/
def readValues (cs : List Char) : List String :=
  (((Text.pieces ',' cs).map Text.trimChars).filter (· ≠ [])).map String.ofList

/-- A dimension and its values, or what is wrong with the text. -/
def ofText (s : String) : Except String FilterArg :=
  match Text.cut? '=' s.toList with
  | none => .error s!"Invalid filter '{s}'. Expected dim=value[,value...]"
  | some (left, right) =>
    let dimension := Text.trimChars left
    let values := readValues right
    if dimension = [] then .error s!"Invalid filter '{s}'. Dimension must not be empty"
    else if values = [] then .error s!"Invalid filter '{s}'. At least one value is required"
    else .ok ⟨String.ofList dimension, values⟩

end FilterArg

namespace IntervalArg

/-- The two ends of a time range, or what is wrong with the text. -/
def ofText (s : String) : Except String IntervalArg :=
  match Text.cut? '/' s.toList with
  | none => .error s!"Invalid interval '{s}'. Expected from/to"
  | some (left, right) =>
    let start := Text.trimChars left
    let stop := Text.trimChars right
    if start = [] ∨ stop = [] then .error s!"Invalid interval '{s}'. Expected from/to"
    else .ok ⟨String.ofList start, String.ofList stop⟩

end IntervalArg
end BrokerQuery
