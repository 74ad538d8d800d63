import BrokerQuery.CommandLine.Basic
import BrokerQuery.CommandLine.Usage
/-
  The options of the command line.

  A `Setting` is an option with a value, a `Switch` one without.  Which of them can be given
  depends on the `Level`: in front of the command, or after it.  Four settings can be given at
  every level, so they may be written anywhere.

  A `Draft` is a command line that is read in part.  Values are judged when they enter it: a
  setting that is there already is refused before its value is looked at.
-/

namespace BrokerQuery

/-- An option with a value. -/
inductive Setting
  | brokerUrl
  | timeoutSecs
  | config
  | timeZone
  | groupBy
  | longSum
  | doubleSum
  | count
  | filter
  | exclude
  | interval
  | granularity
deriving DecidableEq

/-- An option without a value. -/
inductive Switch
  | noCache
  | dryRun
  | help
  | version
deriving DecidableEq

/-- The place of an argument: in front of the command, or after it. -/
inductive Level
  | top
  | dataSources
  | describe
  | query
deriving DecidableEq

/-- A command line that is read in part. -/
structure Draft where
  overrides : Overrides := {}
  args : QueryArgs := { source := "" }
  source : Option String := none
  /-- A setting that is named, and its value if that has come. -/
  pending : Option (Setting × Option String) := none
  /-- Whether all that follows is no option. -/
  trailing : Bool := false

namespace Setting

/-- The word for a setting, after two dashes. -/
def name : Setting → String
  | .brokerUrl => "broker-url"
  | .timeoutSecs => "timeout-secs"
  | .config => "config"
  | .timeZone => "time-zone"
  | .groupBy => "group-by"
  | .longSum => "long-sum"
  | .doubleSum => "double-sum"
  | .count => "count"
  | .filter => "filter"
  | .exclude => "exclude"
  | .interval => "interval"
  | .granularity => "granularity"

/-- The letter for a setting, after one dash. -/
def letter? : Setting → Option Char
  | .brokerUrl => some 'b'
  | .config => some 'c'
  | _ => none

/-- The variable of the environment that stands in for a setting. -/
def envName? : Setting → Option String
  | .brokerUrl => some "DRUIDQ_BROKER_URL"
  | .timeoutSecs => some "DRUIDQ_TIMEOUT_SECS"
  | .config => some "DRUIDQ_CONFIG"
  | .timeZone => some "DRUIDQ_TIME_ZONE"
  | .granularity => some "DRUIDQ_GRANULARITY"
  | _ => none

/-- The settings that can be given at every level. -/
def everywhere : List Setting := [.brokerUrl, .timeoutSecs, .config, .timeZone]

end Setting

namespace Switch

/-- The word for a switch, after two dashes. -/
def name : Switch → String
  | .noCache => "no-cache"
  | .dryRun => "dry-run"
  | .help => "help"
  | .version => "version"

/-- The letter for a switch, after one dash. -/
def letter? : Switch → Option Char
  | .help => some 'h'
  | .version => some 'V'
  | _ => none

end Switch

namespace Level

/-- The settings of a level, those of the command first. -/
def settings : Level → List Setting
  | .query =>
    [.groupBy, .longSum, .doubleSum, .count, .filter, .exclude, .interval, .granularity] ++
      Setting.everywhere
  | _ => Setting.everywhere

/-- The switches of a level. -/
def switches : Level → List Switch
  | .top => [.help, .version]
  | .query => [.noCache, .dryRun, .help]
  | _ => [.help]

/-- The level of a command, by its name. -/
def ofCommand? (s : String) : Option Level :=
  if s = "datasources" then some .dataSources
  else if s = "describe" then some .describe
  else if s = "query" then some .query
  else none

/-- Whether a command has a data source. -/
def hasSource : Level → Bool
  | .describe => true
  | .query => true
  | _ => false

end Level

/-- A whole number below `2 ^ 64` in decimal, which may have a plus sign. -/
def readSeconds (s : String) : Except String Nat :=
  let digits := match s.toList with
    | '+' :: ds => if ds.isEmpty then ['+'] else ds
    | ds => ds
  if digits = [] then .error "cannot parse integer from empty string"
  else go 0 digits
where
  /-- Adds the digits from the left; the first thing that is wrong decides. -/
  go (n : Nat) : List Char → Except String Nat
    | [] => .ok n
    | c :: cs =>
      if !c.isDigit then .error "invalid digit found in string"
      else
        let m := n * 10 + (c.toNat - '0'.toNat)
        if Nat.pow 2 64 ≤ m then .error "number too large to fit in target type" else go m cs

namespace Draft

/-- Whether a setting that can be given once is there. -/
def has (d : Draft) : Setting → Bool
  | .brokerUrl => d.overrides.brokerUrl.isSome
  | .timeoutSecs => d.overrides.timeoutSecs.isSome
  | .config => d.overrides.config.isSome
  | .timeZone => d.overrides.timeZone.isSome
  | .interval => d.args.interval.isSome
  | .granularity => d.args.granularity.isSome
  | _ => false

/-- A value as its setting reads it. -/
def judge (value : Except String α) : Except UsageError α := value.mapError .badValue

/-- The draft with the value of a setting. -/
def put (d : Draft) (value : String) : Setting → Except UsageError Draft
  | .brokerUrl => .ok { d with overrides := { d.overrides with brokerUrl := some value } }
  | .timeoutSecs => (judge (readSeconds value)).map fun n =>
      { d with overrides := { d.overrides with timeoutSecs := some n } }
  | .config =>
    if value = "" then .error .missingValue
    else .ok { d with overrides := { d.overrides with config := some value } }
  | .timeZone => .ok { d with overrides := { d.overrides with timeZone := some value } }
  | .groupBy => .ok { d with args := { d.args with groupBy := d.args.groupBy ++ [value] } }
  | .longSum => .ok { d with args := { d.args with longSum := d.args.longSum ++ [value] } }
  | .doubleSum => .ok { d with args := { d.args with doubleSum := d.args.doubleSum ++ [value] } }
  | .count => .ok { d with args := { d.args with count := d.args.count ++ [value] } }
  | .filter => (judge (FilterArg.ofText value)).map fun a =>
      { d with args := { d.args with filter := d.args.filter ++ [a] } }
  | .exclude => (judge (FilterArg.ofText value)).map fun a =>
      { d with args := { d.args with exclude := d.args.exclude ++ [a] } }
  | .interval => (judge (IntervalArg.ofText value)).map fun a =>
      { d with args := { d.args with interval := some a } }
  | .granularity => .ok { d with args := { d.args with granularity := some value } }

/-- Gives a setting its value. -/
def set (d : Draft) (s : Setting) (value : String) : Except UsageError Draft :=
  if d.has s then .error .repeatedOption else d.put value s

/-- Turns a switch on; help and version end the reading. -/
def turnOn (d : Draft) : Switch → Except UsageError Draft
  | .help => .error .helpWanted
  | .version => .error .versionWanted
  | .noCache =>
    if d.args.noCache then .error .repeatedOption
    else .ok { d with args := { d.args with noCache := true } }
  | .dryRun =>
    if d.args.dryRun then .error .repeatedOption
    else .ok { d with args := { d.args with dryRun := true } }

end Draft
end BrokerQuery
