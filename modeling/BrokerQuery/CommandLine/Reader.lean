import BrokerQuery.CommandLine.Options
import BrokerQuery.Environment.Basic
/-
  Reading a command line.

  Arguments are taken from the left, each of them by `Draft.step`:

    1. after two dashes alone, everything is a plain argument;
    2. `--name=value` and `-nvalue` give a setting its value, `--name` and `-n` wait for it;
    3. what does not start with a dash is the value that a setting waits for, else plain.

  A value that came on its own is judged only when the next option or plain argument comes, or at
  the end.  The first plain argument at the top is the name of a command, and the rest belongs to
  its level.  The level of the command is finished before the top is.  The environment stands in
  for what is missing on a level; where both levels are written on, the command's level counts.
-/

namespace BrokerQuery

namespace Draft

/-- The pending setting gets its value. -/
def settle (d : Draft) : Except UsageError Draft :=
  match d.pending with
  | none => .ok d
  | some (_, none) => .error .missingValue
  | some (s, some value) => { d with pending := none }.set s value

/-- Whether the next plain argument is the value of a setting. -/
def awaitsValue (d : Draft) : Bool :=
  match d.pending with
  | some (_, none) => true
  | _ => false

/-- A plain argument: the data source, if there is none yet and the command has one. -/
def plain (level : Level) (d : Draft) (arg : String) : Except UsageError Draft :=
  if level = .top then
    .error (if d.trailing ∧ (arg = "help" ∨ (Level.ofCommand? arg).isSome) then .unknownArgument
      else .unknownCommand)
  else if level.hasSource ∧ d.source = none then do
    let d ← d.settle
    return { d with source := some arg }
  else .error .unknownArgument

/-- An option that is named and may have a value attached. -/
def option (d : Draft) (value : Option String) :
    Option (Setting ⊕ Switch) → Except UsageError Draft
  | none => .error .unknownArgument
  | some (.inl s) => do
    let d ← d.settle
    match value with
    | some v => d.set s v
    | none => return { d with pending := some (s, none) }
  | some (.inr s) =>
    if value.isSome then .error .needlessValue else do (← d.settle).turnOn s

/-- The option of a level that a word names. -/
def named (level : Level) (word : List Char) : Option (Setting ⊕ Switch) :=
  ((level.settings.find? (·.name.toList = word)).map .inl).or
    ((level.switches.find? (·.name.toList = word)).map .inr)

/-- The option of a level that a letter names. -/
def lettered (level : Level) (letter : Char) : Option (Setting ⊕ Switch) :=
  ((level.settings.find? (·.letter? = some letter)).map .inl).or
    ((level.switches.find? (·.letter? = some letter)).map .inr)

/-- An argument after two dashes. -/
def long (level : Level) (d : Draft) (cs : List Char) : Except UsageError Draft :=
  match Text.cut? '=' cs with
  | some (word, value) => d.option (some (String.ofList value)) (named level word)
  | none => d.option none (named level cs)

/-- An argument after one dash: a letter, and for a setting its value, which an equals sign may
set off.  A switch ends the reading of such an argument, so nothing is read after its letter. -/
def short (level : Level) (d : Draft) (letter : Char) (cs : List Char) :
    Except UsageError Draft :=
  match lettered level letter, cs with
  | some (.inl s), '=' :: value => d.option (some (String.ofList value)) (some (.inl s))
  | some (.inl s), c :: value => d.option (some (String.ofList (c :: value))) (some (.inl s))
  | found, _ => d.option none found

/-- The draft after one more argument. -/
def step (level : Level) (d : Draft) (arg : String) : Except UsageError Draft :=
  if d.trailing then d.plain level arg
  else match arg.toList with
    | ['-', '-'] => .ok { d with trailing := true }
    | '-' :: '-' :: cs => d.long level cs
    | '-' :: letter :: cs => d.short level letter cs
    | _ =>
      match d.pending with
      | some (s, none) => .ok { d with pending := some (s, some arg) }
      | _ => d.plain level arg

/-- The draft with what the environment sets and the command line does not. -/
def fill (env : Environment) (level : Level) (d : Draft) : Except UsageError Draft :=
  level.settings.foldlM (fun d s =>
    match s.envName?.bind env.lookup with
    | some value => if d.has s then .ok d else d.set s value
    | none => .ok d) d

end Draft

/-- Each override from the first of the two that has it. -/
def Overrides.or (a b : Overrides) : Overrides where
  brokerUrl := a.brokerUrl.or b.brokerUrl
  timeoutSecs := a.timeoutSecs.or b.timeoutSecs
  config := a.config.or b.config
  timeZone := a.timeZone.or b.timeZone

namespace CommandLine

/-- The arguments of `help` name a command at most. -/
def readHelp : List String → UsageError
  | [] => .helpWanted
  | [name] => if name = "help" ∨ (Level.ofCommand? name).isSome then .helpWanted else .unknownCommand
  | _ => .unknownCommand

/-- Reads the arguments in front of the command; gives the command and the arguments after it. -/
def readTop (d : Draft) : List String → Except UsageError (Draft × Option (Level × List String))
  | [] => .ok (d, none)
  | arg :: rest =>
    if d.trailing || d.awaitsValue then do readTop (← d.step .top arg) rest
    else if arg = "help" then .error (readHelp rest)
    else match Level.ofCommand? arg with
      | some level => .ok (d, some (level, rest))
      | none => do readTop (← d.step .top arg) rest

/-- Reads the arguments after the command: the draft as written, and with the environment. -/
def readCommand (env : Environment) (level : Level) (args : List String) :
    Except UsageError (Draft × Draft) := do
  let d ← args.foldlM (Draft.step level) {}
  let written ← d.settle
  let filled ← written.fill env level
  if level.hasSource ∧ filled.source = none then .error .missingSource
  else return (written, filled)

/-- The command of a level. -/
def commandOf (level : Level) (d : Draft) : Command :=
  let source := d.source.getD ""
  match level with
  | .describe => .describe source
  | .query => .query { d.args with source := source }
  | _ => .dataSources

/-- The command line that the arguments after the program's name write. -/
def parse (env : Environment) (args : List String) : Except UsageError CommandLine := do
  let (top, chosen) ← readTop {} args
  match chosen with
  | none =>
    let filled ← (← top.settle).fill env .top
    .error (if filled.overrides = {} then .nothingAsked else .missingCommand)
  | some (level, rest) =>
    let (written, filled) ← readCommand env level rest
    let top ← (← top.settle).fill env .top
    return ⟨written.overrides.or top.overrides, commandOf level filled⟩

end CommandLine
end BrokerQuery
