import BrokerQuery.Environment.Basic
import BrokerQuery.Text.Blank
import BrokerQuery.Text.Letter
/-
  Files that set variables, one `NAME=value` a line.

  Reading has two stages.  The first joins lines whose quotes are still open (`Quoting`) and cuts
  comments off; the second reads a name and a value.  Text in single quotes is literal.  Elsewhere
  a backslash escapes and a dollar sign stands for the value of a variable, which may be one that
  the file has set before.

  A variable of the environment is never changed.  The first line that cannot be read ends the
  reading; what stands before it counts.
-/

namespace BrokerQuery.Environment

/-! ## Lines -/

/-- Where a reader of lines stands. -/
inductive Quoting
  | plain
  /-- After one blank. -/
  | blank
  | escape
  | double
  | doubleEscape
  | single
  | singleEscape
deriving DecidableEq

/-- What a character outside quotes opens. -/
def Quoting.opened (c : Char) : Quoting :=
  if c = '\\' then .escape
  else if c = '"' then .double
  else if c = '\'' then .single
  else .plain

/-- The state after one more character; `none` where a comment starts. -/
def Quoting.step : Quoting → Char → Option Quoting
  | .plain, c =>
    if Text.isBlank c && c != '\n' && c != '\r' then some .blank else some (Quoting.opened c)
  | .blank, c => if c = '#' then none else some (Quoting.opened c)
  | .escape, _ => some .plain
  | .double, c =>
    some (if c = '\\' then .doubleEscape else if c = '"' then .plain else .double)
  | .doubleEscape, _ => some .double
  | .single, c =>
    some (if c = '\\' then .singleEscape else if c = '\'' then .plain else .single)
  | .singleEscape, _ => some .single

/-- The text of a line up to its comment, and the state at its end if it has none. -/
def scanLine : Quoting → List Char → List Char × Option Quoting
  | q, [] => ([], some q)
  | q, c :: cs =>
    match q.step c with
    | none => ([], none)
    | some q' => let (kept, last) := scanLine q' cs; (c :: kept, last)

/-- The lines of a text, each with its line break. -/
def splitLines : List Char → List (List Char)
  | [] => []
  | c :: cs =>
    if c = '\n' then [c] :: splitLines cs
    else match splitLines cs with
      | [] => [[c]]
      | line :: lines => (c :: line) :: lines

/-- A line without its line break. -/
def dropBreak (cs : List Char) : List Char :=
  match cs.reverse with
  | '\n' :: '\r' :: rev => rev.reverse
  | '\n' :: rev => rev.reverse
  | _ => cs

/-- Joins lines whose quotes are open; `before` are the lines that the first one belongs to.
The last entry is `none` if the text ends inside quotes. -/
def joinLines (q : Quoting) (before : List Char) : List (List Char) → List (Option (List Char))
  | [] => if q = .plain then [] else [none]
  | line :: lines =>
    if (Text.trimStart (before ++ line)).head? = some '#' then joinLines .plain [] lines
    else match scanLine q line with
      | (kept, none) => some (before ++ kept) :: joinLines .plain [] lines
      | (_, some .plain) => some (dropBreak (before ++ line)) :: joinLines .plain [] lines
      | (_, some q') => joinLines q' (before ++ line) lines

/-! ## Values -/

/-- Where a reader of values stands; `quoted` inside double quotes. -/
inductive ValueState
  | text (quoted : Bool)
  | escape (quoted : Bool)
  | single
  /-- After a blank: only a comment may follow. -/
  | ended
  | comment
  /-- In the name of a variable, the last character first. -/
  | variable (quoted : Bool) (rev : List Char)
  /-- In the name of a variable between braces. -/
  | braced (quoted : Bool) (rev : List Char)

/-- The value of the variable that a name stands for, empty if there is none. -/
def expand (env : Environment) (rev : List Char) : List Char :=
  ((env.lookup (String.ofList rev.reverse)).getD "").toList

/-- A character outside names: the state after it and the text that it adds. -/
def ValueState.plain (quoted : Bool) (c : Char) : ValueState × List Char :=
  if c = '$' then (.variable quoted [], [])
  else if c = '\\' then (.escape quoted, [])
  else if c = '"' then (.text (!quoted), [])
  else if quoted then (.text true, [c])
  else if c = '\'' then (.single, [])
  else if c = ' ' ∨ c = '\t' then (.ended, [])
  else (.text false, [c])

/-- One more character of a value: the state after it and the text that it adds. -/
def ValueState.step (env : Environment) : ValueState → Char → Option (ValueState × List Char)
  | .text quoted, c => some (ValueState.plain quoted c)
  | .escape quoted, c =>
    if c = 'n' then some (.text quoted, ['\n'])
    else if c ∈ ['\\', '\'', '"', '$', ' '] then some (.text quoted, [c])
    else none
  | .single, c => some (if c = '\'' then (.text false, []) else (.single, [c]))
  | .ended, c =>
    if c = ' ' ∨ c = '\t' then some (.ended, [])
    else if c = '#' then some (.comment, [])
    else none
  | .comment, _ => some (.comment, [])
  | .variable quoted rev, c =>
    if Text.isLetterOrDigit c then some (.variable quoted (c :: rev), [])
    else if c = '\x7b' ∧ rev = [] then some (.braced quoted [], [])
    else if c = '$' then some (.variable quoted [], env.expand rev)
    else some (.text quoted, env.expand rev ++ [c])
  | .braced quoted rev, c =>
    if c = '\x7d' then some (.text quoted, env.expand rev)
    else some (.braced quoted (c :: rev), [])

/-- The text that the end of a value adds; `none` inside quotes or braces. -/
def ValueState.finish (env : Environment) : ValueState → Option (List Char)
  | .text false => some []
  | .escape false => some []
  | .ended => some []
  | .comment => some []
  | .variable false rev => some (env.expand rev)
  | _ => none

/-- Reads a value from a state. -/
def readValue (env : Environment) (s : ValueState) : List Char → Option (List Char)
  | [] => s.finish env
  | c :: cs => do
    let (s', out) ← s.step env c
    return out ++ (← readValue env s' cs)

/-! ## Definitions -/

/-- A name at the start of a text, and what follows it. -/
def readName (cs : List Char) : Option (List Char × List Char) :=
  match cs with
  | [] => none
  | c :: _ =>
    if c.isAlpha || c == '_' then
      let inName := fun c : Char => c.isAlphanum || c == '_' || c == '.'
      some (cs.takeWhile inName, cs.dropWhile inName)
    else none

/-- What follows the equals sign of a definition. -/
def readEquals : List Char → Option (List Char)
  | '=' :: cs => some cs
  | _ => none

/-- The name that a line defines, and what follows the equals sign.  The word `export` may come
first, and may be a name too. -/
def readLeft (cs : List Char) : Option (List Char × List Char) := do
  let (name, rest) ← readName cs
  let rest := Text.trimStart rest
  match readEquals rest with
  | some value => return (name, value)
  | none =>
    if name = "export".toList then
      let (name, rest) ← readName rest
      return (name, ← readEquals (Text.trimStart rest))
    else none

/-- The environment after one line; `none` if it cannot be read. -/
def addLine (env : Environment) (line : List Char) : Option Environment :=
  let cs := Text.trimChars line
  if cs = [] ∨ cs.head? = some '#' then some env
  else do
    let (name, right) ← readLeft cs
    let right := Text.trimStart right
    let value ← if right.head? = some '#' then some [] else readValue env (.text false) right
    return env.define (String.ofList name) (String.ofList value)

/-- The environment after some lines, up to the first that cannot be read. -/
def addLines (env : Environment) : List (Option (List Char)) → Environment
  | some line :: lines =>
    match env.addLine line with
    | some env' => env'.addLines lines
    | none => env
  | _ => env

/-- The environment with what a file sets; a byte order mark at its start does not count. -/
def addFile (env : Environment) (text : String) : Environment :=
  let cs := match text.toList with
    | c :: cs => if c.toNat = 0xFEFF then cs else c :: cs
    | [] => []
  env.addLines (joinLines .plain [] (splitLines cs))

end BrokerQuery.Environment
