import BrokerQuery.Json.Numeral
/-
  JSON documents as written, before anything is decoded.

  Reading has two stages.  The first checks the grammar and builds a `Written` tree; the second
  (`Json.Reader`) gives values to its strings and numbers.  They are apart because a reader that
  skips a field must still check its grammar but not its values.

  The first stage is a machine that takes one character at a time (`Scan.step`): a stack holds the
  arrays and objects that are open, and a mode says what may come next.  It needs no look-ahead
  and no recursion, so any depth can be read, and its run over a text is a fold.  A word (a number
  or a name) ends at the first character that can follow it, and is judged there.
-/

namespace BrokerQuery.Json

/-- A part of a string as written: a character, escaped or not, or a `\u` code unit. -/
inductive Piece
  | char (c : Char)
  | unit (u : Nat)
deriving DecidableEq

/-- A document as written; repeated fields are still there. -/
inductive Written
  | null
  | bool (b : Bool)
  | number (n : Numeral)
  | string (pieces : List Piece)
  | array (items : List Written)
  | object (fields : List (List Piece × Written))

/-- The space that may stand between the parts of a document. -/
def isSpace (c : Char) : Bool := c == ' ' || c == '\n' || c == '\t' || c == '\r'

/-- Reads a word: one of the three names, or a number. -/
def Written.ofWord? (cs : List Char) : Option Written :=
  if cs = ['n', 'u', 'l', 'l'] then some .null
  else if cs = ['t', 'r', 'u', 'e'] then some (.bool true)
  else if cs = ['f', 'a', 'l', 's', 'e'] then some (.bool false)
  else (Numeral.ofWord? cs).map .number

/-- An array or object that is still open, its parts so far with the last one first. -/
inductive Frame
  | array (items : List Written)
  /-- `key` is the name of the field whose value is being read. -/
  | object (fields : List (List Piece × Written)) (key : List Piece)

/-- What may come next. -/
inductive Mode
  /-- A value; `closable` right after an opening bracket. -/
  | value (closable : Bool)
  /-- The name of a field; `closable` right after an opening brace. -/
  | key (closable : Bool)
  /-- The colon after a name. -/
  | colon
  /-- A comma or a closing bracket. -/
  | next
  /-- The document is complete. -/
  | done (v : Written)
  /-- More of a word; the characters so far, the last one first. -/
  | word (rev : List Char)
  /-- More of a string; its pieces so far, the last one first. -/
  | text (isKey : Bool) (rev : List Piece)
  /-- The character after a backslash. -/
  | escape (isKey : Bool) (rev : List Piece)
  /-- `owed` more digits of a code unit that is `u` so far. -/
  | unit (isKey : Bool) (rev : List Piece) (owed u : Nat)

/-- A document read in part. -/
structure Scan where
  stack : List Frame
  mode : Mode

namespace Scan

/-- Nothing is read yet. -/
def start : Scan := ⟨[], .value false⟩

/-- A value is complete: it goes into the innermost open array or object. -/
def deliver (v : Written) : List Frame → Scan
  | [] => ⟨[], .done v⟩
  | .array items :: st => ⟨.array (v :: items) :: st, .next⟩
  | .object fields key :: st => ⟨.object ((key, v) :: fields) [] :: st, .next⟩

/-- A string is complete: it is a value, or the name of a field. -/
def closeText (isKey : Bool) (pieces : List Piece) : List Frame → Option Scan
  | .object fields key :: st =>
    if isKey then some ⟨.object fields pieces :: st, .colon⟩
    else some (deliver (.string pieces) (.object fields key :: st))
  | st => if isKey then none else some (deliver (.string pieces) st)

/-- A character after a value. -/
def afterValue : List Frame → Char → Option Scan
  | st, c =>
    if isSpace c then some ⟨st, .next⟩
    else match st with
      | .array items :: rest =>
        if c = ',' then some ⟨st, .value false⟩
        else if c = ']' then some (deliver (.array items.reverse) rest)
        else none
      | .object fields _ :: rest =>
        if c = ',' then some ⟨st, .key false⟩
        else if c = '}' then some (deliver (.object fields.reverse) rest)
        else none
      | [] => none

/-- A character in front of a value. -/
def beforeValue (closable : Bool) (st : List Frame) (c : Char) : Option Scan :=
  if isSpace c then some ⟨st, .value closable⟩
  else if c = '"' then some ⟨st, .text false []⟩
  else if c = '[' then some ⟨.array [] :: st, .value true⟩
  else if c = '{' then some ⟨.object [] [] :: st, .key true⟩
  else if c = ']' then
    match closable, st with
    | true, .array items :: rest => some (deliver (.array items.reverse) rest)
    | _, _ => none
  else some ⟨st, .word [c]⟩

/-- A character in front of the name of a field. -/
def beforeKey (closable : Bool) (st : List Frame) (c : Char) : Option Scan :=
  if isSpace c then some ⟨st, .key closable⟩
  else if c = '"' then some ⟨st, .text true []⟩
  else if c = '}' then
    match closable, st with
    | true, .object fields _ :: rest => some (deliver (.object fields.reverse) rest)
    | _, _ => none
  else none

/-- Whether a character ends a word. -/
def endsWord (c : Char) : Bool := isSpace c || c == ',' || c == ']' || c == '}'

/-- The piece that a one-letter escape stands for. -/
def shortEscape? (c : Char) : Option Char :=
  if c = '"' ∨ c = '\\' ∨ c = '/' then some c
  else if c = 'b' then some '\x08'
  else if c = 'f' then some '\x0c'
  else if c = 'n' then some '\n'
  else if c = 'r' then some '\r'
  else if c = 't' then some '\t'
  else none

/-- The value of a digit of a code unit. -/
def hexValue? (c : Char) : Option Nat :=
  if '0' ≤ c ∧ c ≤ '9' then some (c.toNat - '0'.toNat)
  else if 'a' ≤ c ∧ c ≤ 'f' then some (c.toNat - 'a'.toNat + 10)
  else if 'A' ≤ c ∧ c ≤ 'F' then some (c.toNat - 'A'.toNat + 10)
  else none

/-- Reads one character. -/
def step (s : Scan) (c : Char) : Option Scan :=
  match s.mode with
  | .value closable => beforeValue closable s.stack c
  | .key closable => beforeKey closable s.stack c
  | .colon =>
    if isSpace c then some s else if c = ':' then some ⟨s.stack, .value false⟩ else none
  | .next => afterValue s.stack c
  | .done _ => if isSpace c then some s else none
  | .word rev =>
    if endsWord c then do
      let v ← Written.ofWord? rev.reverse
      let delivered := deliver v s.stack
      match delivered.mode with
      | .done _ => if isSpace c then some delivered else none
      | _ => afterValue delivered.stack c
    else some ⟨s.stack, .word (c :: rev)⟩
  | .text isKey rev =>
    if c = '"' then closeText isKey rev.reverse s.stack
    else if c = '\\' then some ⟨s.stack, .escape isKey rev⟩
    else if c.toNat < 0x20 then none
    else some ⟨s.stack, .text isKey (.char c :: rev)⟩
  | .escape isKey rev =>
    if c = 'u' then some ⟨s.stack, .unit isKey rev 4 0⟩
    else (shortEscape? c).map fun e => ⟨s.stack, .text isKey (.char e :: rev)⟩
  | .unit isKey rev owed u =>
    (hexValue? c).map fun d =>
      if owed ≤ 1 then ⟨s.stack, .text isKey (.unit (u * 16 + d) :: rev)⟩
      else ⟨s.stack, .unit isKey rev (owed - 1) (u * 16 + d)⟩

/-- The document, if the text may end here. -/
def finish (s : Scan) : Option Written :=
  match s.mode, s.stack with
  | .done v, _ => some v
  | .word rev, [] => Written.ofWord? rev.reverse
  | _, _ => none

end Scan

/-- The document that a text writes, if the grammar allows it. -/
def Written.ofChars? (cs : List Char) : Option Written :=
  (cs.foldlM Scan.step Scan.start).bind Scan.finish

end BrokerQuery.Json
