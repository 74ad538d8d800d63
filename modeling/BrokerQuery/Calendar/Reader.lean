import BrokerQuery.Calendar.Moment
import BrokerQuery.Number.Numeral
import BrokerQuery.Text.Blank
/-
  Moments read from text.

  Four formats are known (`Format`).  The first is strict: fixed widths, a mandatory offset, an
  optional fraction of a second.  The other three are lenient and mean UTC: blanks may stand
  before any number, years have up to four digits or a sign and any number of digits, other numbers
  one or two digits, and the blank of a format matches any blanks, also none.  In each of them
  nothing may follow, and the numbers must name a day and a time of day.
-/

namespace BrokerQuery

namespace Scanner

/-- Reads one given character. -/
def char (c : Char) : List Char → Option (List Char)
  | [] => none
  | d :: cs => if d = c then some cs else none

/-- Reads exactly `n` digits. -/
def fixed (n : Nat) (cs : List Char) : Option (Nat × List Char) :=
  let ds := cs.take n
  if ds.length = n ∧ ds.all Char.isDigit then some (Numeral.value ds, cs.drop n) else none

/-- Reads at least one and at most `most` digits, as many as there are. -/
def digits (most : Nat) (cs : List Char) : Option (Nat × List Char) :=
  let ds := (cs.take most).takeWhile Char.isDigit
  if ds.isEmpty then none else some (Numeral.value ds, cs.drop ds.length)

/-- Reads a number of one or two digits, after any blanks. -/
def number (cs : List Char) : Option (Nat × List Char) := digits 2 (Text.trimStart cs)

/-- Reads a year after any blanks: up to four digits, or a sign and any number of digits. -/
def year (cs : List Char) : Option (Int × List Char) :=
  match Text.trimStart cs with
  | '-' :: rest => (digits rest.length rest).map fun (n, r) => (-(n : Int), r)
  | '+' :: rest => (digits rest.length rest).map fun (n, r) => ((n : Int), r)
  | rest => (digits 4 rest).map fun (n, r) => ((n : Int), r)

/-- Reads a date in the lenient way. -/
def date (cs : List Char) : Option (Date × List Char) := do
  let (y, cs) ← year cs
  let cs ← char '-' cs
  let (m, cs) ← number cs
  let cs ← char '-' cs
  let (d, cs) ← number cs
  return (⟨y, m, d⟩, cs)

/-- Reads a time of day in the lenient way. -/
def time (cs : List Char) : Option (TimeOfDay × List Char) := do
  let (h, cs) ← number cs
  let cs ← char ':' cs
  let (m, cs) ← number cs
  let cs ← char ':' cs
  let (s, cs) ← number cs
  return (⟨h, m, s⟩, cs)

/-- Reads a date in fixed widths. -/
def fixedDate (cs : List Char) : Option (Date × List Char) := do
  let (y, cs) ← fixed 4 cs
  let cs ← char '-' cs
  let (m, cs) ← fixed 2 cs
  let cs ← char '-' cs
  let (d, cs) ← fixed 2 cs
  return (⟨y, m, d⟩, cs)

/-- Reads a time of day in fixed widths. -/
def fixedTime (cs : List Char) : Option (TimeOfDay × List Char) := do
  let (h, cs) ← fixed 2 cs
  let cs ← char ':' cs
  let (m, cs) ← fixed 2 cs
  let cs ← char ':' cs
  let (s, cs) ← fixed 2 cs
  return (⟨h, m, s⟩, cs)

/-- Reads the mark between date and time: `T` in either case, or a space. -/
def mark : List Char → Option (List Char)
  | c :: cs => if c = 'T' ∨ c = 't' ∨ c = ' ' then some cs else none
  | [] => none

/-- Reads a fraction of a second, if there is one, as nanoseconds: a point and at least one digit.
Digits after the ninth do not count. -/
def fraction : List Char → Option (Nat × List Char)
  | '.' :: cs =>
    let ds := cs.takeWhile Char.isDigit
    if ds.isEmpty then none
    else some (Numeral.value ((ds ++ List.replicate 9 '0').take 9), cs.drop ds.length)
  | cs => some (0, cs)

/-- The sign of an offset; the minus sign proper is a minus too. -/
def offsetSign : Char → Option Int
  | '+' => some 1
  | '-' => some (-1)
  | c => if c = Char.ofNat 0x2212 then some (-1) else none

/-- Reads an offset: `Z` in either case, or a sign, two digits, a colon and two digits. -/
def offset : List Char → Option (Int × List Char)
  | [] => none
  | c :: cs =>
    if c = 'Z' ∨ c = 'z' then some (0, cs)
    else do
      let sign ← offsetSign c
      let (h, cs) ← fixed 2 cs
      let cs ← char ':' cs
      let (m, cs) ← fixed 2 cs
      if h < 24 ∧ m < 60 then return (sign * ((h * 3600 + m * 60 : Nat) : Int), cs) else none

end Scanner

/-- Whether the numbers name a time of day; second 60 may be in any minute. -/
def TimeOfDay.isValid (t : TimeOfDay) : Bool := t.hour < 24 && t.minute < 60 && t.second ≤ 60

/-- The moment of a date and time that name a day and a time of day. -/
def Moment.ofLocal? (d : Date) (t : TimeOfDay) (offset : Int) : Option Moment :=
  if d.isValid && t.isValid then some (.ofLocal d t offset) else none

/-- The ways to write a moment. -/
inductive Format
  /-- `2013-04-04T10:30:00.25+02:00` -/
  | offsetDateTime
  /-- `2013-04-04T10:30:00` -/
  | dateTimeMark
  /-- `2013-04-04 10:30:00` -/
  | dateTimeBlank
  /-- `2013-04-04` -/
  | dateOnly
deriving DecidableEq

namespace Format

/-- The formats in the order in which they are tried. -/
def all : List Format := [.offsetDateTime, .dateTimeMark, .dateTimeBlank, .dateOnly]

/-- The moment that a text writes in this format, if nothing is left over. -/
def read? : Format → List Char → Option Moment
  | .offsetDateTime, cs => do
    let (d, cs) ← Scanner.fixedDate cs
    let cs ← Scanner.mark cs
    let (t, cs) ← Scanner.fixedTime cs
    let (nanos, cs) ← Scanner.fraction cs
    let (offset, cs) ← Scanner.offset cs
    if cs.isEmpty then (Moment.ofLocal? d t offset).map (·.plusNanos nanos) else none
  | .dateTimeMark, cs => do
    let (d, cs) ← Scanner.date cs
    let cs ← Scanner.char 'T' cs
    let (t, cs) ← Scanner.time cs
    if cs.isEmpty then Moment.ofLocal? d t 0 else none
  | .dateTimeBlank, cs => do
    let (d, cs) ← Scanner.date cs
    let (t, cs) ← Scanner.time (Text.trimStart cs)
    if cs.isEmpty then Moment.ofLocal? d t 0 else none
  | .dateOnly, cs => do
    let (d, cs) ← Scanner.date cs
    if cs.isEmpty then Moment.ofLocal? d ⟨0, 0, 0⟩ 0 else none

end Format

/-- The moment that a text writes in the first format that accepts it, blanks around it aside. -/
def Moment.ofText? (s : String) : Option Moment :=
  Format.all.findSome? (·.read? (Text.trimChars s.toList))

example : Moment.ofText? " 2013-4-04  1:30:00" = some ⟨1365039000, 0, 0⟩ := by decide +kernel
example : Moment.ofText? "2013-04-04T10:30:00.25-02:00" = some ⟨1365078600, 250000000, -7200⟩ := by
  decide +kernel
example : Moment.ofText? "2013-02-29" = none := by decide +kernel

end BrokerQuery
