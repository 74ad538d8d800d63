import BrokerQuery.Calendar.Date
import BrokerQuery.Number.Whole
/-
  Moments: points in time seen at a distance from UTC.

  A moment counts seconds since 1970-01-01T00:00:00Z.  It is written as local date and time with
  whole seconds and with its offset to the minute:

    1. a leap second is the second before it with a full second of nanoseconds, and is written
       as second 60;
    2. years outside 0 … 9999 have a sign and at least four digits;
    3. the offset is rounded to the nearest minute, half a minute away from zero; the local time
       is not.
-/

namespace BrokerQuery

/-- A point in time seen at an offset from UTC. -/
structure Moment where
  /-- Seconds since 1970-01-01T00:00:00Z, leap seconds not counted. -/
  seconds : Int
  /-- Nanoseconds into the second; from `10 ^ 9` on it is the leap second after it. -/
  nanos : Nat := 0
  /-- Seconds east of UTC. -/
  offset : Int := 0
deriving DecidableEq

/-- A time of day; second 60 is a leap second. -/
structure TimeOfDay where
  hour : Nat
  minute : Nat
  second : Nat
deriving DecidableEq

namespace Moment

/-- The nanoseconds of a second. -/
def fullSecond : Nat := 1000000000

/-- Whether the moment lies in a leap second. -/
def isLeap (m : Moment) : Bool := fullSecond ≤ m.nanos

/-- The moment of a local date and time at an offset. -/
def ofLocal (d : Date) (t : TimeOfDay) (offset : Int) : Moment where
  seconds := d.dayNumber * 86400 + (t.hour * 3600 + t.minute * 60 + min t.second 59 : Nat) - offset
  nanos := if t.second = 60 then fullSecond else 0
  offset := offset

/-- Midnight of a day in UTC. -/
def midnight (d : Date) : Moment := ofLocal d ⟨0, 0, 0⟩ 0

/-- The moment some nanoseconds further into its second. -/
def plusNanos (m : Moment) (n : Nat) : Moment := { m with nanos := m.nanos + n }

/-- The seconds that the local clock has counted since 1970. -/
def localSeconds (m : Moment) : Int := m.seconds + m.offset

/-- The local date. -/
def date (m : Moment) : Date := .ofDayNumber (m.localSeconds / 86400)

/-- The local time of day. -/
def timeOfDay (m : Moment) : TimeOfDay :=
  let s := (m.localSeconds % 86400).toNat
  ⟨s / 3600, s / 60 % 60, s % 60 + if m.isLeap then 1 else 0⟩

/-! ## Writing -/

/-- A year: four digits, or a sign and at least four. -/
def yearChars (year : Int) : List Char :=
  if 0 ≤ year ∧ year ≤ 9999 then Whole.padded 4 year.toNat
  else (if year < 0 then '-' else '+') :: Whole.padded 4 year.natAbs

/-- A date. -/
def dateChars (d : Date) : List Char :=
  yearChars d.year ++ '-' :: (Whole.padded 2 d.month ++ '-' :: Whole.padded 2 d.day)

/-- A time of day. -/
def timeChars (t : TimeOfDay) : List Char :=
  Whole.padded 2 t.hour ++ ':' :: (Whole.padded 2 t.minute ++ ':' :: Whole.padded 2 t.second)

/-- An offset to the nearest minute. -/
def offsetChars (offset : Int) : List Char :=
  let minutes := (offset.natAbs + 30) / 60
  (if offset < 0 then '-' else '+') ::
    (Whole.padded 2 (minutes / 60) ++ ':' :: Whole.padded 2 (minutes % 60))

/-- Local date and time with the offset, as in `2013-04-04T10:30:00+02:00`. -/
def chars (m : Moment) : List Char :=
  dateChars m.date ++ 'T' :: (timeChars m.timeOfDay ++ offsetChars m.offset)

/-- Local date and time with the offset. -/
def text (m : Moment) : String := String.ofList m.chars

/-! ## Moving -/

/-- The greatest number of seconds that a moment can be moved by. -/
def maxSeconds : Int := 9223372036854775

/-- The first second of the first year and the last second of the last, in UTC. -/
def firstSecond : Int := (midnight ⟨Date.firstYear, 1, 1⟩).seconds

def lastSecond : Int := (ofLocal ⟨Date.lastYear, 12, 31⟩ ⟨23, 59, 59⟩ 0).seconds

/-- The moment some seconds later.  A leap second is counted: what leaves it forwards starts from the
second before it, and what leaves it backwards from the second after it. -/
def plusSeconds (m : Moment) (n : Int) : Moment :=
  if m.isLeap ∧ n ≠ 0 then
    { m with seconds := m.seconds + n + (if n < 0 then 1 else 0), nanos := m.nanos - fullSecond }
  else { m with seconds := m.seconds + n }

/-- The moment some seconds later, unless that leaves the calendar. -/
def addSeconds? (m : Moment) (n : Int) : Option Moment :=
  let later := m.plusSeconds n
  if -maxSeconds ≤ n ∧ n ≤ maxSeconds ∧
      firstSecond ≤ later.seconds ∧ later.seconds ≤ lastSecond then some later
  else none

example : addSeconds? ⟨59, 1500000000, 0⟩ 1 = some ⟨60, 500000000, 0⟩ := by decide
example : addSeconds? ⟨59, 1500000000, 0⟩ (-1) = some ⟨59, 500000000, 0⟩ := by decide

end Moment
end BrokerQuery
