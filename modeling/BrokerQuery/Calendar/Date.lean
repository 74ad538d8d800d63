/-
  Days of the Gregorian calendar, extended to all years.

  A date and a day number (days since 1970-01-01) say the same thing:

    1. `dayNumber` counts the days of the years before, of the months before and of the month;
    2. `ofDayNumber` finds the year by a guess that is off by at most one, then the month by
       walking through the lengths of the months.

  Years before 1 are counted 0, -1, and so on.
-/

namespace BrokerQuery

/-- A day of the calendar. -/
structure Date where
  year : Int
  month : Nat
  day : Nat
deriving DecidableEq

namespace Date

/-- Every fourth year is a leap year, of the full centuries only every fourth one. -/
def isLeapYear (year : Int) : Bool := year % 4 == 0 && (year % 100 != 0 || year % 400 == 0)

/-- The lengths of the twelve months of a year. -/
def monthLengths (leap : Bool) : List Nat :=
  [31, if leap then 29 else 28, 31, 30, 31, 30, 31, 31, 30, 31, 30, 31]

/-- The years that dates may lie in. -/
def firstYear : Int := -262143

def lastYear : Int := 262142

/-- Whether year, month and day name a day. -/
def isValid (d : Date) : Bool :=
  firstYear ≤ d.year && d.year ≤ lastYear && 1 ≤ d.month && 1 ≤ d.day &&
    match (monthLengths (isLeapYear d.year))[d.month - 1]? with
    | some length => d.day ≤ length
    | none => false

/-- The days from 0001-01-01 to the first day of a year. -/
def daysBeforeYear (year : Int) : Int :=
  let y := year - 1
  365 * y + y / 4 - y / 100 + y / 400

/-- The days from 0001-01-01 to 1970-01-01. -/
def unixEpoch : Int := 719162

/-- Days since 1970-01-01. -/
def dayNumber (d : Date) : Int :=
  daysBeforeYear d.year + ((monthLengths (isLeapYear d.year)).take (d.month - 1)).foldl Nat.add 0 +
    (d.day - 1) - unixEpoch

/-- The year of a day counted from 0001-01-01. -/
def yearOf (days : Int) : Int :=
  let guess := 400 * days / 146097 + 1
  if daysBeforeYear (guess + 1) ≤ days then guess + 1
  else if days < daysBeforeYear guess then guess - 1
  else guess

/-- Month and day of a day of the year, by the lengths of the months from the first one on. -/
def monthDay : List Nat → Nat → Nat × Nat
  | [], d => (1, d + 1)
  | length :: lengths, d =>
    if d < length then (1, d + 1)
    else
      let (m, day) := monthDay lengths (d - length)
      (m + 1, day)

/-- The date of a day number. -/
def ofDayNumber (n : Int) : Date :=
  let days := n + unixEpoch
  let year := yearOf days
  let (month, day) := monthDay (monthLengths (isLeapYear year)) (days - daysBeforeYear year).toNat
  ⟨year, month, day⟩

example : dayNumber ⟨1970, 1, 1⟩ = 0 := by decide
example : dayNumber ⟨2000, 3, 1⟩ = 11017 := by decide
example : ofDayNumber 11016 = ⟨2000, 2, 29⟩ := by decide
example : ofDayNumber (-719529) = ⟨-1, 12, 31⟩ := by decide

end Date
end BrokerQuery
