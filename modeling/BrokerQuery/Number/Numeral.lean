import BrokerQuery.Number.Binary64
/-
  Decimal numerals read as floating-point numbers.

  `readNumber` takes what people write for a threshold: an optional sign, digits with or without a
  point, an optional power of ten, or one of the names `inf`, `infinity`, `nan` in any case.  The
  value is the nearest number, a tie to the even significand, whatever the number of digits.
-/

namespace BrokerQuery.Numeral

/-- The value of a digit. -/
def digit (c : Char) : Nat := c.toNat - '0'.toNat

/-- The value of a run of digits. -/
def value (ds : List Char) : Nat := ds.foldl (fun n c => n * 10 + digit c) 0

/-- The leading digits and what follows them. -/
def spanDigits (cs : List Char) : List Char × List Char :=
  (cs.takeWhile Char.isDigit, cs.dropWhile Char.isDigit)

/-- An optional sign: whether it is a minus, and the rest. -/
def sign : List Char → Bool × List Char
  | '-' :: cs => (true, cs)
  | '+' :: cs => (false, cs)
  | cs => (false, cs)

/-- The power of ten at the end of a numeral: nothing, or `e` and a whole number. -/
def exponent? : List Char → Option Int
  | [] => some 0
  | c :: cs =>
    if c = 'e' ∨ c = 'E' then
      let (minus, ds) := sign cs
      if ds.isEmpty || !ds.all Char.isDigit then none
      else some (if minus then -(value ds : Int) else value ds)
    else none

/-- A numeral without its sign; at least one digit is needed before the power of ten. -/
def unsigned? (negative : Bool) (cs : List Char) : Option Binary64 :=
  let (whole, afterWhole) := spanDigits cs
  let (fraction, rest) := match afterWhole with
    | '.' :: more => spanDigits more
    | more => ([], more)
  if whole.isEmpty && fraction.isEmpty then none
  else (exponent? rest).map fun e =>
    Binary64.ofDecimal negative (value (whole ++ fraction)) (e - fraction.length)

/-- The number that a text names, if it is a numeral. -/
def readNumber? (s : String) : Option Binary64 :=
  let (negative, cs) := sign s.toList
  let name := cs.map Char.toLower
  if name = "inf".toList ∨ name = "infinity".toList then some (.infinity negative)
  else if name = "nan".toList then some (if negative then Binary64.nan.neg else .nan)
  else unsigned? negative cs

end BrokerQuery.Numeral
