import BrokerQuery.Json.Basic
import BrokerQuery.Number.Numeral
/-
  Numbers of a JSON document.

  `Numeral.ofWord?` is the strict grammar: no plus sign, no leading zero, a digit on each side of
  the point, a digit in the power of ten.  `Numeral.value?` gives the value: whole numbers that fit
  64 bits (signed or unsigned) stay whole, everything else is a floating-point number.

  A floating-point numeral is valued in two roundings, not one: the leading digits that fit 64 bits
  make a whole number, that is rounded, and the result is scaled by a rounded power of ten.  A
  value beyond the range is refused, one too small is zero.
-/

namespace BrokerQuery.Json

/-- A number as written. -/
structure Numeral where
  negative : Bool
  whole : List Char
  /-- The digits after the point; none without a point. -/
  fraction : List Char
  /-- The power of ten, if one is written. -/
  exponent : Option Int
deriving DecidableEq

namespace Numeral

open BrokerQuery.Numeral (digit spanDigits sign)

/-- The power of ten at the end: nothing, or `e` with an optional sign and at least one digit. -/
def exponent? : List Char → Option (Option Int)
  | [] => some none
  | c :: cs => if c = 'e' ∨ c = 'E' then (BrokerQuery.Numeral.exponent? (c :: cs)).map some else none

/-- The digits after the point, at least one of them, and the rest. -/
def fraction? : List Char → Option (List Char × List Char)
  | '.' :: cs => let (ds, rest) := spanDigits cs; if ds.isEmpty then none else some (ds, rest)
  | cs => some ([], cs)

/-- Whether digits can stand before the point: zero alone, or no leading zero. -/
def isWhole (ds : List Char) : Bool := ds == ['0'] || (!ds.isEmpty && ds.head? != some '0')

/-- Reads a word as a number. -/
def ofWord? (cs : List Char) : Option Numeral :=
  let (negative, unsigned) := match cs with
    | '-' :: rest => (true, rest)
    | rest => (false, rest)
  let (whole, afterWhole) := spanDigits unsigned
  if isWhole whole then do
    let (fraction, rest) ← fraction? afterWhole
    let exponent ← exponent? rest
    return ⟨negative, whole, fraction, exponent⟩
  else none

/-- The greatest whole number of 64 bits. -/
def maxUnsigned : Nat := 0xFFFFFFFFFFFFFFFF

/-- Appends digits to a number while it fits 64 bits; also gives the digits left over. -/
def absorb (n : Nat) : List Char → Nat × List Char
  | [] => (n, [])
  | c :: cs => if n * 10 + digit c ≤ maxUnsigned then absorb (n * 10 + digit c) cs else (n, c :: cs)

/-- Multiplies by a power of ten, in steps of at most `10 ^ 308`; `none` beyond the range. -/
def scale? (x : Binary64) (e : Int) : Option Binary64 :=
  if x.isZero then some x
  else if 308 < e then none
  else if 0 ≤ e then
    let y := x.mul (.ofDecimal false 1 e)
    if y.isFinite then some y else none
  else if -308 ≤ e then some (x.div (.ofDecimal false 1 (-e)))
  else scale? (x.div (.ofDecimal false 1 308)) (e + 308)
termination_by (-e).toNat

/-- The value as a floating-point number. -/
def float? (n : Numeral) : Option Binary64 :=
  let (head, dropped) := absorb 0 n.whole
  let (digits, unused) := absorb head n.fraction
  let e : Int := dropped.length - (n.fraction.length - unused.length : Nat) + n.exponent.getD 0
  (scale? (.ofInt digits) e).map fun x => if n.negative then x.neg else x

/-- The value of a number as written; minus zero is a floating-point number. -/
def value? (n : Numeral) : Option Json :=
  let size := BrokerQuery.Numeral.value n.whole
  if n.fraction.isEmpty && n.exponent.isNone then
    if n.negative then
      if 0 < size ∧ size ≤ 0x8000000000000000 then some (.int (-size)) else n.float?.map .float
    else if size ≤ maxUnsigned then some (.int size) else n.float?.map .float
  else n.float?.map .float

end Numeral
end BrokerQuery.Json
