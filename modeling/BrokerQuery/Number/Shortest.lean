import BrokerQuery.Number.Binary64
/-
  The shortest decimal that reads back.

  A finite number owns the interval of reals that round to it; the ends belong to it when its
  significand is even.  `shortest` writes the number with the fewest decimal digits that name a
  point of that interval, and among those the nearest:

    1. `rounding` gives the number and the two ends of its interval in a common unit;
    2. for 1, 2, … 17 digits, the two grid points around the number are tried (`candidate?`); if
       any point of the grid lies in the interval, so does one of these two;
    3. of two points that both lie in it the nearer is taken, and `Tie` settles an exact tie.

  Everything is compared by cross multiplication of natural numbers.
-/

namespace BrokerQuery

/-- Which of two equally near decimals is written. -/
inductive Tie
  /-- The one whose last digit is even. -/
  | even
  /-- The larger one. -/
  | up

/-- A positive decimal: `d₁.d₂d₃… × 10 ^ exponent` for the digits `d₁ d₂ d₃ …`. -/
structure Decimal where
  digits : List Char
  exponent : Int
deriving DecidableEq

namespace Decimal

/-- The exponent `x` with `10 ^ x ≤ num / den < 10 ^ (x + 1)`, for a fraction below one: the
number of places up to its first digit that is not zero. -/
def placesBelowOne (num den : Nat) : Nat → Nat
  | 0 => 0
  | fuel + 1 => if den ≤ num * 10 then 1 else placesBelowOne (num * 10) den fuel + 1

/-- The exponent of the first digit of a positive fraction. -/
def leadingExponent (num den : Nat) : Int :=
  if den ≤ num then (Nat.toDigits 10 (num / den)).length - 1
  else -(placesBelowOne num den 400 : Int)

/-- A positive number and the ends of its rounding interval, all in units of `num / den`. -/
structure Rounding where
  low : Nat
  value : Nat
  high : Nat
  num : Nat
  den : Nat
  /-- Whether the ends round to the number. -/
  closed : Bool

/-- The rounding interval of `m * 2 ^ e`, in quarters of `2 ^ e`.  Below a power of two the
neighbours stand half as far apart. -/
def rounding (m : Nat) (e : Int) : Rounding where
  low := if m = Nat.pow 2 52 ∧ -1074 < e then 4 * m - 1 else 4 * m - 2
  value := 4 * m
  high := 4 * m + 2
  num := (Binary64.inUnits 1 1 (2 - e)).1
  den := (Binary64.inUnits 1 1 (2 - e)).2
  closed := m % 2 == 0

/-- The point of the grid of multiples of `10 ^ k` that stands for the number, if one does. -/
def candidate? (tie : Tie) (r : Rounding) (k : Int) : Option Nat :=
  let a := if 0 ≤ k then r.den * Nat.pow 10 k.toNat else r.den
  let b := if 0 ≤ k then r.num else r.num * Nat.pow 10 (-k).toNat
  let within (c : Nat) : Bool :=
    if r.closed then r.low * b ≤ c * a && c * a ≤ r.high * b
    else r.low * b < c * a && c * a < r.high * b
  let below := r.value * b / a
  let gap := r.value * b - below * a
  match within below, within (below + 1) with
  | true, false => some below
  | false, true => some (below + 1)
  | false, false => none
  | true, true =>
    if 2 * gap < a then some below
    else if a < 2 * gap then some (below + 1)
    else match tie with
      | .even => some (if below % 2 = 0 then below else below + 1)
      | .up => some (below + 1)

/-- The digits of `c * 10 ^ k` without the zeros at their end, and their exponent. -/
def ofGrid (c : Nat) (k : Int) : Decimal :=
  let ds := Nat.toDigits 10 c
  ⟨(ds.reverse.dropWhile (· == '0')).reverse, k + ds.length - 1⟩

/-- The first grid that has a point in the interval, from `n` digits up. -/
def search (tie : Tie) (r : Rounding) (lead : Int) (n : Nat) : Nat → Decimal
  | 0 => ofGrid (r.value * r.num / r.den) 0
  | fuel + 1 =>
    let k := lead - n + 1
    match candidate? tie r k with
    | some c => ofGrid c k
    | none => search tie r lead (n + 1) fuel

/-- The fewest digits that read back as `m * 2 ^ e`, the nearest of them. -/
def shortest (tie : Tie) (m : Nat) (e : Int) : Decimal :=
  let r := rounding m e
  search tie r (leadingExponent (r.value * r.num) r.den) 1 17

end Decimal
end BrokerQuery
