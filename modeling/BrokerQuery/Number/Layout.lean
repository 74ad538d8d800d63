import BrokerQuery.Number.Shortest
/-
  Two ways to write a floating-point number.

  Both write the digits of `Decimal.shortest`; a `Layout` says what is done with them: which
  exponents are written with the point in place and which as a power of ten, whether a whole
  number keeps `.0`, and how a tie between two shortest decimals goes.  `json` is the layout of
  numbers in documents, `label` that of numbers used as filter values.
-/

namespace BrokerQuery

/-- The choices of a way to write numbers. -/
structure Layout where
  /-- Whether a first digit of this exponent is written with the point in place. -/
  positional : Int → Bool
  /-- Whether a whole number ends in `.0`. -/
  keepsPoint : Bool
  tie : Tie

namespace Layout

/-- Numbers in documents: the point in place from `0.00001` to below `10 ^ 16`, then powers of
ten; whole numbers end in `.0`; a tie goes to the even digit. -/
def json : Layout := ⟨fun e => -5 ≤ e && e < 16, true, .even⟩

/-- Numbers as filter values: the point always in place, whole numbers without it; a tie goes
up. -/
def label : Layout := ⟨fun _ => true, false, .up⟩

/-- The digits with the point in place, filled up with zeros. -/
def writePositional (keepsPoint : Bool) (d : Decimal) : List Char :=
  if 0 ≤ d.exponent then
    let n := d.exponent.toNat + 1
    let whole := d.digits.take n
    let part := d.digits.drop n
    whole ++ List.replicate (n - whole.length) '0' ++
      (if part.isEmpty then (if keepsPoint then ['.', '0'] else []) else '.' :: part)
  else
    '0' :: '.' :: (List.replicate ((-d.exponent).toNat - 1) '0' ++ d.digits)

/-- One digit before the point and the power of ten after it, its sign always written. -/
def writeScientific (d : Decimal) : List Char :=
  d.digits.take 1 ++ (if d.digits.length ≤ 1 then [] else '.' :: d.digits.drop 1) ++
    ['e', if 0 ≤ d.exponent then '+' else '-'] ++ Nat.toDigits 10 d.exponent.natAbs

/-- A finite number. -/
def writeFinite (l : Layout) (x : Binary64) : List Char :=
  (if x.negative then ['-'] else []) ++
    if x.isZero then (if l.keepsPoint then ['0', '.', '0'] else ['0'])
    else
      let d := Decimal.shortest l.tie x.parts.1 x.parts.2
      if l.positional d.exponent then writePositional l.keepsPoint d else writeScientific d

/-- Any number; what is not finite has a name. -/
def write (l : Layout) (x : Binary64) : String :=
  if x.isNaN then "NaN"
  else if x.isFinite then String.ofList (l.writeFinite x)
  else if x.negative then "-inf" else "inf"

end Layout
end BrokerQuery
