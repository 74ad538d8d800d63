/-
  Numbers with 53 significant bits, in exact arithmetic.

  Thresholds, constants and the decimals of an answer are 64-bit binary floating-point numbers.
  Here such a number is its bit pattern, and every operation is arithmetic on natural numbers:

    1. `parts` reads a finite pattern as `significand * 2 ^ exponent`;
    2. `ofRatio` rounds a fraction to the nearest pattern, a tie to the even significand;
    3. all other makers (`ofInt`, `ofDecimal`) and the two scalings are one rounding of an exact
       fraction.

  Nothing rests on machine floating point, so a closed computation can be checked by evaluation.
-/

namespace BrokerQuery

/-- A 64-bit binary floating-point number: sign, 11 exponent bits, 52 fraction bits. -/
structure Binary64 where
  bits : UInt64
deriving DecidableEq

namespace Binary64

/-! ## Reading a pattern -/

/-- Whether the sign bit is set; also of zero and of what is no number. -/
def negative (x : Binary64) : Bool := x.bits.toNat / Nat.pow 2 63 == 1

/-- The exponent field, 2047 for what is not finite. -/
def exponentField (x : Binary64) : Nat := x.bits.toNat / Nat.pow 2 52 % Nat.pow 2 11

/-- The fraction field. -/
def fractionField (x : Binary64) : Nat := x.bits.toNat % Nat.pow 2 52

/-- A number proper: neither infinite nor "not a number". -/
def isFinite (x : Binary64) : Bool := x.exponentField != 2047

/-- Neither finite nor infinite. -/
def isNaN (x : Binary64) : Bool := x.exponentField == 2047 && x.fractionField != 0

/-- Zero of either sign. -/
def isZero (x : Binary64) : Bool := x.exponentField == 0 && x.fractionField == 0

/-- Significand and exponent of a finite number: its size is `significand * 2 ^ exponent`. -/
def parts (x : Binary64) : Nat × Int :=
  if x.exponentField = 0 then (x.fractionField, -1074)
  else (Nat.pow 2 52 + x.fractionField, (x.exponentField : Int) - 1075)

/-! ## Making a pattern -/

/-- A pattern from its sign and the other 63 bits. -/
def pack (negative : Bool) (rest : Nat) : Binary64 :=
  ⟨UInt64.ofNat (rest + if negative then Nat.pow 2 63 else 0)⟩

/-- The other 63 bits of the infinities. -/
def infinityBits : Nat := 2047 * Nat.pow 2 52

def zero (negative : Bool) : Binary64 := pack negative 0

def infinity (negative : Bool) : Binary64 := pack negative infinityBits

def nan : Binary64 := pack false (infinityBits + Nat.pow 2 51)

/-- `num / den` in units of `2 ^ e`, as a fraction of natural numbers. -/
def inUnits (num den : Nat) (e : Int) : Nat × Nat :=
  if 0 ≤ e then (num, den * Nat.pow 2 e.toNat) else (num * Nat.pow 2 (-e).toNat, den)

/-- A fraction rounded to a whole number, a tie to the even one. -/
def roundEven (num den : Nat) : Nat :=
  let q := num / den
  let r := num % den
  if den < 2 * r ∨ (2 * r = den ∧ q % 2 = 1) then q + 1 else q

/-- The pattern nearest to `num / den`, a tie to the even significand; too large is infinite.

The unit is chosen so that the rounded significand has 53 bits, or is -1074 for the smallest
numbers.  A significand that rounds up to `2 ^ 53` carries into the exponent field by itself. -/
def ofRatio (negative : Bool) (num den : Nat) : Binary64 :=
  if num = 0 then zero negative
  else
    let least : Int := max ((num.log2 : Int) - den.log2 - 53) (-1074)
    let trial := inUnits num den least
    let e := if Nat.pow 2 53 ≤ trial.1 / trial.2 then least + 1 else least
    let exact := inUnits num den e
    let significand := roundEven exact.1 exact.2
    pack negative (min ((e + 1074).toNat * Nat.pow 2 52 + significand) infinityBits)

/-- The number nearest to a whole number. -/
def ofInt (n : Int) : Binary64 := ofRatio (n < 0) n.natAbs 1

/-- The number nearest to `digits * 10 ^ exponent`.  Sizes far outside the range are settled by
their number of digits, so no huge power is computed. -/
def ofDecimal (negative : Bool) (digits : Nat) (exponent : Int) : Binary64 :=
  let size : Int := (Nat.toDigits 10 digits).length + exponent
  if digits = 0 ∨ size < -400 then zero negative
  else if 400 < size then infinity negative
  else if 0 ≤ exponent then ofRatio negative (digits * Nat.pow 10 exponent.toNat) 1
  else ofRatio negative digits (Nat.pow 10 (-exponent).toNat)

/-! ## Scaling -/

/-- The size of a finite number as a fraction of natural numbers. -/
def ratio (x : Binary64) : Nat × Nat := inUnits x.parts.1 1 (-x.parts.2)

/-- The product of two finite numbers, rounded once. -/
def mul (x y : Binary64) : Binary64 :=
  ofRatio (x.negative != y.negative) (x.ratio.1 * y.ratio.1) (x.ratio.2 * y.ratio.2)

/-- The quotient of two finite numbers, the second not zero, rounded once. -/
def div (x y : Binary64) : Binary64 :=
  ofRatio (x.negative != y.negative) (x.ratio.1 * y.ratio.2) (x.ratio.2 * y.ratio.1)

/-- The number with its sign turned. -/
def neg (x : Binary64) : Binary64 := ⟨x.bits ^^^ UInt64.ofNat (Nat.pow 2 63)⟩

example : ofInt 1 = ⟨0x3FF0000000000000⟩ := by decide +kernel
example : ofDecimal false 1 (-1) = ⟨0x3FB999999999999A⟩ := by decide +kernel
example : ofDecimal true 5 (-324) = ⟨0x8000000000000001⟩ := by decide +kernel
example : ofDecimal false 17976931348623157 292 = ⟨0x7FEFFFFFFFFFFFFF⟩ := by decide +kernel
example : ofDecimal false 1 400 = infinity false := by decide +kernel
example : ofInt 9007199254740993 = ofInt 9007199254740992 := by decide +kernel

end Binary64
end BrokerQuery
