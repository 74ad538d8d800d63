/-
  Whole numbers in decimal.
-/

namespace BrokerQuery.Whole

/-- A whole number: a minus sign if it is negative, then its digits without leading zeros. -/
def chars (n : Int) : List Char := (if n < 0 then ['-'] else []) ++ Nat.toDigits 10 n.natAbs

/-- The text of a whole number. -/
def text (n : Int) : String := String.ofList (chars n)

/-- A number with zeros in front up to a width; a longer one keeps all its digits. -/
def padded (width n : Nat) : List Char :=
  let ds := Nat.toDigits 10 n
  List.replicate (width - ds.length) '0' ++ ds

end BrokerQuery.Whole
