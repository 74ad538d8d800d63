import BrokerQuery.Number.Numeral
/-
  Punycode: labels of a domain name in the letters of ASCII.

  A label is its ASCII characters, a hyphen, and the other characters as a sequence of numbers.  The
  decoder keeps a counter that runs over all places of the growing label and, after each round, over
  the next code point; a number says how far it runs before the next insertion.  Numbers are written
  in 36 digits with thresholds that adapt to the numbers before (`adapt`).
-/

namespace BrokerQuery.Url.Punycode

/-- The letter or figure of a digit. -/
def digitChar (d : Nat) : Char := Char.ofNat (if d < 26 then 0x61 + d else 0x30 + (d - 26))

/-- The digit of a letter or figure. -/
def digitValue? (c : Char) : Option Nat :=
  if c.isLower then some (c.toNat - 0x61)
  else if c.isUpper then some (c.toNat - 0x41)
  else if c.isDigit then some (c.toNat - 0x30 + 26)
  else none

/-- The threshold of the digit at position `k`. -/
def threshold (k bias : Nat) : Nat := max 1 (min 26 (k - bias))

/-- Divides a step until it is small, counting the rounds by 36. -/
def shrink (delta k : Nat) : Nat → Nat × Nat
  | 0 => (delta, k)
  | fuel + 1 => if 455 < delta then shrink (delta / 35) (k + 36) fuel else (delta, k)

/-- The bias after a step, for a label that has `count` characters now. -/
def adapt (delta count : Nat) (first : Bool) : Nat :=
  let d := if first then delta / 700 else delta / 2
  let (small, k) := shrink (d + d / count) 0 (d + d / count)
  k + 36 * small / (small + 38)

/-- The digits of a number. -/
def encodeNumber (bias : Nat) (k n : Nat) : Nat → List Char
  | 0 => []
  | fuel + 1 =>
    let t := threshold k bias
    if n < t then [digitChar n]
    else digitChar (t + (n - t) % (36 - t)) ::
      encodeNumber bias (k + 36) ((n - t) / (36 - t)) fuel

/-- A label written in part. -/
structure Writing where
  out : List Char
  delta : Nat
  bias : Nat
  /-- How many characters of the label are written. -/
  count : Nat

/-- Passes one character of the label in the round of code point `m`. -/
def Writing.pass (basics m : Nat) (w : Writing) (c : Char) : Writing :=
  if c.toNat < m then { w with delta := w.delta + 1 }
  else if c.toNat = m then
    ⟨w.out ++ encodeNumber w.bias 36 w.delta (w.delta + 1), 0,
      adapt w.delta (w.count + 1) (w.count = basics), w.count + 1⟩
  else w

/-- The rounds of the code points of a label, which are given in rising order. -/
def encodeRounds (label : List Char) (basics : Nat) : List Nat → Nat → Writing → Writing
  | [], _, w => w
  | m :: ms, n, w =>
    let w := label.foldl (Writing.pass basics m)
      { w with delta := w.delta + (m - n) * (w.count + 1) }
    encodeRounds label basics ms (m + 1) { w with delta := w.delta + 1 }

/-- A label in the letters of ASCII, without its mark. -/
def encode (label : List Char) : List Char :=
  let basics := label.filter (·.toNat < 0x80)
  let others := ((label.filter (0x80 ≤ ·.toNat)).map Char.toNat).mergeSort.eraseDups
  basics ++ (if basics.isEmpty then [] else ['-']) ++
    (encodeRounds label basics.length others 0x80 ⟨[], 0, 72, basics.length⟩).out

/-- Reads one number; the result is added to `i`. -/
def decodeNumber (bias : Nat) : List Char → Nat → Nat → Nat → Option (Nat × List Char)
  | [], _, _, _ => none
  | c :: cs, k, w, i => do
    let d ← digitValue? c
    let t := threshold k bias
    let i := i + d * w
    if d < t then return (i, cs) else decodeNumber bias cs (k + 36) (w * (36 - t)) i

/-- Inserts the characters that the numbers name. -/
def decodeRounds (cs : List Char) (n i bias : Nat) (out : List Char) : Nat → Option (List Char)
  | 0 => some out
  | fuel + 1 =>
    if cs.isEmpty then some out
    else do
      let (j, cs) ← decodeNumber bias cs 36 1 i
      let count := out.length + 1
      let n := n + j / count
      let place := j % count
      if (Char.ofNat n).toNat = n then
        decodeRounds cs n (place + 1) (adapt (j - i) count (i = 0))
          (out.take place ++ Char.ofNat n :: out.drop place) fuel
      else none

/-- The characters before the last hyphen, and those after it. -/
def splitLast (cs : List Char) : List Char × List Char :=
  if '-' ∈ cs then
    ((cs.reverse.dropWhile (· ≠ '-')).drop 1 |>.reverse, (cs.reverse.takeWhile (· ≠ '-')).reverse)
  else ([], cs)

/-- The label that letters of ASCII stand for, if they stand for one. -/
def decode? (cs : List Char) : Option (List Char) :=
  let (basics, numbers) := splitLast cs
  decodeRounds numbers 0x80 0 72 basics numbers.length

end BrokerQuery.Url.Punycode
