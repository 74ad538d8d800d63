/-
  Bytes read as UTF-8, bad ones replaced.

  A broker may answer with any bytes.  `decode` reads the well-formed sequences and puts one U+FFFD
  for each maximal run that starts like a character and breaks off, so reading never fails.  The
  table of `lead` is the syntax of well-formed sequences: how many bytes follow a first byte, and
  the narrower range that its second byte must lie in.
-/

namespace BrokerQuery.Text

/-- For the first byte of a longer character: how many bytes follow it, the bits it carries, and
the least and greatest value of the second byte. -/
def lead (b : Nat) : Option (Nat × Nat × Nat × Nat) :=
  if 0xC2 ≤ b ∧ b ≤ 0xDF then some (1, b - 0xC0, 0x80, 0xBF)
  else if b = 0xE0 then some (2, 0, 0xA0, 0xBF)
  else if b = 0xED then some (2, 0xD, 0x80, 0x9F)
  else if 0xE1 ≤ b ∧ b ≤ 0xEF then some (2, b - 0xE0, 0x80, 0xBF)
  else if b = 0xF0 then some (3, 0, 0x90, 0xBF)
  else if b = 0xF4 then some (3, 4, 0x80, 0x8F)
  else if 0xF1 ≤ b ∧ b ≤ 0xF3 then some (3, b - 0xF0, 0x80, 0xBF)
  else none

/-- Where the reader stands: between characters, or inside one that still owes `owed` bytes, has
`bits` so far, and whose next byte must lie in `lo … hi`. -/
inductive Utf8State
  | between
  | inside (owed bits lo hi : Nat)

/-- U+FFFD, which stands for bytes that are no character. -/
def replacement : Char := Char.ofNat 0xFFFD

/-- Reads one byte between two characters. -/
def Utf8State.start (b : Nat) : Utf8State × List Char :=
  if b < 0x80 then (.between, [Char.ofNat b])
  else match lead b with
    | some (owed, bits, lo, hi) => (.inside owed bits lo hi, [])
    | none => (.between, [replacement])

/-- Reads one byte; the characters are those that this byte completes. -/
def Utf8State.step : Utf8State → Nat → Utf8State × List Char
  | .between, b => Utf8State.start b
  | .inside owed bits lo hi, b =>
    if lo ≤ b ∧ b ≤ hi then
      let bits' := bits * 64 + (b - 0x80)
      if owed ≤ 1 then (.between, [Char.ofNat bits'])
      else (.inside (owed - 1) bits' 0x80 0xBF, [])
    else
      let (s, out) := Utf8State.start b
      (s, replacement :: out)

/-- Reads the bytes from a state; a character cut off by the end is replaced too. -/
def Utf8State.decode : Utf8State → List Nat → List Char
  | .between, [] => []
  | .inside .., [] => [replacement]
  | s, b :: bs =>
    let (s', out) := s.step b
    out ++ s'.decode bs

/-- The text of the bytes, U+FFFD for what is not UTF-8. -/
def decodeUtf8 (bytes : List Nat) : String := String.ofList (Utf8State.between.decode bytes)

/-- The bytes of one character. -/
def utf8Bytes (c : Char) : List Nat :=
  let n := c.toNat
  if n < 0x80 then [n]
  else if n < 0x800 then [0xC0 + n / 64, 0x80 + n % 64]
  else if n < 0x10000 then [0xE0 + n / 4096, 0x80 + n / 64 % 64, 0x80 + n % 64]
  else [0xF0 + n / 262144, 0x80 + n / 4096 % 64, 0x80 + n / 64 % 64, 0x80 + n % 64]

end BrokerQuery.Text
