/-
  Blank space in text that people typed.

  Names, values and interval ends may arrive with space around them.  `isBlank` is the Unicode
  property White_Space, so a no-break space or an ideographic space counts and a zero-width space
  does not.  `trim` drops blanks on both sides and keeps those inside.

  The functions on `List Char` do the work; those on `String` are for callers that hold a string.
-/

namespace BrokerQuery.Text

/-- The Unicode property White_Space: the twenty-five characters that separate words. -/
def isBlank (c : Char) : Bool :=
  let n := c.toNat
  (0x09 ≤ n && n ≤ 0x0D) || n == 0x20 || n == 0x85 || n == 0xA0 || n == 0x1680 ||
    (0x2000 ≤ n && n ≤ 0x200A) || n == 0x2028 || n == 0x2029 || n == 0x202F || n == 0x205F ||
    n == 0x3000

/-- The text from its first character that is not blank. -/
def trimStart (cs : List Char) : List Char := cs.dropWhile isBlank

/-- The text up to its last character that is not blank. -/
def trimEnd (cs : List Char) : List Char := (cs.reverse.dropWhile isBlank).reverse

/-- The text without the blanks around it. -/
def trimChars (cs : List Char) : List Char := trimEnd (trimStart cs)

/-- The string without the blanks around it. -/
def trim (s : String) : String := String.ofList (trimChars s.toList)

end BrokerQuery.Text
