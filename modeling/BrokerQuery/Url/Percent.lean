import BrokerQuery.Text.Utf8
/-
  Percent encoding of the parts of a URL.

  Each part has a set of characters that may not stand there for themselves; those, and all
  characters outside printable ASCII, are written as the bytes of their UTF-8 form.  A percent sign
  is in none of the sets, so what is encoded already stays as it is.
-/

namespace BrokerQuery.Url

/-- Characters that are encoded everywhere: controls and whatever is not ASCII. -/
def isControl (c : Char) : Bool := c.toNat < 0x20 || 0x7E < c.toNat

/-- Characters that are encoded in a fragment. -/
def inFragmentSet (c : Char) : Bool := isControl c || " \"<>`".toList.contains c

/-- Characters that are encoded in a query. -/
def inQuerySet (c : Char) : Bool := isControl c || " \"#<>'".toList.contains c

/-- Characters that are encoded in a path. -/
def inPathSet (c : Char) : Bool := inFragmentSet c || "#?\x7b\x7d".toList.contains c

/-- Characters that are encoded in a user name or password. -/
def inUserSet (c : Char) : Bool := inPathSet c || "/:;=@[\\]^|".toList.contains c

/-- A digit of an encoded byte. -/
def hexDigit (n : Nat) : Char := (Nat.digitChar n).toUpper

/-- An encoded byte. -/
def percentByte (b : Nat) : List Char := ['%', hexDigit (b / 16), hexDigit (b % 16)]

/-- The text with the characters of a set encoded. -/
def percentEncode (inSet : Char → Bool) (cs : List Char) : List Char :=
  cs.flatMap fun c => if inSet c then (Text.utf8Bytes c).flatMap percentByte else [c]

/-- The value of a hexadecimal digit. -/
def hexValue? (c : Char) : Option Nat :=
  if c.isDigit then some (c.toNat - '0'.toNat)
  else if 'a' ≤ c ∧ c ≤ 'f' then some (c.toNat - 'a'.toNat + 10)
  else if 'A' ≤ c ∧ c ≤ 'F' then some (c.toNat - 'A'.toNat + 10)
  else none

/-- The bytes of a text with encoded bytes decoded; a percent sign without two digits after it
stands for itself. -/
def percentDecode : List Char → List Nat
  | [] => []
  | '%' :: a :: b :: cs =>
    match hexValue? a, hexValue? b with
    | some h, some l => (h * 16 + l) :: percentDecode cs
    | _, _ => 0x25 :: percentDecode (a :: b :: cs)
  | c :: cs => Text.utf8Bytes c ++ percentDecode cs

end BrokerQuery.Url
