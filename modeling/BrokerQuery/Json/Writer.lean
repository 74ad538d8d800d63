import BrokerQuery.Json.Basic
import BrokerQuery.Number.Layout
import BrokerQuery.Number.Whole
/-
  JSON values as text.

  There are two layouts: `compact` without any space, for requests and result lines, and `pretty`
  with two spaces of indentation per level, for reading.  Both write strings the same way: a quote,
  a backslash and the controls below U+0020 are escaped and everything else stands for itself, so
  no written value holds a raw control character of its own.
-/

namespace BrokerQuery.Json

/-- A digit of a four-digit escape. -/
def hexDigit (n : Nat) : Char := Nat.digitChar n

/-- One character inside quotes. -/
def escape (c : Char) : List Char :=
  if c = '"' then ['\\', '"']
  else if c = '\\' then ['\\', '\\']
  else if 0x20 ≤ c.toNat then [c]
  else if c.toNat = 0x08 then ['\\', 'b']
  else if c.toNat = 0x09 then ['\\', 't']
  else if c.toNat = 0x0A then ['\\', 'n']
  else if c.toNat = 0x0C then ['\\', 'f']
  else if c.toNat = 0x0D then ['\\', 'r']
  else ['\\', 'u', '0', '0', hexDigit (c.toNat / 16), hexDigit (c.toNat % 16)]

/-- A string in quotes. -/
def quote (s : String) : List Char := '"' :: (s.toList.flatMap escape ++ ['"'])

mutual
/-- The text of a value without any space. -/
def compactChars : Json → List Char
  | .null => ['n', 'u', 'l', 'l']
  | .bool true => ['t', 'r', 'u', 'e']
  | .bool false => ['f', 'a', 'l', 's', 'e']
  | .int n => Whole.chars n
  | .float x => Layout.json.writeFinite x
  | .string s => quote s
  | .array items => '[' :: (compactItems items ++ [']'])
  | .object fields => '{' :: (compactFields fields ++ ['}'])

/-- Items with commas between them. -/
def compactItems : List Json → List Char
  | [] => []
  | [v] => compactChars v
  | v :: w :: items => compactChars v ++ ',' :: compactItems (w :: items)

/-- Fields with commas between them. -/
def compactFields : List (String × Json) → List Char
  | [] => []
  | [(k, v)] => quote k ++ ':' :: compactChars v
  | (k, v) :: f :: fields => quote k ++ ':' :: (compactChars v ++ ',' :: compactFields (f :: fields))
end

/-- The text of a value without any space. -/
def compact (v : Json) : String := String.ofList (compactChars v)

/-- A new line at a level of indentation. -/
def newLine (level : Nat) : List Char := '\n' :: List.replicate (2 * level) ' '

mutual
/-- The text of a value with each item and field on a line of its own. -/
def prettyChars (level : Nat) : Json → List Char
  | .null => ['n', 'u', 'l', 'l']
  | .bool true => ['t', 'r', 'u', 'e']
  | .bool false => ['f', 'a', 'l', 's', 'e']
  | .int n => Whole.chars n
  | .float x => Layout.json.writeFinite x
  | .string s => quote s
  | .array [] => ['[', ']']
  | .array (v :: items) =>
    '[' :: (newLine (level + 1) ++ prettyItems (level + 1) (v :: items) ++ newLine level ++ [']'])
  | .object [] => ['{', '}']
  | .object (f :: fields) =>
    '{' :: (newLine (level + 1) ++ prettyFields (level + 1) (f :: fields) ++ newLine level ++ ['}'])

/-- Items, a comma at the end of each line but the last. -/
def prettyItems (level : Nat) : List Json → List Char
  | [] => []
  | [v] => prettyChars level v
  | v :: w :: items => prettyChars level v ++ ',' :: (newLine level ++ prettyItems level (w :: items))

/-- Fields, a comma at the end of each line but the last. -/
def prettyFields (level : Nat) : List (String × Json) → List Char
  | [] => []
  | [(k, v)] => quote k ++ ':' :: ' ' :: prettyChars level v
  | (k, v) :: f :: fields =>
    quote k ++ ':' :: ' ' :: (prettyChars level v ++ ',' :: (newLine level ++
      prettyFields level (f :: fields)))
end

/-- The text of a value with two spaces of indentation per level. -/
def pretty (v : Json) : String := String.ofList (prettyChars 0 v)

end BrokerQuery.Json
