import BrokerQuery.Json.Written
/-
  The values of a written document.

  `Written.value?` decodes a tree: two code units that form a surrogate pair become one character
  and a lone one is refused, numbers get their values, a field that is written twice keeps its
  first place and its last value.  `room` bounds how deep arrays and objects may nest; a document
  may nest 127 of them (`Json.depth`).
-/

namespace BrokerQuery.Json

/-- How many arrays and objects may be open at once. -/
def depth : Nat := 127

/-- The characters of a string as written; `none` for a surrogate without its partner. -/
def Piece.chars? : List Piece → Option (List Char)
  | [] => some []
  | .char c :: rest => (Piece.chars? rest).map (c :: ·)
  | .unit u :: rest =>
    if u < 0xD800 ∨ 0xE000 ≤ u then (Piece.chars? rest).map (Char.ofNat u :: ·)
    else match rest with
      | .unit v :: rest' =>
        if u < 0xDC00 ∧ 0xDC00 ≤ v ∧ v < 0xE000 then
          (Piece.chars? rest').map
            (Char.ofNat (0x10000 + (u - 0xD800) * 0x400 + (v - 0xDC00)) :: ·)
        else none
      | _ => none

/-- The text of a string as written. -/
def Piece.text? (pieces : List Piece) : Option String := (Piece.chars? pieces).map String.ofList

mutual
/-- The value of a document that nests at most `room` arrays and objects. -/
def Written.value? : Nat → Written → Option Json
  | _, .null => some .null
  | _, .bool b => some (.bool b)
  | _, .number n => n.value?
  | _, .string pieces => (Piece.text? pieces).map .string
  | 0, .array _ => none
  | room + 1, .array items => (Written.values? room items).map .array
  | 0, .object _ => none
  | room + 1, .object fields => (Written.fields? room [] fields).map .object

/-- The values of the items of an array. -/
def Written.values? : Nat → List Written → Option (List Json)
  | _, [] => some []
  | room, w :: ws => do
    let v ← Written.value? room w
    let vs ← Written.values? room ws
    return v :: vs

/-- The fields of an object, added to those before them. -/
def Written.fields? :
    Nat → List (String × Json) → List (List Piece × Written) → Option (List (String × Json))
  | _, before, [] => some before
  | room, before, (key, w) :: ws => do
    let k ← Piece.text? key
    let v ← Written.value? room w
    Written.fields? room (setField k v before) ws
end

/-- The value that a text writes, if it is a document. -/
def ofText? (s : String) : Option Json := (Written.ofChars? s.toList).bind (Written.value? depth)

/-- A field that is written twice keeps its first place and its last value. -/
example : ofText? "\x7b\"a\": 1, \"b\": [-2], \"a\": null\x7d" =
    some (.object [("a", .null), ("b", .array [.int (-2)])]) := by cbv

end BrokerQuery.Json
