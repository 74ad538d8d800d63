import BrokerQuery.Json.Reader
/-
  What a broker says about a data source: its dimensions and its metrics.

  The answer is an object with the two lists, or an array of them; a list that is missing is empty.
  The two fields may be written once each.  Other fields are skipped: their grammar counts, their
  values do not.
-/

namespace BrokerQuery

/-- Dimensions and metrics of a data source. -/
structure Metadata where
  dimensions : List String := []
  metrics : List String := []
deriving DecidableEq

namespace Metadata

open Json (Piece Written)

/-- The list of strings that a document is. -/
def names? : Written → Option (List String)
  | .array items => items.mapM fun
    | .string pieces => Piece.text? pieces
    | _ => none
  | _ => none

/-- The two lists of an object, where they are known from the fields before. -/
def ofFields? (dimensions metrics : Option (List String)) :
    List (List Piece × Written) → Option Metadata
  | [] => some ⟨dimensions.getD [], metrics.getD []⟩
  | (key, w) :: rest => do
    let name ← Piece.text? key
    if name = "dimensions" then
      if dimensions.isSome then none else ofFields? (some (← names? w)) metrics rest
    else if name = "metrics" then
      if metrics.isSome then none else ofFields? dimensions (some (← names? w)) rest
    else ofFields? dimensions metrics rest

/-- The metadata that a document is. -/
def ofWritten? : Written → Option Metadata
  | .object fields => ofFields? none none fields
  | .array [] => some {}
  | .array [d] => (names? d).map fun dimensions => ⟨dimensions, []⟩
  | .array [d, m] => do return ⟨← names? d, ← names? m⟩
  | _ => none

/-- The metadata that a text writes. -/
def ofText? (s : String) : Option Metadata := (Written.ofChars? s.toList).bind ofWritten?

end Metadata
end BrokerQuery
