import BrokerQuery.Json.Basic
/-
  Order and limits of the rows of a result.

  `LimitSpec` orders grouped rows and cuts them off; `PagingSpec` says where a page of raw rows
  starts.  The segments of a page are kept in the order of their names.
-/

namespace BrokerQuery

/-- Which way rows are ordered. -/
inductive Direction
  | ascending
  | descending
deriving DecidableEq

namespace Direction

/-- The broker's name of a direction. -/
def name : Direction → String
  | .ascending => "ascending"
  | .descending => "descending"

/-- The direction that a word means, whole or short, in any case.  No letter outside ASCII has a
letter of these words as its small form, so only ASCII letters are folded. -/
def ofText? (s : String) : Option Direction :=
  let word := String.ofList (s.toList.map Char.toLower)
  if word = "ascending" ∨ word = "asc" then some .ascending
  else if word = "descending" ∨ word = "desc" then some .descending
  else none

/-- What is said about a word that means no direction. -/
def unknown (s : String) : String := s!"unknown sort direction: {s}"

end Direction

/-- Ordering and the greatest number of grouped rows. -/
structure LimitSpec where
  limit : Nat
  columns : List (String × Direction)
deriving DecidableEq

/-- Where a page of raw rows starts, and how many rows it has. -/
structure PagingSpec where
  /-- The offset in each segment, in the order of the segments' names. -/
  identifiers : List (String × Int)
  threshold : Nat
deriving DecidableEq

namespace LimitSpec

/-- Ordering and limit as JSON. -/
def toJson (l : LimitSpec) : Json := .object
  [("type", .string "default"), ("limit", .int l.limit),
    ("columns", .array (l.columns.map fun (dimension, direction) => .object
      [("dimension", .string dimension), ("direction", .string direction.name)]))]

end LimitSpec

namespace PagingSpec

/-- Puts the offset of a segment in its place; a segment that is there gets the new offset. -/
def insert (segment : String) (offset : Int) : List (String × Int) → List (String × Int)
  | [] => [(segment, offset)]
  | (s, o) :: rest =>
    if segment < s then (segment, offset) :: (s, o) :: rest
    else if segment = s then (segment, offset) :: rest
    else (s, o) :: insert segment offset rest

/-- A page from the offsets of its segments in any order. -/
def ofList (identifiers : List (String × Int)) (threshold : Nat) : PagingSpec :=
  ⟨identifiers.foldl (fun sorted (s, o) => insert s o sorted) [], threshold⟩

/-- A page as JSON. -/
def toJson (p : PagingSpec) : Json := .object
  [("pagingIdentifiers", .object (p.identifiers.map fun (s, o) => (s, .int o))),
    ("threshold", .int p.threshold)]

end PagingSpec
end BrokerQuery
