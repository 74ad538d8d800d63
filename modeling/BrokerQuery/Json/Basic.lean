import BrokerQuery.Number.Binary64
/-
  JSON values.

  An object is a list of named fields: the order of fields is part of the value, because queries
  and answers are written in a fixed order.  Whole numbers and floating-point numbers are different
  values (`1` and `1.0`).
-/

namespace BrokerQuery

/-- A JSON value. -/
inductive Json
  | null
  | bool (b : Bool)
  | int (n : Int)
  | float (x : Binary64)
  | string (s : String)
  | array (items : List Json)
  | object (fields : List (String × Json))
deriving Inhabited

namespace Json

/-- A floating-point number as a value; JSON has no infinities, so they are null. -/
def ofNumber (x : Binary64) : Json := if x.isFinite then .float x else .null

/-- A list of strings as a value. -/
def ofStrings (ss : List String) : Json := .array (ss.map .string)

/-- The value of the first field with this name. -/
def lookup (name : String) : List (String × Json) → Option Json
  | [] => none
  | (k, v) :: fields => if k = name then some v else lookup name fields

/-- Sets a field: a name that is there keeps its place and gets the new value, a new one goes to
the end. -/
def setField (name : String) (v : Json) : List (String × Json) → List (String × Json)
  | [] => [(name, v)]
  | (k, w) :: fields =>
    if k = name then (k, v) :: fields else (k, w) :: setField name v fields

/-- A field that is set has its new value. -/
theorem lookup_setField_self (name : String) (v : Json) (fields : List (String × Json)) :
    lookup name (setField name v fields) = some v := by
  induction fields with
  | nil => simp [setField, lookup]
  | cons f fields ih =>
    obtain ⟨k, w⟩ := f
    by_cases h : k = name <;> simp [setField, lookup, h, ih]

/-- Setting a field leaves all others alone. -/
theorem lookup_setField_ne {name other : String} (h : other ≠ name) (v : Json)
    (fields : List (String × Json)) :
    lookup other (setField name v fields) = lookup other fields := by
  induction fields with
  | nil => simp [setField, lookup, Ne.symm h]
  | cons f fields ih =>
    obtain ⟨k, w⟩ := f
    by_cases hk : k = name
    · simp [setField, lookup, hk, Ne.symm h]
    · by_cases ho : k = other
      · subst ho; simp [setField, lookup, hk]
      · simp [setField, lookup, hk, ho, ih]

/-- Setting a field changes the names only if the name is new. -/
theorem names_setField (name : String) (v : Json) (fields : List (String × Json)) :
    (setField name v fields).map Prod.fst =
      if name ∈ fields.map Prod.fst then fields.map Prod.fst else fields.map Prod.fst ++ [name] := by
  induction fields with
  | nil => rfl
  | cons f fields ih =>
    obtain ⟨k, w⟩ := f
    by_cases h : k = name
    · simp [setField, h]
    · simp only [setField, if_neg h, List.map_cons, ih, List.mem_cons, Ne.symm h, false_or]
      split <;> rfl

/-- The text of a string value. -/
def string? : Json → Option String
  | .string s => some s
  | _ => none

/-- The items of an array that holds strings only. -/
def strings? : Json → Option (List String)
  | .array items => items.mapM string?
  | _ => none

/-- The fields of an object. -/
def fields? : Json → Option (List (String × Json))
  | .object fields => some fields
  | _ => none

/-- The rows of an array that holds objects only. -/
def rows? : Json → Option (List (List (String × Json)))
  | .array items => items.mapM fields?
  | _ => none

end Json
end BrokerQuery
