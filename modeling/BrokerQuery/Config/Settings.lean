import BrokerQuery.Json.Reader
/-
  Configuration files.

  A file is an object.  Four of its fields are known: the broker's URL, the timeout in seconds, the
  granularity and the time zone.  A known field may be null, which is as good as absent, but it may
  not be written twice.  Fields that are not known must be values too; their names are kept, in
  the order of their first occurrence, so that a user can be warned of typing errors.
-/

namespace BrokerQuery

/-- What a configuration file sets. -/
structure FileSettings where
  brokerUrl : Option String := none
  timeoutSecs : Option Nat := none
  granularity : Option String := none
  timeZone : Option String := none
  /-- The names of fields that are not known. -/
  unknown : List String := []
deriving DecidableEq

namespace FileSettings

open Json (Piece Written)

/-- The names of the known fields. -/
def knownNames : List String := ["broker_url", "timeout_secs", "granularity", "time_zone"]

/-- A text or nothing. -/
def text? : Json → Option (Option String)
  | .null => some none
  | .string s => some (some s)
  | _ => none

/-- A whole number that is not negative, or nothing. -/
def natural? : Json → Option (Option Nat)
  | .null => some none
  | .int n => if 0 ≤ n then some (some n.toNat) else none
  | _ => none

/-- The settings with one more field. -/
def withField? (s : FileSettings) (name : String) (v : Json) : Option FileSettings :=
  if name = "broker_url" then (text? v).map fun x => { s with brokerUrl := x }
  else if name = "timeout_secs" then (natural? v).map fun x => { s with timeoutSecs := x }
  else if name = "granularity" then (text? v).map fun x => { s with granularity := x }
  else if name = "time_zone" then (text? v).map fun x => { s with timeZone := x }
  else some (if name ∈ s.unknown then s else { s with unknown := s.unknown ++ [name] })

/-- The settings with some more fields; `seen` are the names of those before. -/
def withFields? (s : FileSettings) (seen : List String) :
    List (List Piece × Written) → Option FileSettings
  | [] => some s
  | (key, w) :: rest => do
    let name ← Piece.text? key
    let v ← Written.value? (Json.depth - 1) w
    if name ∈ knownNames ∧ name ∈ seen then none
    else withFields? (← s.withField? name v) (name :: seen) rest

/-- The settings that a text writes. -/
def ofText? (s : String) : Option FileSettings := do
  match ← Written.ofChars? s.toList with
  | .object fields => withFields? {} [] fields
  | _ => none

end FileSettings
end BrokerQuery
