import BrokerQuery.Proofs.Query.Document
import Mathlib.Data.List.Forall2
/-
  Reading values back.

  A reader takes a value to what it stands for, if it stands for something.  The readers of this
  file are parts for others:

    * `required` and `optional?` read a field of an object, `list?` reads the items of an array,
      `named?` a name out of a list of names;
    * `readTree` reads trees.  It says what an object reads as when all that is known of a field is
      its value, the tree which that value reads as, and the trees which its items read as.  So a
      reader of trees is no recursion of its own, and every such reader has the same few laws.
-/

namespace BrokerQuery.Json

/-! ## Scalars, names and lists -/

/-- A whole number that is not negative. -/
def natural? : Json → Option Nat
  | .int n => if 0 ≤ n then some n.toNat else none
  | _ => none

/-- A whole number. -/
def int? : Json → Option Int
  | .int n => some n
  | _ => none

/-- A floating-point number. -/
def float? : Json → Option Binary64
  | .float x => some x
  | _ => none

/-- A truth value. -/
def bool? : Json → Option Bool
  | .bool b => some b
  | _ => none

/-- The one of several things that has this name. -/
def named? (name : α → String) (all : List α) (v : Json) : Option α :=
  v.string?.bind fun s => all.find? (name · = s)

/-- The items of an array, all of which must be readable. -/
def list? (read : Json → Option α) : Json → Option (List α)
  | .array items => items.mapM read
  | _ => none

@[simp] theorem string?_string (s : String) : string? (.string s) = some s := rfl

@[simp] theorem natural?_int (n : Nat) : natural? (.int n) = some n := by
  rw [natural?, if_pos (Int.natCast_nonneg n), Int.toNat_natCast]

theorem float?_ofNumber {x : Binary64} (h : x.isFinite) : float? (ofNumber x) = some x := by
  rw [ofNumber, if_pos h, float?]

/-- Items that are read back one by one are read back together. -/
theorem mapM_map_of_read {read : β → Option α} {write : α → β} {as : List α}
    (h : ∀ a ∈ as, read (write a) = some a) : (as.map write).mapM read = some as := by
  induction as with
  | nil => rfl
  | cons a as ih =>
    rw [List.map_cons, List.mapM_cons, h a List.mem_cons_self,
      ih fun b hb => h b (List.mem_cons_of_mem a hb)]
    rfl

theorem list?_map {read : Json → Option α} {write : α → Json} {as : List α}
    (h : ∀ a ∈ as, read (write a) = some a) : list? read (.array (as.map write)) = some as :=
  mapM_map_of_read h

theorem strings?_ofStrings (ss : List String) : strings? (ofStrings ss) = some ss :=
  mapM_map_of_read fun _ _ => rfl

/-! ## Fields -/

/-- A field that has to be there. -/
def required (name : String) (read : Json → Option α) (fields : List (String × Json)) : Option α :=
  (lookup name fields).bind read

/-- A field that may be missing; what is there has to be readable. -/
def optional? (name : String) (read : Json → Option α) (fields : List (String × Json)) :
    Option (Option α) :=
  (lookup name fields).mapM read

section Slots

variable {slots : List (String × Option Json)} (hnames : (slots.map Prod.fst).Nodup)
  (name : String) {read : Json → Option α}
include hnames

/-- A field that is present is found, wherever it stands. -/
theorem required_present {v : Json} {a : α} (hslot : (name, some v) ∈ slots)
    (h : read v = some a) : required name read (present slots) = some a := by
  rw [required, lookup_present hnames hslot, Option.bind_some, h]

/-- A field that may be missing is read back, and so is its absence. -/
theorem optional?_present {write : α → Json} (a? : Option α) (hslot : (name, a?.map write) ∈ slots)
    (h : ∀ a, a? = some a → read (write a) = some a) :
    optional? name read (present slots) = some a? := by
  rw [optional?, lookup_present hnames hslot]
  cases a? with
  | none => rfl
  | some a =>
    show (read (write a)).map some = some (some a)
    rw [h a rfl]; rfl

end Slots

/-! ## Trees -/

/-- What is known of a field of an object: its value, the tree that this reads as, and the trees
that its items read as. -/
structure FieldView (α : Type) where
  value : Json
  tree? : Option α
  trees? : Option (List α)

section Trees

variable {α : Type} (node : (String → Option (FieldView α)) → Option α)

mutual
/-- The tree that a value reads as, by what `node` makes of the fields of an object. -/
def readTree : Json → Option α
  | .object fields => node fun name => readField name fields
  | _ => none

/-- What is known of the first field with this name. -/
def readField (name : String) : List (String × Json) → Option (FieldView α)
  | [] => none
  | (k, v) :: fields =>
    if k = name then some ⟨v, readTree v, readItems v⟩ else readField name fields

/-- The trees that the items of an array read as. -/
def readItems : Json → Option (List α)
  | .array items => readEach items
  | _ => none

/-- The trees that several values read as. -/
def readEach : List Json → Option (List α)
  | [] => some []
  | v :: vs => (readTree v).bind fun t => (readEach vs).map (t :: ·)
end

@[simp] theorem readTree_object (fields : List (String × Json)) :
    readTree node (.object fields) = node fun name => readField node name fields := by
  rw [readTree]

@[simp] theorem readField_cons (name k : String) (v : Json) (fields : List (String × Json)) :
    readField node name ((k, v) :: fields) =
      if k = name then some ⟨v, readTree node v, readItems node v⟩
      else readField node name fields := by
  rw [readField]

/-- Trees that are read back one by one are read back together. -/
theorem readEach_of_forall₂ {ts : List α} {vs : List Json}
    (h : List.Forall₂ (fun t v => readTree node v = some t) ts vs) :
    readEach node vs = some ts := by
  induction h with
  | nil => rw [readEach]
  | cons hv _ ih =>
    rw [readEach, hv, ih]
    rfl

end Trees

namespace FieldView

variable (name : String) (fields : String → Option (FieldView α))

/-- The text in a field. -/
@[simp] def textAt : Option String := (fields name).bind (·.value.string?)

/-- The number in a field. -/
@[simp] def numberAt : Option Binary64 := (fields name).bind (·.value.float?)

/-- The tree in a field. -/
@[simp] def treeAt : Option α := (fields name).bind (·.tree?)

/-- The trees in a field. -/
@[simp] def treesAt : Option (List α) := (fields name).bind (·.trees?)

end FieldView
end BrokerQuery.Json
