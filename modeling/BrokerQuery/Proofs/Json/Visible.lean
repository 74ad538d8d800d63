import BrokerQuery.Json.Writer
import Mathlib.Data.List.Basic
import Mathlib.Tactic.IntervalCases
/-
  A value without space is one line.

  The text of such a value has no control character in it, so none of them can break the line.  In a
  string they are escaped (`visible_escape`); outside of strings there are only brackets, commas,
  colons, the three names and numbers (`visible_compactChars`, by induction on the value).

  Numbers are made of digits and a few signs.  For a floating-point number this takes a look at the
  search for its shortest decimal: whatever grid it stops at, its digits are those of a whole number
  (`Decimal.isDigit_shortest`).
-/

namespace BrokerQuery

/-! ## Digits of decimals -/

namespace Decimal

/-- On any grid the digits are those of a whole number. -/
theorem isDigit_ofGrid (c : Nat) (k : Int) : ∀ d ∈ (ofGrid c k).digits, d.isDigit = true := by
  intro d hd
  have hgrid := (List.dropWhile_sublist _).subset (List.mem_reverse.mp hd)
  exact Nat.isDigit_of_mem_toDigits (by decide) (by decide) (List.mem_reverse.mp hgrid)

theorem isDigit_search (tie : Tie) (r : Rounding) (lead : Int) (n fuel : Nat) :
    ∀ d ∈ (search tie r lead n fuel).digits, d.isDigit = true := by
  induction fuel generalizing n with
  | zero => exact isDigit_ofGrid _ 0
  | succ fuel ih =>
    rw [search]
    split
    next c _ => exact isDigit_ofGrid c _
    next => exact ih (n + 1)

/-- All digits of the shortest decimal are digits. -/
theorem isDigit_shortest (tie : Tie) (m : Nat) (e : Int) :
    ∀ d ∈ (shortest tie m e).digits, d.isDigit = true :=
  isDigit_search tie _ _ 1 17

end Decimal

namespace Json

/-! ## Texts without control characters -/

/-- No control characters. -/
def Visible (cs : List Char) : Prop := ∀ c ∈ cs, 0x20 ≤ c.toNat

instance (cs : List Char) : Decidable (Visible cs) :=
  List.decidableBAll (fun c : Char => 0x20 ≤ c.toNat) cs

@[simp] theorem visible_nil : Visible [] := List.forall_mem_nil _

@[simp] theorem visible_cons {c : Char} {cs : List Char} :
    Visible (c :: cs) ↔ 0x20 ≤ c.toNat ∧ Visible cs := List.forall_mem_cons

@[simp] theorem visible_append {cs ds : List Char} :
    Visible (cs ++ ds) ↔ Visible cs ∧ Visible ds := List.forall_mem_append

/-- Digits are no control characters. -/
theorem visible_of_isDigit {cs : List Char} (h : ∀ c ∈ cs, c.isDigit = true) : Visible cs := by
  intro c hc
  have hdigit := h c hc
  simp only [Char.isDigit, Bool.and_eq_true, decide_eq_true_eq, ge_iff_le,
    UInt32.le_iff_toNat_le] at hdigit
  have hlow : 48 ≤ c.toNat := hdigit.1
  omega

theorem visible_toDigits (n : Nat) : Visible (Nat.toDigits 10 n) :=
  visible_of_isDigit fun _ hc => Nat.isDigit_of_mem_toDigits (by decide) (by decide) hc

theorem visible_replicate_zero (n : Nat) : Visible (List.replicate n '0') := by
  intro c hc
  rw [List.eq_of_mem_replicate hc]
  decide

theorem visible_whole (n : Int) : Visible (Whole.chars n) := by
  refine visible_append.mpr ⟨?_, visible_toDigits _⟩
  split <;> decide

section Layouts

variable {d : Decimal} (hd : ∀ c ∈ d.digits, c.isDigit = true)
include hd

theorem visible_take (n : Nat) : Visible (d.digits.take n) :=
  visible_of_isDigit fun c hc => hd c (List.mem_of_mem_take hc)

theorem visible_drop (n : Nat) : Visible (d.digits.drop n) :=
  visible_of_isDigit fun c hc => hd c (List.mem_of_mem_drop hc)

/-- A number with its point in place: digits, zeros and the point. -/
theorem visible_writePositional (keepsPoint : Bool) :
    Visible (Layout.writePositional keepsPoint d) := by
  unfold Layout.writePositional
  split
  · have hpart : Visible (if (d.digits.drop (d.exponent.toNat + 1)).isEmpty then
        (if keepsPoint then ['.', '0'] else [])
        else '.' :: d.digits.drop (d.exponent.toNat + 1)) := by
      split
      · split <;> decide
      · exact visible_cons.mpr ⟨by decide, visible_drop hd _⟩
    exact visible_append.mpr
      ⟨visible_append.mpr ⟨visible_take hd _, visible_replicate_zero _⟩, hpart⟩
  · have hdigits := visible_of_isDigit hd
    simp [visible_replicate_zero, hdigits]

/-- A number with a power of ten: digits, a point, a letter and a sign. -/
theorem visible_writeScientific : Visible (Layout.writeScientific d) := by
  have hpoint : Visible (if d.digits.length ≤ 1 then [] else '.' :: d.digits.drop 1) := by
    split
    · exact visible_nil
    · exact visible_cons.mpr ⟨by decide, visible_drop hd 1⟩
  have hpower : Visible ['e', if 0 ≤ d.exponent then '+' else '-'] := by
    split <;> decide
  exact visible_append.mpr ⟨visible_append.mpr
    ⟨visible_append.mpr ⟨visible_take hd 1, hpoint⟩, hpower⟩, visible_toDigits _⟩

end Layouts

/-- Floating-point numbers have no control characters in any layout. -/
theorem visible_writeFinite (l : Layout) (x : Binary64) : Visible (l.writeFinite x) := by
  have hdigits := Decimal.isDigit_shortest l.tie x.parts.1 x.parts.2
  refine visible_append.mpr ⟨by split <;> decide, ?_⟩
  split
  · split <;> decide
  · show Visible (if _ then _ else _)
    split
    · exact visible_writePositional hdigits l.keepsPoint
    · exact visible_writeScientific hdigits

/-! ## Strings -/

theorem visible_hexDigit {n : Nat} (h : n < 16) : 0x20 ≤ (hexDigit n).toNat := by
  interval_cases n <;> decide

/-- An escaped character is written without control characters, whatever it is itself. -/
theorem visible_escape (c : Char) : Visible (escape c) := by
  by_cases hvisible : 0x20 ≤ c.toNat
  · have hself : Visible [c] := visible_cons.mpr ⟨hvisible, visible_nil⟩
    unfold escape
    rw [if_pos hvisible]
    split_ifs
    · decide
    · decide
    · exact hself
  · have hhigh : c.toNat / 16 < 16 := by omega
    have hlow : c.toNat % 16 < 16 := by omega
    have hunit :
        Visible ['\\', 'u', '0', '0', hexDigit (c.toNat / 16), hexDigit (c.toNat % 16)] := by
      simp [visible_hexDigit hhigh, visible_hexDigit hlow]
    unfold escape
    rw [if_neg hvisible]
    split_ifs
    case neg => exact hunit
    all_goals decide

/-- A string in quotes has no control characters, whatever is in it. -/
theorem visible_quote (s : String) : Visible (quote s) := by
  have hescaped : Visible (s.toList.flatMap escape) := by
    intro c hc
    obtain ⟨d, _, hd⟩ := List.mem_flatMap.mp hc
    exact visible_escape d c hd
  simp [quote, hescaped]

/-! ## Values -/

mutual
/-- The text of a value without space has no control characters. -/
theorem visible_compactChars : ∀ v : Json, Visible (compactChars v)
  | .null => by decide
  | .bool true => by decide
  | .bool false => by decide
  | .int n => by rw [compactChars]; exact visible_whole n
  | .float x => by rw [compactChars]; exact visible_writeFinite _ x
  | .string s => by rw [compactChars]; exact visible_quote s
  | .array items => by
    rw [compactChars]
    simp [visible_compactItems items]
  | .object fields => by
    rw [compactChars]
    simp [visible_compactFields fields]

theorem visible_compactItems : ∀ items : List Json, Visible (compactItems items)
  | [] => by rw [compactItems]; exact visible_nil
  | [v] => by rw [compactItems]; exact visible_compactChars v
  | v :: w :: items => by
    rw [compactItems]
    simp [visible_compactChars v, visible_compactItems (w :: items)]

theorem visible_compactFields : ∀ fields : List (String × Json), Visible (compactFields fields)
  | [] => by rw [compactFields]; exact visible_nil
  | [(k, v)] => by
    rw [compactFields]
    simp [visible_quote k, visible_compactChars v]
  | (k, v) :: f :: fields => by
    rw [compactFields]
    simp [visible_quote k, visible_compactChars v, visible_compactFields (f :: fields)]
end

end Json
end BrokerQuery
