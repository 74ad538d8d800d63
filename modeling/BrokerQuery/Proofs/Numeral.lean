import BrokerQuery.Number.Numeral
import Mathlib.Algebra.Group.Nat.Defs
import Mathlib.Data.List.TakeWhile
/-
  Whole numbers in decimal digits.

  The digits of a number are digits (`isDigit_toDigits`), and their value is the number
  (`value_toDigits`).  A run of digits is read from the left, and what was read so far never
  exceeds the value of the whole run (`le_foldl_digit`), so a reader that stops at a bound does not
  stop at a run whose value is below it.  A run of so many digits has a value below that power of ten
  (`value_lt`).
-/

namespace BrokerQuery.Numeral

/-- The digits of a number have it as their value. -/
theorem value_toDigits (n : Nat) : value (Nat.toDigits 10 n) = n := by
  have hvalue : value (Nat.toDigits 10 n) = Nat.ofDigitChars 10 (Nat.toDigits 10 n) 0 := by
    simp only [value, digit, Nat.ofDigitChars_eq_foldl, Nat.mul_comm]
  rw [hvalue, Nat.ofDigitChars_ten_toDigits]

theorem isDigit_toDigits (n : Nat) : ∀ c ∈ Nat.toDigits 10 n, c.isDigit = true :=
  fun _ hc => Nat.isDigit_of_mem_toDigits (by decide) (by decide) hc

theorem spanDigits_toDigits (n : Nat) :
    spanDigits (Nat.toDigits 10 n) = (Nat.toDigits 10 n, []) := by
  rw [spanDigits, List.takeWhile_eq_self_iff.mpr (isDigit_toDigits n),
    List.dropWhile_eq_nil_iff.mpr (isDigit_toDigits n)]

/-- More digits do not make a number smaller. -/
theorem le_foldl_digit (n : Nat) (ds : List Char) :
    n ≤ ds.foldl (fun n c => n * 10 + digit c) n := by
  induction ds generalizing n with
  | nil => exact le_rfl
  | cons c ds ih =>
    have hstep : n ≤ n * 10 + digit c := by omega
    exact hstep.trans (ih _)

theorem digit_lt {c : Char} (h : c.isDigit = true) : digit c < 10 := by
  simp only [Char.isDigit, Bool.and_eq_true, decide_eq_true_eq, UInt32.le_iff_toNat_le] at h
  have hle : c.toNat ≤ 57 := h.2
  have hzero : '0'.toNat = 48 := rfl
  unfold digit
  omega

/-- So many digits stay below that power of ten. -/
theorem value_lt {ds : List Char} (h : ∀ c ∈ ds, c.isDigit = true) : value ds < 10 ^ ds.length := by
  -- What was read before counts as that many more tens.
  have hrun (n : Nat) : ds.foldl (fun n c => n * 10 + digit c) n < (n + 1) * 10 ^ ds.length := by
    induction ds generalizing n with
    | nil => simp
    | cons c ds ih =>
      obtain ⟨hc, hds⟩ := List.forall_mem_cons.mp h
      have hdigit := digit_lt hc
      have hstep : n * 10 + digit c + 1 ≤ (n + 1) * 10 := by omega
      calc ds.foldl (fun n c => n * 10 + digit c) (n * 10 + digit c)
          < (n * 10 + digit c + 1) * 10 ^ ds.length := ih hds _
        _ ≤ (n + 1) * 10 * 10 ^ ds.length := Nat.mul_le_mul_right _ hstep
        _ = (n + 1) * 10 ^ (ds.length + 1) := by rw [Nat.mul_assoc, Nat.pow_succ']
  have hzero := hrun 0
  rwa [Nat.zero_add, Nat.one_mul] at hzero

end BrokerQuery.Numeral
