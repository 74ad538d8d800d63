import BrokerQuery.Calendar.Date
import Mathlib.Algebra.BigOperators.Group.List.Basic
import Mathlib.Algebra.Ring.Nat
/-
  Dates and day numbers say the same thing.

    1. The year of a day is the one year that it lies in: the guess is off by at most one
       (`yearOf_spec`), and no day lies in two years (`yearOf_eq`).
    2. Within a year, walking through the lengths of the months finds a month and a day of it
       (`exists_monthDay`), and finds the one that a date started from (`monthDay_sum`).
    3. So every day number is that of the date it is turned into (`exists_ofDayNumber_eq`), and a date
       that names a day is found again from its number (`ofDayNumber_dayNumber`).
-/

namespace BrokerQuery.Date

/-! ## Years -/

theorem daysBeforeYear_eq (y : Int) :
    daysBeforeYear y = 365 * (y - 1) + (y - 1) / 4 - (y - 1) / 100 + (y - 1) / 400 := rfl

/-- A leap year is one day longer, so the lengths of the months add up to the length of the year. -/
theorem daysBeforeYear_succ (y : Int) :
    daysBeforeYear (y + 1) = daysBeforeYear y + (monthLengths (isLeapYear y)).sum := by
  have hlength (leap : Bool) : (monthLengths leap).sum = if leap then 366 else 365 := by
    cases leap <;> rfl
  have hleap : isLeapYear y = true ↔ y % 4 = 0 ∧ (y % 100 ≠ 0 ∨ y % 400 = 0) := by
    simp [isLeapYear]
  rw [hlength, daysBeforeYear_eq, daysBeforeYear_eq]
  by_cases h : isLeapYear y = true
  · obtain ⟨hfour, hcentury⟩ := hleap.mp h
    rw [if_pos h]
    omega
  · have hcommon := mt hleap.mpr h
    rw [if_neg h]
    omega

theorem daysBeforeYear_le {y z : Int} (h : y ≤ z) : daysBeforeYear y ≤ daysBeforeYear z := by
  rw [daysBeforeYear_eq, daysBeforeYear_eq]
  omega

/-- A day lies in its year: 400 years have 146097 days, and the leap days of a part of them are never
more than one year away from being evenly spread. -/
theorem yearOf_spec (days : Int) :
    daysBeforeYear (yearOf days) ≤ days ∧ days < daysBeforeYear (yearOf days + 1) := by
  unfold yearOf
  dsimp only
  split
  · next h =>
    refine ⟨h, ?_⟩
    rw [daysBeforeYear_eq]
    omega
  · next h =>
    split
    · next h' =>
      rw [Int.sub_add_cancel]
      refine ⟨?_, h'⟩
      rw [daysBeforeYear_eq]
      omega
    · next h' => exact ⟨by omega, by omega⟩

/-- No day lies in two years. -/
theorem yearOf_eq {y days : Int} (h : daysBeforeYear y ≤ days) (h' : days < daysBeforeYear (y + 1)) :
    yearOf days = y := by
  obtain ⟨hlo, hhi⟩ := yearOf_spec days
  rcases Int.lt_trichotomy (yearOf days) y with hlt | heq | hgt
  · have := daysBeforeYear_le (show yearOf days + 1 ≤ y by omega)
    omega
  · exact heq
  · have := daysBeforeYear_le (show y + 1 ≤ yearOf days by omega)
    omega

/-! ## Months -/

/-- The walk through the months stops in the month and at the day that the count was made of. -/
theorem monthDay_sum {lengths : List Nat} {m length r : Nat} (h : lengths[m]? = some length)
    (hr : r < length) : monthDay lengths ((lengths.take m).sum + r) = (m + 1, r + 1) := by
  induction lengths generalizing m with
  | nil => exact nomatch h
  | cons first lengths ih =>
    cases m with
    | zero =>
      have hfirst : first = length := Option.some.inj h
      have hlt : r < first := by omega
      rw [List.take_zero, List.sum_nil, Nat.zero_add, monthDay, if_pos hlt]
    | succ m =>
      have hge : ¬ first + (lengths.take m).sum + r < first := by omega
      have hrest : first + (lengths.take m).sum + r - first = (lengths.take m).sum + r := by omega
      rw [List.take_succ_cons, List.sum_cons, monthDay, if_neg hge, hrest, ih h]

/-- A day of the year is some day of some month. -/
theorem exists_monthDay {lengths : List Nat} {d : Nat} (h : d < lengths.sum) :
    ∃ m length r, lengths[m]? = some length ∧ r < length ∧ d = (lengths.take m).sum + r := by
  induction lengths generalizing d with
  | nil => exact absurd h (Nat.not_lt_zero d)
  | cons first lengths ih =>
    rw [List.sum_cons] at h
    by_cases hd : d < first
    · exact ⟨0, first, d, rfl, hd, by simp⟩
    · have hrest : d - first < lengths.sum := by omega
      obtain ⟨m, length, r, hm, hr, hsum⟩ := ih hrest
      refine ⟨m + 1, length, r, hm, hr, ?_⟩
      rw [List.take_succ_cons, List.sum_cons]
      omega

/-- A place inside of a part is before the end of all parts. -/
theorem sum_take_add_lt {lengths : List Nat} {m length r : Nat} (h : lengths[m]? = some length)
    (hr : r < length) : (lengths.take m).sum + r < lengths.sum := by
  induction lengths generalizing m with
  | nil => exact nomatch h
  | cons first lengths ih =>
    cases m with
    | zero =>
      have hfirst : first = length := Option.some.inj h
      rw [List.take_zero, List.sum_nil, List.sum_cons]
      omega
    | succ m =>
      have := ih h
      rw [List.take_succ_cons, List.sum_cons, List.sum_cons]
      omega

/-! ## Dates -/

/-- Month and day are those of a day, in whatever year. -/
def IsDay (d : Date) : Prop :=
  ∃ length, (monthLengths (isLeapYear d.year))[d.month - 1]? = some length ∧
    1 ≤ d.month ∧ 1 ≤ d.day ∧ d.day ≤ length

/-- A date is valid iff its year is in the range and it is a day of the calendar. -/
theorem isValid_iff (d : Date) :
    d.isValid = true ↔ firstYear ≤ d.year ∧ d.year ≤ lastYear ∧ d.IsDay := by
  unfold isValid IsDay
  cases (monthLengths (isLeapYear d.year))[d.month - 1]? <;> simp [and_assoc]

/-- The days before the year, the days of the year before the month, and those of the month. -/
theorem dayNumber_eq (d : Date) :
    d.dayNumber = daysBeforeYear d.year +
      ((monthLengths (isLeapYear d.year)).take (d.month - 1)).sum + (d.day - 1) - unixEpoch := by
  rw [List.sum_eq_foldl]
  rfl

/-- The days before a day of a year, by the days of the months before it. -/
theorem ofDayNumber_eq {n y : Int} {m length r : Nat}
    (hm : (monthLengths (isLeapYear y))[m]? = some length) (hr : r < length)
    (hn : n + unixEpoch = daysBeforeYear y + ((monthLengths (isLeapYear y)).take m).sum + r) :
    ofDayNumber n = ⟨y, m + 1, r + 1⟩ := by
  have hlt := sum_take_add_lt hm hr
  have hsucc := daysBeforeYear_succ y
  have hyear : yearOf (n + unixEpoch) = y := yearOf_eq (by omega) (by omega)
  have hrest : (n + unixEpoch - daysBeforeYear y).toNat =
      ((monthLengths (isLeapYear y)).take m).sum + r := by omega
  unfold ofDayNumber
  dsimp only
  rw [hyear, hrest, monthDay_sum hm hr]

/-- A date that names a day is found from its number. -/
theorem ofDayNumber_dayNumber {d : Date} (h : d.IsDay) : ofDayNumber d.dayNumber = d := by
  obtain ⟨length, hlength, hmonth, hday, hle⟩ := h
  have hr : d.day - 1 < length := by omega
  have hnumber := d.dayNumber_eq
  have hdate := ofDayNumber_eq hlength hr (n := d.dayNumber) (by omega)
  rw [hdate, Nat.sub_add_cancel hmonth, Nat.sub_add_cancel hday]

/-- Every day number is that of a date that names a day. -/
theorem exists_ofDayNumber_eq (n : Int) :
    (ofDayNumber n).IsDay ∧ (ofDayNumber n).dayNumber = n := by
  obtain ⟨hlo, hhi⟩ := yearOf_spec (n + unixEpoch)
  have hsucc := daysBeforeYear_succ (yearOf (n + unixEpoch))
  have hlt : (n + unixEpoch - daysBeforeYear (yearOf (n + unixEpoch))).toNat <
      (monthLengths (isLeapYear (yearOf (n + unixEpoch)))).sum := by omega
  obtain ⟨m, length, r, hm, hr, hsum⟩ := exists_monthDay hlt
  have hdate := ofDayNumber_eq hm hr (n := n) (by omega)
  rw [hdate]
  refine ⟨⟨length, hm, by simp, by simp, hr⟩, ?_⟩
  rw [dayNumber_eq]
  simp only [Nat.add_sub_cancel]
  omega

end BrokerQuery.Date
