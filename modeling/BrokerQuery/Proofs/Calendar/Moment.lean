import BrokerQuery.Calendar.Reader
import BrokerQuery.Proofs.Calendar.Date
/-
  Moments and their local date and time.

  Of every moment holds what the calendar says (`WellFormed`): a leap second ends a minute, and the
  local clock is less than a day away from UTC.

    1. The local date and time of the moment that is made of a date and a time are these again
       (`date_ofLocal`, `timeOfDay_ofLocal`).
    2. The moment that is made of the local date and time of another one is that one without the
       fraction of its second (`ofLocal_date_timeOfDay`).
    3. Moving a moment is counting seconds on a clock that knows the leap second which the moment may
       lie in, and no other (`isAfter_plusSeconds`, `IsAfter.eq_plusSeconds`).
-/

namespace BrokerQuery

/-! ## Times of day -/

namespace TimeOfDay

/-- A time of day may have a leap second at the end of any minute. -/
theorem isValid_iff (t : TimeOfDay) :
    t.isValid = true ↔ t.hour < 24 ∧ t.minute < 60 ∧ t.second ≤ 60 := by
  simp [isValid, and_assoc]

/-- The seconds of a day before a time of day; second 60 counts as the one before it. -/
def seconds (t : TimeOfDay) : Nat := t.hour * 3600 + t.minute * 60 + min t.second 59

/-- A leap second is counted with the second before it, so a day has no more seconds for it. -/
theorem seconds_lt {t : TimeOfDay} (h : t.isValid = true) : t.seconds < 86400 := by
  obtain ⟨hhour, hminute, _⟩ := t.isValid_iff.mp h
  unfold seconds
  omega

end TimeOfDay

namespace Moment

/-- What holds of every moment: a leap second is no longer than a second and the last of a minute,
and the local clock is less than a day away from UTC. -/
structure WellFormed (m : Moment) : Prop where
  nanos_lt : m.nanos < 2 * fullSecond
  leap : m.isLeap = true → m.seconds % 60 = 59
  offset_lt : m.offset.natAbs < 86400

theorem isLeap_iff (m : Moment) : m.isLeap = true ↔ fullSecond ≤ m.nanos := by
  simp [isLeap]

/-! ## Local date and time -/

/-- The local seconds are those of the date and the time, whatever the offset. -/
theorem localSeconds_ofLocal (d : Date) (t : TimeOfDay) (offset : Int) :
    (ofLocal d t offset).localSeconds = d.dayNumber * 86400 + t.seconds := by
  show d.dayNumber * 86400 + (t.seconds : Int) - offset + offset = _
  omega

theorem isLeap_ofLocal (d : Date) (t : TimeOfDay) (offset : Int) :
    (ofLocal d t offset).isLeap = true ↔ t.second = 60 := by
  have hnanos : (ofLocal d t offset).nanos = if t.second = 60 then fullSecond else 0 := rfl
  rw [isLeap_iff, hnanos]
  split <;> simp_all [fullSecond]

/-- The date that a moment was made of is its date. -/
theorem date_ofLocal {d : Date} (hd : d.IsDay) {t : TimeOfDay} (ht : t.isValid = true)
    (offset : Int) : (ofLocal d t offset).date = d := by
  have hlt := TimeOfDay.seconds_lt ht
  have hday : (d.dayNumber * 86400 + (t.seconds : Int)) / 86400 = d.dayNumber := by omega
  unfold date
  rw [localSeconds_ofLocal, hday, Date.ofDayNumber_dayNumber hd]

theorem timeOfDay_ofLocal (d : Date) {t : TimeOfDay} (ht : t.isValid = true) (offset : Int) :
    (ofLocal d t offset).timeOfDay = t := by
  obtain ⟨hhour, hminute, hsecond⟩ := t.isValid_iff.mp ht
  have hlt := TimeOfDay.seconds_lt ht
  have hrest : ((d.dayNumber * 86400 + (t.seconds : Int)) % 86400).toNat = t.seconds := by omega
  have hseconds : t.seconds = t.hour * 3600 + t.minute * 60 + min t.second 59 := rfl
  have hleap : (if (ofLocal d t offset).isLeap = true then 1 else 0) =
      if t.second = 60 then 1 else 0 := by
    rw [if_congr (isLeap_ofLocal d t offset) rfl rfl]
  unfold timeOfDay
  rw [localSeconds_ofLocal, hrest, hleap]
  have h₁ : t.seconds / 3600 = t.hour := by omega
  have h₂ : t.seconds / 60 % 60 = t.minute := by omega
  have h₃ : t.seconds % 60 + (if t.second = 60 then 1 else 0) = t.second := by
    split <;> omega
  dsimp only
  rw [h₁, h₂, h₃]

/-- A date and a time make a moment iff both are valid. -/
theorem ofLocal?_eq_some_iff (d : Date) (t : TimeOfDay) (offset : Int) (m : Moment) :
    ofLocal? d t offset = some m ↔
      d.isValid = true ∧ t.isValid = true ∧ m = ofLocal d t offset := by
  unfold ofLocal?
  by_cases h : (d.isValid && t.isValid) = true
  · rw [if_pos h, Option.some.injEq, eq_comm, ← and_assoc, ← Bool.and_eq_true]
    exact (and_iff_right h).symm
  · rw [if_neg h]
    refine iff_of_false nofun fun ⟨hd, ht, _⟩ => h ?_
    rw [hd, ht]
    rfl

/-- What a date and a time at an offset of whole minutes make, and a fraction of a second later, is
well-formed. -/
theorem wellFormed_ofLocal (d : Date) (t : TimeOfDay) {offset : Int} (hminutes : 60 ∣ offset)
    (hlt : offset.natAbs < 86400) {nanos : Nat} (hnanos : nanos < fullSecond) :
    ((ofLocal d t offset).plusNanos nanos).WellFormed := by
  have hfull : fullSecond = 1000000000 := rfl
  have hsum : ((ofLocal d t offset).plusNanos nanos).nanos =
      (if t.second = 60 then fullSecond else 0) + nanos := rfl
  have hseconds : ((ofLocal d t offset).plusNanos nanos).seconds =
      d.dayNumber * 86400 + (t.hour * 3600 + t.minute * 60 + min t.second 59 : Nat) - offset := rfl
  refine ⟨?_, fun hleap => ?_, hlt⟩
  · rw [hsum]
    split <;> omega
  · rw [isLeap_iff, hsum] at hleap
    have hsixty : t.second = 60 := by
      split at hleap
      · next h => exact h
      · omega
    rw [hseconds, hsixty]
    omega

/-- The moment without the fraction of its second; a leap second stays one. -/
def truncated (m : Moment) : Moment := { m with nanos := if m.isLeap then fullSecond else 0 }

/-- With whole minutes between the local clock and UTC, a leap second ends a local minute too, so
local date and time say all of a moment but the fraction of its second. -/
theorem ofLocal_date_timeOfDay {m : Moment} (h : m.WellFormed) (hminutes : 60 ∣ m.offset) :
    ofLocal m.date m.timeOfDay m.offset = m.truncated := by
  have hday : m.date.dayNumber = m.localSeconds / 86400 := (Date.exists_ofDayNumber_eq _).2
  have hlocal : m.localSeconds = m.seconds + m.offset := rfl
  have hsecond : m.timeOfDay.second =
      (m.localSeconds % 86400).toNat % 60 + if m.isLeap = true then 1 else 0 := rfl
  have htime : m.timeOfDay.seconds =
      (m.localSeconds % 86400).toNat / 3600 * 3600 +
        (m.localSeconds % 86400).toNat / 60 % 60 * 60 + min m.timeOfDay.second 59 := rfl
  have hleap := h.leap
  by_cases hm : m.isLeap = true
  · -- The second before a leap second is the last one of its minute, on the local clock as well.
    rw [if_pos hm] at hsecond
    have hend := hleap hm
    have hsixty : m.timeOfDay.second = 60 := by omega
    have hseconds : m.date.dayNumber * 86400 + (m.timeOfDay.seconds : Int) - m.offset =
        m.seconds := by omega
    unfold ofLocal truncated
    rw [if_pos hsixty, if_pos hm]
    exact congrArg (Moment.mk · fullSecond m.offset) hseconds
  · rw [if_neg hm] at hsecond
    have hsixty : m.timeOfDay.second ≠ 60 := by omega
    have hseconds : m.date.dayNumber * 86400 + (m.timeOfDay.seconds : Int) - m.offset =
        m.seconds := by omega
    unfold ofLocal truncated
    rw [if_neg hsixty, if_neg hm]
    exact congrArg (Moment.mk · 0 m.offset) hseconds

/-- The seconds of a moment on a clock that ticks once more for the leap second of `base`, if `base`
lies in one. -/
def clockSeconds (base m : Moment) : Int :=
  m.seconds + if base.isLeap ∧ (base.seconds < m.seconds ∨ m.isLeap) then 1 else 0

/-- A moment is a number of seconds after a base on the clock of the base. -/
structure IsAfter (base : Moment) (n : Int) (m : Moment) : Prop where
  seconds : base.clockSeconds m = base.clockSeconds base + n
  fraction : m.nanos % fullSecond = base.nanos % fullSecond
  nanos_lt : m.nanos < 2 * fullSecond
  /-- The clock knows no other leap second. -/
  leap : m.isLeap = true → base.isLeap = true ∧ m.seconds = base.seconds
  offset : m.offset = base.offset

theorem clockSeconds_of_not_leap {base : Moment} (h : ¬ base.isLeap = true) (m : Moment) :
    base.clockSeconds m = m.seconds := by
  unfold clockSeconds
  rw [if_neg (fun hleap => h hleap.1), Int.add_zero]

theorem clockSeconds_of_leap {base : Moment} (h : base.isLeap = true) (m : Moment) :
    base.clockSeconds m =
      m.seconds + if base.seconds < m.seconds ∨ fullSecond ≤ m.nanos then 1 else 0 := by
  unfold clockSeconds
  rw [if_congr (and_iff_right h) rfl rfl, if_congr (or_congr_right m.isLeap_iff) rfl rfl]

theorem plusSeconds_of_not_leap {base : Moment} (h : ¬ base.isLeap = true) (n : Int) :
    base.plusSeconds n = { base with seconds := base.seconds + n } := by
  unfold plusSeconds
  rw [if_neg (fun hleap => h hleap.1)]

theorem plusSeconds_zero (base : Moment) : base.plusSeconds 0 = base := by
  unfold plusSeconds
  rw [if_neg (fun hleap => hleap.2 rfl), Int.add_zero]

theorem plusSeconds_of_leap {base : Moment} (h : base.isLeap = true) {n : Int} (hn : n ≠ 0) :
    base.plusSeconds n = { base with
      seconds := base.seconds + n + (if n < 0 then 1 else 0), nanos := base.nanos - fullSecond } := by
  unfold plusSeconds
  rw [if_pos ⟨h, hn⟩]

/-- Moving a moment by some seconds gives the moment that is these seconds after it. -/
theorem isAfter_plusSeconds {base : Moment} (h : base.WellFormed) (n : Int) :
    base.IsAfter n (base.plusSeconds n) := by
  have hlt := h.nanos_lt
  by_cases hbase : base.isLeap = true
  · by_cases hn : n = 0
    · rw [hn, plusSeconds_zero]
      exact ⟨(Int.add_zero _).symm, rfl, hlt, fun _ => ⟨hbase, rfl⟩, rfl⟩
    · -- The fraction moves to a second that is no leap second.
      have hnanos := base.isLeap_iff.mp hbase
      have hlater : (base.plusSeconds n).nanos = base.nanos - fullSecond := by
        rw [plusSeconds_of_leap hbase hn]
      have hnotleap : ¬ fullSecond ≤ (base.plusSeconds n).nanos := by omega
      refine ⟨?_, ?_, by omega, fun hleap => absurd ((isLeap_iff _).mp hleap) hnotleap, ?_⟩
      · rw [clockSeconds_of_leap hbase, clockSeconds_of_leap hbase, if_pos (Or.inr hnanos),
          if_congr (or_iff_left hnotleap) rfl rfl, plusSeconds_of_leap hbase hn]
        dsimp only
        split <;> split <;> omega
      · rw [hlater]
        exact (Nat.mod_eq_sub_mod hnanos).symm
      · rw [plusSeconds_of_leap hbase hn]
  · rw [plusSeconds_of_not_leap hbase]
    refine ⟨?_, rfl, hlt, fun hleap => absurd hleap hbase, rfl⟩
    rw [clockSeconds_of_not_leap hbase, clockSeconds_of_not_leap hbase]

namespace IsAfter

variable {base m : Moment} {n : Int} (hafter : base.IsAfter n m)
include hafter

/-- The clock is at most one second ahead. -/
theorem natAbs_sub_le : (n - (m.seconds - base.seconds)).natAbs ≤ 1 := by
  have hseconds := hafter.seconds
  unfold clockSeconds at hseconds
  split at hseconds <;> split at hseconds <;> omega

variable (h : base.WellFormed)
include h

/-- No other moment is these seconds after it. -/
theorem eq_plusSeconds : m = base.plusSeconds n := by
  obtain ⟨hseconds, hfraction, hlt, hleap, hoffset⟩ := hafter
  obtain ⟨seconds, nanos, offset⟩ := m
  have hbaselt := h.nanos_lt
  have hfull : fullSecond = 1000000000 := rfl
  rw [isLeap_iff] at hleap
  rw [hfull] at hfraction
  dsimp only at hseconds hfraction hlt hleap hoffset
  by_cases hbase : base.isLeap = true
  · have hnanos := base.isLeap_iff.mp hbase
    rw [clockSeconds_of_leap hbase, clockSeconds_of_leap hbase, if_pos (Or.inr hnanos)] at hseconds
    dsimp only at hseconds
    by_cases hn : n = 0
    · rw [hn, plusSeconds_zero]
      have hsame : seconds = base.seconds := by split at hseconds <;> omega
      have hsameNanos : nanos = base.nanos := by split at hseconds <;> omega
      rw [hsame, hsameNanos, hoffset]
    · -- Off the leap second the fraction of the second is an ordinary one.
      rw [plusSeconds_of_leap hbase hn, Moment.mk.injEq]
      refine ⟨?_, ?_, hoffset⟩
      · split at hseconds <;> split <;> omega
      · split at hseconds <;> omega
  · have hnanos := mt base.isLeap_iff.mpr hbase
    rw [clockSeconds_of_not_leap hbase, clockSeconds_of_not_leap hbase] at hseconds
    have hnotleap : ¬ fullSecond ≤ nanos := fun hge => hbase (hleap hge).1
    rw [plusSeconds_of_not_leap hbase, Moment.mk.injEq]
    exact ⟨hseconds, by omega, hoffset⟩

/-- Moving keeps moments well-formed. -/
theorem wellFormed : m.WellFormed := by
  refine ⟨hafter.nanos_lt, fun hleap => ?_, by rw [hafter.offset]; exact h.offset_lt⟩
  obtain ⟨hbase, hseconds⟩ := hafter.leap hleap
  rw [hseconds]
  exact h.leap hbase

end IsAfter

end Moment
end BrokerQuery
