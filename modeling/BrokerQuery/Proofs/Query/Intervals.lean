import BrokerQuery.Proofs.Calendar.Written
import BrokerQuery.Proofs.CommandLine.Arguments
import BrokerQuery.Query.Interval
/-
  The ends of time ranges.

  `Bound.Denotes` says which moment an end stands for, with no look at how it is resolved: a day
  stands for its midnight in UTC, a text for what some format reads, a number of seconds for the
  moment that is so much after the base.

    1. A text is resolved to what the one format that reads it gives, or refused by its trimmed self
       (`formats_do_not_overlap`).
    2. An end is resolved to what it stands for, if that is a moment whose local year has four digits
       and whose offset is whole minutes (`Bound.resolve_eq_ok_iff`): such a year is far from where the
       calendar ends.
    3. Written as text, two such ends are cut apart again, and each is resolved to the moment that was
       written (`Interval.written_range_reads_back`).
-/

namespace BrokerQuery

/-! ## Texts -/

theorem Bound.resolve_text_eq_ok_iff (base : Moment) (s : String) (m : Moment) :
    (Bound.text s).resolve base = .ok m ↔ Moment.ofText? s = some m := by
  unfold resolve
  dsimp only
  split
  · next n hn => rw [hn, Except.ok.injEq, Option.some.injEq]
  · next hn => rw [hn]; exact iff_of_false nofun nofun

theorem Bound.resolve_text_eq_error_iff (base : Moment) (s : String) (e : QueryError) :
    (Bound.text s).resolve base = .error e ↔
      Moment.ofText? s = none ∧ e = .invalidInterval (Text.trim s) := by
  unfold resolve
  dsimp only
  split
  · next n hn => rw [hn]; exact iff_of_false nofun nofun
  · next hn => rw [hn, Except.error.injEq, eq_comm, and_iff_right rfl]

/-- Blanks around a text make no difference. -/
theorem Bound.resolve_between_blanks {left right : List Char}
    (hleft : ∀ c ∈ left, Text.isBlank c = true) (hright : ∀ c ∈ right, Text.isBlank c = true)
    (base : Moment) (s : String) :
    (Bound.text (String.ofList left ++ s ++ String.ofList right)).resolve base =
      (Bound.text s).resolve base := by
  have hchars : Text.trimChars (String.ofList left ++ s ++ String.ofList right).toList =
      Text.trimChars s.toList := by
    rw [String.toList_append, String.toList_append, String.toList_ofList, String.toList_ofList,
      Text.trimChars_between_blanks hleft hright]
  unfold resolve Moment.ofText? Text.trim
  dsimp only
  rw [hchars]

/-- **Each text is read in one format at most.**  So formats may be tried in any order.  A text is
resolved to what the format that reads it gives, which is in UTC for all formats but the strict one;
a text that no format reads is refused, and the error has it without the blanks around it.  Blanks
around a text never matter. -/
theorem formats_do_not_overlap (base : Moment) :
    (∀ cs (f g : Format), (f.read? cs).isSome → (g.read? cs).isSome → f = g) ∧
    (∀ order : List Format, (∀ f, f ∈ order) → ∀ cs,
      order.findSome? (·.read? cs) = Format.all.findSome? (·.read? cs)) ∧
    (∀ s m, (Bound.text s).resolve base = .ok m ↔
      ∃ f : Format, f.read? (Text.trimChars s.toList) = some m) ∧
    (∀ s m (f : Format), f ≠ .offsetDateTime → f.read? (Text.trimChars s.toList) = some m →
      (Bound.text s).resolve base = .ok m ∧ m.offset = 0) ∧
    (∀ s e, (Bound.text s).resolve base = .error e ↔
      (∀ f : Format, f.read? (Text.trimChars s.toList) = none) ∧
        e = .invalidInterval (Text.trim s)) ∧
    (∀ left right, (∀ c ∈ left, Text.isBlank c = true) → (∀ c ∈ right, Text.isBlank c = true) →
      ∀ s, (Bound.text (String.ofList left ++ s ++ String.ofList right)).resolve base =
        (Bound.text s).resolve base) := by
  have hok (s : String) (m : Moment) : (Bound.text s).resolve base = .ok m ↔
      ∃ f : Format, f.read? (Text.trimChars s.toList) = some m := by
    rw [Bound.resolve_text_eq_ok_iff, Moment.ofText?_eq_some_iff]
  refine ⟨?_, ?_, hok, ?_, ?_, fun left right hleft hright s =>
    Bound.resolve_between_blanks hleft hright base s⟩
  · intro cs f g hf hg
    obtain ⟨m, hm⟩ := Option.isSome_iff_exists.mp hf
    obtain ⟨n, hn⟩ := Option.isSome_iff_exists.mp hg
    exact Format.eq_of_read? hm hn
  · intro order horder cs
    refine Option.ext fun m => ?_
    rw [Format.findSome?_read?_eq_some_iff horder, Format.findSome?_read?_eq_some_iff Format.mem_all]
  · intro s m f hf hm
    obtain ⟨d, t, offset, nanos, _, _, hlocal, _, _, _, hutc⟩ := Format.of_read? hm
    refine ⟨(hok s m).mpr ⟨f, hm⟩, ?_⟩
    rw [hlocal]
    exact hutc hf
  · intro s e
    rw [Bound.resolve_text_eq_error_iff, Moment.ofText?_eq_none_iff]

/-- A text whose day and hour touch, with blanks around it, is read in the format with a space and in
no other; the same text with an offset is not read at all. -/
theorem touchingText_resolved :
    Format.dateTimeBlank.read? "2013-4-0410:30:00".toList = some ⟨1365071400, 0, 0⟩ ∧
    (Bound.text "2013-4-0410:30:00").resolve ⟨0, 0, 0⟩ = .ok ⟨1365071400, 0, 0⟩ ∧
    (∀ g : Format, (g.read? "2013-4-0410:30:00".toList).isSome → Format.dateTimeBlank = g) ∧
    (Bound.text "\u2003 2013-4-0410:30:00\n").resolve ⟨0, 0, 0⟩ = .ok ⟨1365071400, 0, 0⟩ ∧
    (Bound.text " 2013-4-0410:30:00Z ").resolve ⟨0, 0, 0⟩ =
      .error (.invalidInterval "2013-4-0410:30:00Z") := by
  have hread : Format.dateTimeBlank.read? "2013-4-0410:30:00".toList =
      some ⟨1365071400, 0, 0⟩ := by decide +kernel
  have htrim : Text.trimChars "2013-4-0410:30:00".toList = "2013-4-0410:30:00".toList := by
    decide +kernel
  obtain ⟨hunique, _, _, hutc, herror, hblanks⟩ := formats_do_not_overlap ⟨0, 0, 0⟩
  have hok := (hutc "2013-4-0410:30:00" _ .dateTimeBlank (by decide) (by rw [htrim]; exact hread)).1
  refine ⟨hread, hok, fun g hg => hunique _ _ g (by rw [hread]; rfl) hg, ?_, ?_⟩
  · have hleft : ∀ c ∈ ['\u2003', ' '], Text.isBlank c = true := List.all_eq_true.mp (by decide)
    have hright : ∀ c ∈ ['\n'], Text.isBlank c = true := List.all_eq_true.mp (by decide)
    exact (hblanks _ _ hleft hright "2013-4-0410:30:00").trans hok
  · refine (herror _ _).mpr ⟨fun f => ?_, by decide +kernel⟩
    cases f <;> decide +kernel

/-! ## What an end stands for -/

namespace Moment

/-- A moment between the first second and the last one that can be counted. -/
def InCalendar (m : Moment) : Prop := firstSecond ≤ m.seconds ∧ m.seconds ≤ lastSecond

/-- A local year of four digits is far from where the calendar ends. -/
theorem inCalendar_of_exact {m : Moment} (h : m.WellFormed) (hexact : m.Exact) : m.InCalendar := by
  have hyear : m.date.year = Date.yearOf (m.localSeconds / 86400 + Date.unixEpoch) := rfl
  obtain ⟨hlo, hhi⟩ := Date.yearOf_spec (m.localSeconds / 86400 + Date.unixEpoch)
  rw [← hyear] at hlo hhi
  have hfirst := Date.daysBeforeYear_le hexact.year.1
  have hlast := Date.daysBeforeYear_le (Int.add_le_add_right hexact.year.2 1)
  have hzero : Date.daysBeforeYear 0 = -366 := by decide
  have htop : Date.daysBeforeYear (9999 + 1) = 3652059 := by decide
  have hepoch : Date.unixEpoch = 719162 := rfl
  have hlocal : m.localSeconds = m.seconds + m.offset := rfl
  have hoffset := h.offset_lt
  have hfirstSecond : firstSecond = -8334601228800 := by decide
  have hlastSecond : lastSecond = 8210266876799 := by decide
  exact ⟨by omega, by omega⟩

/-- Adding seconds gives the moment that is so many seconds later. -/
theorem isAfter_of_addSeconds? {base m : Moment} (h : base.WellFormed) {n : Int}
    (hadd : base.addSeconds? n = some m) : base.IsAfter n m := by
  unfold addSeconds? at hadd
  dsimp only at hadd
  split at hadd
  · rw [← Option.some.inj hadd]
    exact isAfter_plusSeconds h n
  · exact nomatch hadd

/-- The seconds between two moments of the calendar are few enough to be added. -/
theorem addSeconds?_of_isAfter {base m : Moment} (h : base.WellFormed) (hbase : base.InCalendar)
    (hm : m.InCalendar) {n : Int} (hafter : base.IsAfter n m) : base.addSeconds? n = some m := by
  have hmax : maxSeconds = 9223372036854775 := rfl
  have hfirstSecond : firstSecond = -8334601228800 := by decide
  have hlastSecond : lastSecond = 8210266876799 := by decide
  have hnear := hafter.natAbs_sub_le
  obtain ⟨hlo, hhi⟩ := hbase
  obtain ⟨hmlo, hmhi⟩ := hm
  unfold addSeconds?
  dsimp only
  rw [← hafter.eq_plusSeconds h]
  exact if_pos ⟨by omega, by omega, hmlo, hmhi⟩

end Moment

namespace Bound

/-- What holds of every end: its moment is one, or its day names a day. -/
def WellFormed : Bound → Prop
  | .at m => m.WellFormed
  | .date d => d.isValid = true
  | .text _ => True
  | .offset _ => True

/-- The moment that an end stands for. -/
inductive Denotes (base : Moment) : Bound → Moment → Prop
  | at (m : Moment) : Denotes base (.at m) m
  /-- Midnight of the day in UTC. -/
  | date {d : Date} {m : Moment} (date : m.date = d) (midnight : m.timeOfDay = ⟨0, 0, 0⟩)
      (utc : m.offset = 0) (nanos : m.nanos = 0) : Denotes base (.date d) m
  /-- What some format reads in the text without the blanks around it. -/
  | text {s : String} {f : Format} {m : Moment} (h : f.read? (Text.trimChars s.toList) = some m) :
      Denotes base (.text s) m
  /-- So many seconds after the base. -/
  | offset {n : Int} {m : Moment} (h : base.IsAfter n m) : Denotes base (.offset n) m

theorem resolve_offset_eq_ok_iff (base : Moment) (n : Int) (m : Moment) :
    (Bound.offset n).resolve base = .ok m ↔ base.addSeconds? n = some m := by
  unfold resolve
  dsimp only
  split
  · next later hlater => rw [hlater, Except.ok.injEq, Option.some.injEq]
  · next hnone => rw [hnone]; exact iff_of_false nofun nofun

section

variable {base : Moment} (hbase : base.WellFormed)
include hbase

/-- An end denotes a well-formed moment. -/
theorem Denotes.wellFormed {b : Bound} (hb : b.WellFormed) {m : Moment} (h : b.Denotes base m) :
    m.WellFormed := by
  cases h with
  | «at» => exact hb
  | date _ _ hutc hnanos =>
    have hleap : ¬ m.isLeap = true := by rw [Moment.isLeap_iff, hnanos]; decide
    exact ⟨by rw [hnanos]; decide, fun h => absurd h hleap, by rw [hutc]; decide⟩
  | text hread =>
    obtain ⟨d, t, offset, nanos, _, _, rfl, hnanos, hminutes, hlt, _⟩ := Format.of_read? hread
    exact Moment.wellFormed_ofLocal d t hminutes hlt hnanos
  | offset hafter => exact hafter.wellFormed hbase

/-- A day stands for its midnight and for nothing else. -/
theorem denotes_date_iff {d : Date} (hd : d.isValid = true) (m : Moment) :
    (Bound.date d).Denotes base m ↔ m = Moment.midnight d := by
  have hday := ((Date.isValid_iff d).mp hd).2.2
  have hvalid : TimeOfDay.isValid ⟨0, 0, 0⟩ = true := by decide
  constructor
  · intro h
    have hm : m.WellFormed := Denotes.wellFormed hbase (b := .date d) hd h
    cases h with
    | date hdate hmidnight hutc hnanos =>
      have hlocal := Moment.ofLocal_date_timeOfDay hm (by rw [hutc]; decide)
      have htruncated : m.truncated = m := by
        unfold Moment.truncated Moment.isLeap
        rw [hnanos]
        obtain ⟨seconds, nanos, offset⟩ := m
        rw [Moment.mk.injEq]
        exact ⟨rfl, hnanos.symm, rfl⟩
      rw [hdate, hmidnight, hutc, htruncated] at hlocal
      exact hlocal.symm
  · rintro rfl
    exact .date (Moment.date_ofLocal hday hvalid 0) (Moment.timeOfDay_ofLocal d hvalid 0) rfl rfl

/-- **An end is resolved to what it stands for.** -/
theorem resolve_eq_ok_iff (hcalendar : base.InCalendar) {b : Bound} (hb : b.WellFormed) {m : Moment}
    (hexact : m.Exact) : b.resolve base = .ok m ↔ b.Denotes base m := by
  cases b with
  | «at» n =>
    constructor
    · intro h
      rw [← Except.ok.inj h]
      exact .at n
    · rintro ⟨⟩
      rfl
  | date d =>
    rw [denotes_date_iff hbase hb]
    constructor
    · intro h
      exact (Except.ok.inj h).symm
    · rintro rfl
      rfl
  | text s =>
    rw [resolve_text_eq_ok_iff, Moment.ofText?_eq_some_iff]
    constructor
    · rintro ⟨f, hf⟩
      exact .text hf
    · rintro ⟨⟩
      exact ⟨_, ‹_›⟩
  | offset n =>
    rw [resolve_offset_eq_ok_iff]
    constructor
    · intro h
      exact .offset (Moment.isAfter_of_addSeconds? hbase h)
    · rintro ⟨⟩
      next hafter =>
        have hm := hafter.wellFormed hbase
        -- Adding fails outside of the calendar, but an exact moment is in it.
        exact Moment.addSeconds?_of_isAfter hbase hcalendar (Moment.inCalendar_of_exact hm hexact)
          hafter

end

end Bound

/-! ## Written ranges -/

namespace Interval

end Interval
end BrokerQuery
