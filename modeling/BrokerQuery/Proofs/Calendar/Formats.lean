import BrokerQuery.Proofs.Calendar.Moment
import BrokerQuery.Proofs.Numeral
import BrokerQuery.Proofs.Text
/-
  What the formats of moments read, and that no text is written in two of them.

  All four formats begin with a date, and what follows the date tells which of them it is
  (`Format.ofTail`): nothing, a `T` and a time, a time, or a mark, a time and something more.

    1. A text that a format reads consists of the parts that this format scans, one after the other
       (`Format.reads_of_read?`).
    2. Where the strict scanners find a date or a time, the lenient ones find the same and leave the
       same (`date_of_fixedDate`, `time_of_fixedTime`): they skip no blank where a digit stands, and
       take no digit beyond the width.
    3. So a text that a format reads has a date in the lenient way, and what follows it is a tail of
       this format (`Format.ofTail_of_read?`).
    4. As the date is the same for all formats, only one of them reads the text
       (`Format.eq_of_read?`), and any order of trying them finds it
       (`Format.findSome?_read?_eq_some_iff`).

  What a format reads is a date and a time at an offset of whole minutes, which only the strict one has
  (`Format.of_read?`).
-/

namespace BrokerQuery

namespace Scanner

/-! ## Numbers -/

/-- A number of a fixed width is that many digits at the front. -/
theorem of_fixed_eq_some {n v : Nat} {cs rest : List Char} (h : fixed n cs = some (v, rest)) :
    ∃ ds, cs = ds ++ rest ∧ ds.length = n ∧ (∀ c ∈ ds, c.isDigit = true) ∧ v = Numeral.value ds := by
  unfold fixed at h
  dsimp only at h
  split at h
  · next hds =>
    obtain ⟨hlength, hall⟩ := hds
    obtain ⟨hvalue, hrest⟩ := Prod.mk.inj (Option.some.inj h)
    refine ⟨cs.take n, ?_, hlength, List.all_eq_true.mp hall, hvalue.symm⟩
    rw [← hrest, List.take_append_drop]
  · exact nomatch h

/-- A lenient number that may have `n` digits takes the `n` digits of a strict one. -/
theorem digits_of_fixed {n v : Nat} (hn : 0 < n) {cs rest : List Char}
    (h : fixed n cs = some (v, rest)) : digits n cs = some (v, rest) := by
  obtain ⟨ds, rfl, hlength, hdigits, rfl⟩ := of_fixed_eq_some h
  have hall : ds.takeWhile Char.isDigit = ds := List.takeWhile_eq_self_iff.mpr hdigits
  have hne : ds.isEmpty = false := by
    rw [List.isEmpty_eq_false_iff]
    rintro rfl
    exact absurd hlength (by simp; omega)
  unfold digits
  dsimp only
  rw [List.take_left' hlength, hall, hne, List.drop_left]
  rfl

/-- A strict number starts with a digit, which no scanner skips. -/
theorem head_of_fixed {n v : Nat} (hn : 0 < n) {cs rest : List Char}
    (h : fixed n cs = some (v, rest)) : ∃ c tail, cs = c :: tail ∧ c.isDigit = true := by
  obtain ⟨ds, rfl, hlength, hdigits, _⟩ := of_fixed_eq_some h
  cases ds with
  | nil => exact absurd hlength (by simp; omega)
  | cons c ds => exact ⟨c, ds ++ rest, rfl, hdigits c List.mem_cons_self⟩

theorem trimStart_cons {c : Char} (h : Text.isBlank c = false) (cs : List Char) :
    Text.trimStart (c :: cs) = c :: cs := by
  unfold Text.trimStart
  rw [List.dropWhile_cons, h]
  rfl

theorem trimStart_trimStart (cs : List Char) :
    Text.trimStart (Text.trimStart cs) = Text.trimStart cs :=
  List.dropWhile_idempotent _ cs

/-- What is read as two digits is also read as a number. -/
theorem number_of_fixed {v : Nat} {cs rest : List Char} (h : fixed 2 cs = some (v, rest)) :
    number cs = some (v, rest) := by
  obtain ⟨c, tail, rfl, hc⟩ := head_of_fixed (by decide) h
  unfold number
  rw [trimStart_cons (Text.isBlank_of_isDigit hc), digits_of_fixed (by decide) h]

/-- What is read as four digits is also read as a year without a sign. -/
theorem year_of_fixed {v : Nat} {cs rest : List Char} (h : fixed 4 cs = some (v, rest)) :
    year cs = some ((v : Int), rest) := by
  obtain ⟨c, tail, rfl, hc⟩ := head_of_fixed (by decide) h
  have hdigits := digits_of_fixed (by decide) h
  unfold year
  rw [trimStart_cons (Text.isBlank_of_isDigit hc)]
  split
  · next hsign => exact absurd hc (by rw [(List.cons.inj hsign).1]; decide)
  · next hsign => exact absurd hc (by rw [(List.cons.inj hsign).1]; decide)
  · rw [hdigits]; rfl

/-- Where neither a blank nor a digit stands, there is no number. -/
theorem number_of_other {c : Char} (hblank : Text.isBlank c = false) (hdigit : c.isDigit = false)
    (cs : List Char) : number (c :: cs) = none := by
  unfold number digits
  rw [trimStart_cons hblank, List.take_succ_cons, List.takeWhile_cons, hdigit]
  rfl

/-! ## Dates and times -/

theorem of_char_eq_some {c : Char} {cs rest : List Char} (h : char c cs = some rest) :
    cs = c :: rest := by
  cases cs with
  | nil => exact nomatch h
  | cons d tail =>
    have hif : (if d = c then some tail else none) = some rest := h
    split at hif
    · next hd => rw [hd, Option.some.inj hif]
    · exact nomatch hif

/-- What may stand between a date and a time. -/
theorem of_mark_eq_some {cs rest : List Char} (h : mark cs = some rest) :
    ∃ c, cs = c :: rest ∧ (c = 'T' ∨ c = 't' ∨ c = ' ') := by
  cases cs with
  | nil => exact nomatch h
  | cons c tail =>
    have hif : (if c = 'T' ∨ c = 't' ∨ c = ' ' then some tail else none) = some rest := h
    split at hif
    · next hc => exact ⟨c, by rw [Option.some.inj hif], hc⟩
    · exact nomatch hif

theorem date_of_fixedDate {cs rest : List Char} {d : Date} (h : fixedDate cs = some (d, rest)) :
    date cs = some (d, rest) := by
  unfold fixedDate at h
  simp only [Option.bind_eq_bind, Option.bind_eq_some_iff, Prod.exists] at h
  obtain ⟨y, r₁, hy, r₂, hdash, m, r₃, hm, r₄, hdash', n, r₅, hn, hd⟩ := h
  unfold date
  simp only [year_of_fixed hy, hdash, number_of_fixed hm, hdash', number_of_fixed hn,
    Option.bind_eq_bind, Option.bind_some]
  exact hd

theorem time_of_fixedTime {cs rest : List Char} {t : TimeOfDay}
    (h : fixedTime cs = some (t, rest)) : time cs = some (t, rest) := by
  unfold fixedTime at h
  simp only [Option.bind_eq_bind, Option.bind_eq_some_iff, Prod.exists] at h
  obtain ⟨n, r₁, hn, r₂, hcolon, m, r₃, hm, r₄, hcolon', s, r₅, hs, ht⟩ := h
  unfold time
  simp only [number_of_fixed hn, hcolon, number_of_fixed hm, hcolon', number_of_fixed hs,
    Option.bind_eq_bind, Option.bind_some]
  exact ht

/-- Blanks before a time do not count. -/
theorem time_trimStart (cs : List Char) : time (Text.trimStart cs) = time cs := by
  unfold time number
  rw [trimStart_trimStart]

/-- A fraction is less than a second. -/
theorem lt_of_fraction_eq_some {n : Nat} {cs rest : List Char}
    (h : fraction cs = some (n, rest)) : n < Moment.fullSecond := by
  have hnone : 0 < Moment.fullSecond := by decide
  unfold fraction at h
  split at h
  · next tail =>
    dsimp only at h
    split at h
    · exact nomatch h
    · have hvalue := (Prod.mk.inj (Option.some.inj h)).1
      have hdigits : ∀ c ∈ (tail.takeWhile Char.isDigit ++ List.replicate 9 '0').take 9,
          c.isDigit = true := by
        intro c hc
        rcases List.mem_append.mp (List.mem_of_mem_take hc) with hdigit | hzero
        · exact List.mem_takeWhile_imp hdigit
        · rw [List.eq_of_mem_replicate hzero]; rfl
      rw [← hvalue]
      exact (Numeral.value_lt hdigits).trans_le
        (Nat.pow_le_pow_right (by decide) (List.length_take_le 9 _))
  · rw [← (Prod.mk.inj (Option.some.inj h)).1]
    exact hnone

theorem of_offsetSign_eq_some {c : Char} {sign : Int} (h : offsetSign c = some sign) :
    sign = 1 ∨ sign = -1 := by
  unfold offsetSign at h
  split at h
  · exact Or.inl (Option.some.inj h).symm
  · exact Or.inr (Option.some.inj h).symm
  · split at h
    · exact Or.inr (Option.some.inj h).symm
    · exact nomatch h

/-- An offset is whole minutes and less than a day. -/
theorem of_offset_eq_some {n : Int} {cs rest : List Char} (h : offset cs = some (n, rest)) :
    60 ∣ n ∧ n.natAbs < 86400 := by
  cases cs with
  | nil => exact nomatch h
  | cons c tail =>
    unfold offset at h
    dsimp only at h
    split at h
    · rw [← (Prod.mk.inj (Option.some.inj h)).1]
      decide
    · simp only [Option.bind_eq_bind, Option.bind_eq_some_iff, Prod.exists] at h
      obtain ⟨sign, hsign, hour, r₁, _, r₂, _, minute, r₃, _, hvalid⟩ := h
      split at hvalid
      · next hlt =>
        have hn : sign * ((hour * 3600 + minute * 60 : Nat) : Int) = n :=
          (Prod.mk.inj (Option.some.inj hvalid)).1
        rcases of_offsetSign_eq_some hsign with rfl | rfl <;> omega
      · exact nomatch hvalid

/-- A time starts with a number. -/
theorem time_of_number_eq_none {cs : List Char} (h : number cs = none) : time cs = none := by
  unfold time
  rw [h]
  rfl

end Scanner

/-! ## Formats -/

namespace Format

open Scanner (time date)

/-- The format of a text by what follows the date: a mark and a time that something follows, the mark
of a date with time, a time, or nothing. -/
def ofTail : List Char → Format
  | [] => .dateOnly
  | c :: cs =>
    if (c = 'T' ∨ c = 't' ∨ c = ' ') ∧ (time cs).any (·.2 ≠ []) then .offsetDateTime
    else if c = 'T' then .dateTimeMark
    else .dateTimeBlank

/-- A mark and then a time to the end. -/
theorem ofTail_of_mark {cs : List Char} {t : TimeOfDay} (h : time cs = some (t, [])) :
    ofTail ('T' :: cs) = .dateTimeMark := by
  have hmore : ¬ (('T' = 'T' ∨ 'T' = 't' ∨ 'T' = ' ') ∧ (time cs).any (·.2 ≠ []) = true) := by
    rw [h]
    rintro ⟨_, hrest⟩
    exact nomatch hrest
  show (if _ then _ else _) = _
  rw [if_neg hmore, if_pos rfl]

/-- A time to the end, with or without space in front of it. -/
theorem ofTail_of_time {cs : List Char} {t : TimeOfDay} (h : time cs = some (t, [])) :
    ofTail cs = .dateTimeBlank := by
  have hletter {c : Char} (hblank : Text.isBlank c = false) (hdigit : c.isDigit = false)
      (tail : List Char) : time (c :: tail) = none :=
    Scanner.time_of_number_eq_none (Scanner.number_of_other hblank hdigit tail)
  cases cs with
  | nil => exact nomatch h
  | cons c tail =>
    have hupper : c ≠ 'T' := by
      rintro rfl
      exact nomatch h.symm.trans (hletter (by decide) (by decide) tail)
    have hlower : c ≠ 't' := by
      rintro rfl
      exact nomatch h.symm.trans (hletter (by decide) (by decide) tail)
    -- After a space the time is found all the same, and it still leaves nothing.
    have hmore : ¬ ((c = 'T' ∨ c = 't' ∨ c = ' ') ∧ (time tail).any (·.2 ≠ []) = true) := by
      rintro ⟨hmark, hrest⟩
      have hspace : c = ' ' := by
        rcases hmark with hc | hc | hc
        · exact absurd hc hupper
        · exact absurd hc hlower
        · exact hc
      have hskip : time (c :: tail) = time tail := by
        rw [hspace, ← Scanner.time_trimStart, ← Scanner.time_trimStart tail]
        rfl
      rw [← hskip, h] at hrest
      exact nomatch hrest
    show (if _ then _ else _) = _
    rw [if_neg hmore, if_neg hupper]

/-- A mark and then a time that something follows. -/
theorem ofTail_of_more {c : Char} (hc : c = 'T' ∨ c = 't' ∨ c = ' ') {cs after : List Char}
    {t : TimeOfDay} (h : time cs = some (t, after)) (hafter : after ≠ []) :
    ofTail (c :: cs) = .offsetDateTime := by
  have hany : (time cs).any (·.2 ≠ []) = true := by
    rw [h]
    exact decide_eq_true hafter
  exact if_pos ⟨hc, hany⟩

/-- What is checked at the end of a text: nothing is left over, and the numbers name a moment. -/
theorem of_end {cs : List Char} {m? : Option Moment} {m : Moment}
    (h : (if cs.isEmpty then m? else none) = some m) : cs = [] ∧ m? = some m := by
  split at h
  · next hnil => exact ⟨List.isEmpty_iff.mp hnil, h⟩
  · exact nomatch h

/-- The parts of a text that a format reads, each of them left by the one before, with nothing after
the last. -/
inductive Reads : Format → List Char → Moment → Prop
  | offsetDateTime {cs r₁ r₂ r₃ r₄ : List Char} {d : Date} {t : TimeOfDay} {nanos : Nat} {n : Int}
      {m : Moment} (date : Scanner.fixedDate cs = some (d, r₁)) (mark : Scanner.mark r₁ = some r₂)
      (time : Scanner.fixedTime r₂ = some (t, r₃)) (fraction : Scanner.fraction r₃ = some (nanos, r₄))
      (offset : Scanner.offset r₄ = some (n, [])) (moment : Moment.ofLocal? d t n = some m) :
      Reads .offsetDateTime cs (m.plusNanos nanos)
  | dateTimeMark {cs r₁ r₂ : List Char} {d : Date} {t : TimeOfDay} {m : Moment}
      (date : Scanner.date cs = some (d, r₁)) (mark : Scanner.char 'T' r₁ = some r₂)
      (time : Scanner.time r₂ = some (t, [])) (moment : Moment.ofLocal? d t 0 = some m) :
      Reads .dateTimeMark cs m
  | dateTimeBlank {cs r₁ : List Char} {d : Date} {t : TimeOfDay} {m : Moment}
      (date : Scanner.date cs = some (d, r₁))
      (time : Scanner.time (Text.trimStart r₁) = some (t, []))
      (moment : Moment.ofLocal? d t 0 = some m) : Reads .dateTimeBlank cs m
  | dateOnly {cs : List Char} {d : Date} {m : Moment} (date : Scanner.date cs = some (d, []))
      (moment : Moment.ofLocal? d ⟨0, 0, 0⟩ 0 = some m) : Reads .dateOnly cs m

/-- A text that a format reads consists of the parts of this format. -/
theorem reads_of_read? {f : Format} {cs : List Char} {m : Moment} (h : f.read? cs = some m) :
    f.Reads cs m := by
  -- In each format the parts are read off the scanner, and then that nothing is left over.
  cases f with
  | offsetDateTime =>
    simp only [read?, Option.bind_eq_bind, Option.bind_eq_some_iff, Prod.exists] at h
    obtain ⟨d, r₁, hdate, r₂, hmark, t, r₃, htime, nanos, r₄, hfraction, n, r₅, hoffset, hend⟩ := h
    obtain ⟨rfl, hmap⟩ := of_end hend
    obtain ⟨m', hmoment, rfl⟩ := Option.map_eq_some_iff.mp hmap
    exact .offsetDateTime hdate hmark htime hfraction hoffset hmoment
  | dateTimeMark =>
    simp only [read?, Option.bind_eq_bind, Option.bind_eq_some_iff, Prod.exists] at h
    obtain ⟨d, r₁, hdate, r₂, hmark, t, r₃, htime, hend⟩ := h
    obtain ⟨rfl, hmoment⟩ := of_end hend
    exact .dateTimeMark hdate hmark htime hmoment
  | dateTimeBlank =>
    simp only [read?, Option.bind_eq_bind, Option.bind_eq_some_iff, Prod.exists] at h
    obtain ⟨d, r₁, hdate, t, r₂, htime, hend⟩ := h
    obtain ⟨rfl, hmoment⟩ := of_end hend
    exact .dateTimeBlank hdate htime hmoment
  | dateOnly =>
    simp only [read?, Option.bind_eq_bind, Option.bind_eq_some_iff, Prod.exists] at h
    obtain ⟨d, r₁, hdate, hend⟩ := h
    obtain ⟨rfl, hmoment⟩ := of_end hend
    exact .dateOnly hdate hmoment

/-- A text that a format reads has a date, and what follows the date tells the format. -/
theorem ofTail_of_read? {f : Format} {cs : List Char} {m : Moment} (h : f.read? cs = some m) :
    ∃ d rest, date cs = some (d, rest) ∧ ofTail rest = f := by
  cases reads_of_read? h with
  | offsetDateTime hdate hmark htime hfraction hoffset hmoment =>
    obtain ⟨c, rfl, hc⟩ := Scanner.of_mark_eq_some hmark
    refine ⟨_, _, Scanner.date_of_fixedDate hdate,
      ofTail_of_more hc (Scanner.time_of_fixedTime htime) ?_⟩
    -- Something follows the time, as there is still an offset to be read.
    rintro rfl
    have hnil := (Prod.mk.inj (Option.some.inj hfraction)).2
    rw [← hnil] at hoffset
    exact nomatch hoffset
  | dateTimeMark hdate hmark htime hmoment =>
    rw [Scanner.of_char_eq_some hmark] at hdate
    exact ⟨_, _, hdate, ofTail_of_mark htime⟩
  | dateTimeBlank hdate htime hmoment =>
    rw [Scanner.time_trimStart] at htime
    exact ⟨_, _, hdate, ofTail_of_time htime⟩
  | dateOnly hdate hmoment => exact ⟨_, [], hdate, rfl⟩

/-- **One format at most reads a text.** -/
theorem eq_of_read? {f g : Format} {cs : List Char} {m n : Moment} (hf : f.read? cs = some m)
    (hg : g.read? cs = some n) : f = g := by
  obtain ⟨d, rest, hdate, htail⟩ := ofTail_of_read? hf
  obtain ⟨d', rest', hdate', htail'⟩ := ofTail_of_read? hg
  have hrest : rest = rest' := (Prod.mk.inj (Option.some.inj (hdate.symm.trans hdate'))).2
  rw [← htail, ← htail', hrest]

/-- What a format reads: a day and a time of day at an offset, which is UTC in all formats but the
strict one. -/
theorem of_read? {f : Format} {cs : List Char} {m : Moment} (h : f.read? cs = some m) :
    ∃ d t offset nanos, d.isValid = true ∧ t.isValid = true ∧
      m = (Moment.ofLocal d t offset).plusNanos nanos ∧ nanos < Moment.fullSecond ∧
      60 ∣ offset ∧ offset.natAbs < 86400 ∧ (f ≠ .offsetDateTime → offset = 0) := by
  have hnone : 0 < Moment.fullSecond := by decide
  have hutc {d : Date} {t : TimeOfDay} (hlocal : Moment.ofLocal? d t 0 = some m) :
      ∃ d t offset nanos, d.isValid = true ∧ t.isValid = true ∧
        m = (Moment.ofLocal d t offset).plusNanos nanos ∧ nanos < Moment.fullSecond ∧
        60 ∣ offset ∧ offset.natAbs < 86400 ∧ (f ≠ .offsetDateTime → offset = 0) := by
    obtain ⟨hd, ht, hm⟩ := (Moment.ofLocal?_eq_some_iff d t 0 m).mp hlocal
    exact ⟨d, t, 0, 0, hd, ht, hm, hnone, by decide, by decide, fun _ => rfl⟩
  cases reads_of_read? h with
  | offsetDateTime hdate hmark htime hfraction hoffset hmoment =>
    obtain ⟨hd, ht, rfl⟩ := (Moment.ofLocal?_eq_some_iff _ _ _ _).mp hmoment
    obtain ⟨hminutes, hlt⟩ := Scanner.of_offset_eq_some hoffset
    exact ⟨_, _, _, _, hd, ht, rfl, Scanner.lt_of_fraction_eq_some hfraction, hminutes, hlt,
      fun hne => absurd rfl hne⟩
  | dateTimeMark hdate hmark htime hmoment => exact hutc hmoment
  | dateTimeBlank hdate htime hmoment => exact hutc hmoment
  | dateOnly hdate hmoment => exact hutc hmoment

/-- Formats that are tried one after another read what one of them reads, in whatever order. -/
theorem findSome?_read?_eq_some_iff {order : List Format} (horder : ∀ f, f ∈ order)
    (cs : List Char) (m : Moment) :
    order.findSome? (·.read? cs) = some m ↔ ∃ f : Format, f.read? cs = some m := by
  constructor
  · intro h
    obtain ⟨f, _, hf⟩ := List.exists_of_findSome?_eq_some h
    exact ⟨f, hf⟩
  · rintro ⟨f, hf⟩
    have hsome : (order.findSome? (·.read? cs)).isSome = true :=
      List.findSome?_isSome_iff.mpr ⟨f, horder f, by rw [hf]; rfl⟩
    obtain ⟨n, hn⟩ := Option.isSome_iff_exists.mp hsome
    obtain ⟨g, _, hg⟩ := List.exists_of_findSome?_eq_some hn
    have hsame : g = f := eq_of_read? hg hf
    rw [hn, ← hg, hsame, hf]

theorem mem_all (f : Format) : f ∈ all := by cases f <;> decide

end Format

/-- A text is a moment iff some format reads it without the blanks around it. -/
theorem Moment.ofText?_eq_some_iff (s : String) (m : Moment) :
    Moment.ofText? s = some m ↔ ∃ f : Format, f.read? (Text.trimChars s.toList) = some m :=
  Format.findSome?_read?_eq_some_iff Format.mem_all _ m

/-- A text is no moment iff no format reads it. -/
theorem Moment.ofText?_eq_none_iff (s : String) :
    Moment.ofText? s = none ↔ ∀ f : Format, f.read? (Text.trimChars s.toList) = none := by
  rw [Moment.ofText?, List.findSome?_eq_none_iff]
  exact ⟨fun h f => h f f.mem_all, fun h f _ => h f⟩

end BrokerQuery
