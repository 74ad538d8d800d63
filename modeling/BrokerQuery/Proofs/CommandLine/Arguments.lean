import BrokerQuery.CommandLine.Options
import BrokerQuery.Number.Whole
import BrokerQuery.Proofs.Numeral
import BrokerQuery.Proofs.Text
/-
  Values written as arguments and read back.

  A setting has values of its own kind (`Setting.Value`): a whole number for the timeout, a condition
  for a filter, a range for the interval, and a text for all others.  `Setting.write` is the text of
  a value.  What the parts of a text may not contain is said by `Setting.Writable`.

    1. A number is read back digit by digit (`readSeconds_text`): no part of it is too large.
    2. A condition is cut at its first equals sign and then at its commas, and its parts stay whole
       as they have none of these (`FilterArg.ofText_text`); a range is cut at its first slash
       (`IntervalArg.ofText_text`).
    3. So the reader of each setting reads what was written (`Setting.read_write`).
-/

namespace BrokerQuery

/-! ## Numbers -/

/-- Digits are read as their value if that is small enough, whatever was read before them. -/
theorem readSeconds.go_of_lt {ds : List Char} (hdigits : ∀ c ∈ ds, c.isDigit = true) {n : Nat}
    (hlt : ds.foldl (fun n c => n * 10 + Numeral.digit c) n < Nat.pow 2 64) :
    go n ds = .ok (ds.foldl (fun n c => n * 10 + Numeral.digit c) n) := by
  induction ds generalizing n with
  | nil => rfl
  | cons c ds ih =>
    obtain ⟨hc, hds⟩ := List.forall_mem_cons.mp hdigits
    rw [List.foldl_cons] at hlt ⊢
    have hsmall : ¬ Nat.pow 2 64 ≤ n * 10 + (c.toNat - '0'.toNat) :=
      Nat.not_le.mpr (Nat.lt_of_le_of_lt (Numeral.le_foldl_digit _ ds) hlt)
    rw [go, hc]
    show (if Nat.pow 2 64 ≤ n * 10 + (c.toNat - '0'.toNat) then _ else _) = _
    rw [if_neg hsmall]
    exact ih hds hlt

/-- Without a plus sign in front, all characters are taken for digits. -/
theorem readSeconds_of_ne_plus {s : String} {d : Char} {ds : List Char} (hs : s.toList = d :: ds)
    (hd : d ≠ '+') : readSeconds s = readSeconds.go 0 (d :: ds) := by
  simp [readSeconds, hs, hd]

/-- Seconds of 64 bits are read back from their digits. -/
theorem readSeconds_text {n : Nat} (h : n < Nat.pow 2 64) : readSeconds (Whole.text n) = .ok n := by
  have hchars : (Whole.text n).toList = Nat.toDigits 10 n := by
    rw [Whole.text, String.toList_ofList, Whole.chars, if_neg (by omega), List.nil_append,
      Int.natAbs_natCast]
  have hvalue : (Nat.toDigits 10 n).foldl (fun n c => n * 10 + Numeral.digit c) 0 = n :=
    Numeral.value_toDigits n
  have hgo := readSeconds.go_of_lt (Numeral.isDigit_toDigits n) (lt_of_eq_of_lt hvalue h)
  rw [hvalue] at hgo
  cases hds : Nat.toDigits 10 n with
  | nil => exact absurd hds Nat.toDigits_ne_nil
  | cons d ds =>
    have hd : d ≠ '+' := by
      rintro rfl
      exact nomatch Numeral.isDigit_toDigits n '+' (hds ▸ List.mem_cons_self)
    rw [readSeconds_of_ne_plus (hchars.trans hds) hd, ← hds]
    exact hgo

/-! ## Conditions and ranges -/

/-- A text that stays as it is where blanks around it are dropped and blank texts are refused. -/
structure Text.Solid (s : String) : Prop where
  ne_empty : s ≠ ""
  trim_eq : Text.trim s = s

namespace Text.Solid

instance (s : String) : Decidable (Solid s) :=
  decidable_of_iff (s ≠ "" ∧ trim s = s) ⟨fun h => ⟨h.1, h.2⟩, fun h => ⟨h.1, h.2⟩⟩

variable {s : String} (h : Solid s)
include h

theorem trimChars_eq : trimChars s.toList = s.toList := by
  have htrim := congrArg String.toList h.trim_eq
  rwa [trim, String.toList_ofList] at htrim

theorem toList_ne_nil : s.toList ≠ [] :=
  fun hnil => h.ne_empty (String.toList_eq_nil_iff.mp hnil)

end Text.Solid

/-- A condition whose parts can be told apart when it is written. -/
structure FilterArg.Writable (a : FilterArg) : Prop where
  dimension : Text.Solid a.dimension
  no_equals : '=' ∉ a.dimension.toList
  values_ne_nil : a.values ≠ []
  values : ∀ v ∈ a.values, Text.Solid v
  no_comma : ∀ v ∈ a.values, ',' ∉ v.toList

instance (a : FilterArg) : Decidable a.Writable :=
  decidable_of_iff (Text.Solid a.dimension ∧ '=' ∉ a.dimension.toList ∧ a.values ≠ [] ∧
      (∀ v ∈ a.values, Text.Solid v) ∧ ∀ v ∈ a.values, ',' ∉ v.toList)
    ⟨fun ⟨hd, he, hne, hv, hc⟩ => ⟨hd, he, hne, hv, hc⟩,
      fun h => ⟨h.dimension, h.no_equals, h.values_ne_nil, h.values, h.no_comma⟩⟩

/-- The text of a condition, `dim=v1,v2`. -/
def FilterArg.text (a : FilterArg) : String := a.dimension ++ "=" ++ Text.join "," a.values

/-- Solid texts without commas are read back from the text that has commas between them. -/
theorem FilterArg.readValues_join {vs : List String} (hne : vs ≠ [])
    (hsolid : ∀ v ∈ vs, Text.Solid v) (hcomma : ∀ v ∈ vs, ',' ∉ v.toList) :
    readValues (Text.join "," vs).toList = vs := by
  have hpieces : Text.pieces ',' (Text.join "," vs).toList = vs.map String.toList := by
    rw [Text.join, String.toList_intercalate]
    refine Text.pieces_intercalate (mt List.map_eq_nil_iff.mp hne) fun p hp => ?_
    obtain ⟨v, hv, rfl⟩ := List.mem_map.mp hp
    exact hcomma v hv
  have htrim : (vs.map String.toList).map Text.trimChars = vs.map String.toList := by
    rw [List.map_map]
    exact List.map_congr_left fun v hv => (hsolid v hv).trimChars_eq
  have hkeep : (vs.map String.toList).filter (· ≠ []) = vs.map String.toList := by
    refine List.filter_eq_self.mpr fun p hp => ?_
    obtain ⟨v, hv, rfl⟩ := List.mem_map.mp hp
    exact decide_eq_true (hsolid v hv).toList_ne_nil
  rw [readValues, hpieces, htrim, hkeep, List.map_map]
  exact (List.map_congr_left fun v _ => String.ofList_toList).trans (List.map_id vs)

/-- A condition is read back from its text. -/
theorem FilterArg.ofText_text {a : FilterArg} (h : a.Writable) : ofText a.text = .ok a := by
  have hcut : Text.cut? '=' a.text.toList =
      some (a.dimension.toList, (Text.join "," a.values).toList) := by
    rw [text, String.toList_append, String.toList_append, List.append_assoc]
    exact Text.cut?_append h.no_equals _
  have hvalues := readValues_join h.values_ne_nil h.values h.no_comma
  unfold ofText
  rw [hcut]
  show (if Text.trimChars a.dimension.toList = [] then _
    else if readValues (Text.join "," a.values).toList = [] then _ else _) = _
  rw [h.dimension.trimChars_eq, hvalues, if_neg h.dimension.toList_ne_nil,
    if_neg h.values_ne_nil, String.ofList_toList]

/-- A range whose ends can be told apart when it is written. -/
structure IntervalArg.Writable (range : IntervalArg) : Prop where
  start : Text.Solid range.start
  no_slash : '/' ∉ range.start.toList
  stop : Text.Solid range.stop

instance (range : IntervalArg) : Decidable range.Writable :=
  decidable_of_iff (Text.Solid range.start ∧ '/' ∉ range.start.toList ∧ Text.Solid range.stop)
    ⟨fun ⟨hstart, hs, hstop⟩ => ⟨hstart, hs, hstop⟩, fun h => ⟨h.start, h.no_slash, h.stop⟩⟩

/-- The text of a range, `from/to`. -/
def IntervalArg.text (range : IntervalArg) : String := range.start ++ "/" ++ range.stop

/-- A range is read back from its text. -/
theorem IntervalArg.ofText_text {range : IntervalArg} (h : range.Writable) :
    ofText range.text = .ok range := by
  have hcut : Text.cut? '/' range.text.toList = some (range.start.toList, range.stop.toList) := by
    rw [text, String.toList_append, String.toList_append, List.append_assoc]
    exact Text.cut?_append h.no_slash _
  unfold ofText
  rw [hcut]
  show (if Text.trimChars range.start.toList = [] ∨ Text.trimChars range.stop.toList = [] then _
    else _) = _
  rw [h.start.trimChars_eq, h.stop.trimChars_eq,
    if_neg (not_or.mpr ⟨h.start.toList_ne_nil, h.stop.toList_ne_nil⟩),
    String.ofList_toList, String.ofList_toList]

/-! ## Settings -/

namespace Setting

/-- What the values of a setting are. -/
abbrev Value : Setting → Type
  | .timeoutSecs => Nat
  | .filter => FilterArg
  | .exclude => FilterArg
  | .interval => IntervalArg
  | _ => String

/-- The text of a value. -/
def write : (s : Setting) → s.Value → String
  | .brokerUrl, v => v
  | .timeoutSecs, n => Whole.text (Int.ofNat n)
  | .config, v => v
  | .timeZone, v => v
  | .groupBy, v => v
  | .longSum, v => v
  | .doubleSum, v => v
  | .count, v => v
  | .filter, a => a.text
  | .exclude, a => a.text
  | .interval, range => range.text
  | .granularity, v => v

/-- The value that a text has for a setting. -/
def read : (s : Setting) → String → Except UsageError s.Value
  | .brokerUrl, text => .ok text
  | .timeoutSecs, text => Draft.judge (readSeconds text)
  | .config, text => if text = "" then .error .missingValue else .ok text
  | .timeZone, text => .ok text
  | .groupBy, text => .ok text
  | .longSum, text => .ok text
  | .doubleSum, text => .ok text
  | .count, text => .ok text
  | .filter, text => Draft.judge (FilterArg.ofText text)
  | .exclude, text => Draft.judge (FilterArg.ofText text)
  | .interval, text => Draft.judge (IntervalArg.ofText text)
  | .granularity, text => .ok text

/-- A value that has a text of its own: whole numbers have 64 bits and no sign, paths are not
empty, and the parts of conditions and ranges can be told apart. -/
def Writable : (s : Setting) → s.Value → Prop
  | .timeoutSecs, n => n < Nat.pow 2 64
  | .config, path => path ≠ ""
  | .filter, a => a.Writable
  | .exclude, a => a.Writable
  | .interval, range => range.Writable
  | _, _ => True

instance : (s : Setting) → (v : s.Value) → Decidable (s.Writable v)
  | .timeoutSecs, n => inferInstanceAs (Decidable (n < Nat.pow 2 64))
  | .config, path => inferInstanceAs (Decidable (path ≠ ""))
  | .filter, a => inferInstanceAs (Decidable a.Writable)
  | .exclude, a => inferInstanceAs (Decidable a.Writable)
  | .interval, range => inferInstanceAs (Decidable range.Writable)
  | .brokerUrl, _ => .isTrue trivial
  | .timeZone, _ => .isTrue trivial
  | .groupBy, _ => .isTrue trivial
  | .longSum, _ => .isTrue trivial
  | .doubleSum, _ => .isTrue trivial
  | .count, _ => .isTrue trivial
  | .granularity, _ => .isTrue trivial

/-- The text of a value is read as the value. -/
theorem read_write (s : Setting) {v : s.Value} (h : s.Writable v) : s.read (s.write v) = .ok v := by
  cases s with
  | brokerUrl | timeZone | groupBy | longSum | doubleSum | count | granularity => rfl
  | timeoutSecs => exact congrArg Draft.judge (readSeconds_text h)
  | config => exact if_neg h
  | filter | exclude => exact congrArg Draft.judge (FilterArg.ofText_text h)
  | interval => exact congrArg Draft.judge (IntervalArg.ofText_text h)

end Setting
end BrokerQuery
