import BrokerQuery.Json.Reader
import BrokerQuery.Proofs.Json.Scanning
import BrokerQuery.Proofs.Numeral
import Mathlib.Data.List.TakeWhile
/-
  Values written and read back.

  Not every value can be: floating-point numbers are read with a rounding of their own, a whole
  number may be too large, an object may have two fields of one name, and a document may nest too
  deep.  All others are `Readable`, and both layouts write a text that is read as the value.

    1. A text is read back as a value if it spells a document with that value (`ReadBack`).  Words,
       strings, arrays and objects are read back if their parts are (`readBack_int`,
       `readBack_string`, `readBack_array`, `readBack_object`).
    2. Each layout puts commas between the texts of the parts; they differ in the space around them
       (`compactChars_array`, `prettyChars_array`, and in the same way for objects).
    3. So it takes one short induction for each layout (`Readable.readBack_compact`,
       `Readable.readBack_pretty`).
-/

namespace BrokerQuery

namespace Json

/-! ## Whole numbers -/

/-- No digits but those of zero start with a zero. -/
theorem head?_toDigits {n : Nat} (h : 0 < n) : (Nat.toDigits 10 n).head? ≠ some '0' := by
  induction n using Nat.base_induction 10 (by decide) with
  | single m hm =>
    rw [Nat.toDigits_of_lt_base hm]
    interval_cases m <;> decide
  | digit m k hk hm ih =>
    rw [← Nat.toDigits_append_toDigits (by decide) hm hk,
      List.head?_append_of_ne_nil _ Nat.toDigits_ne_nil]
    exact ih hm

namespace Numeral

/-- No number is written with a zero in front, unless it is zero. -/
theorem isWhole_toDigits (n : Nat) : isWhole (Nat.toDigits 10 n) = true := by
  rcases Nat.eq_zero_or_pos n with rfl | hpos
  · rfl
  · have hhead : ((Nat.toDigits 10 n).head? != some '0') = true := bne_iff_ne.mpr (head?_toDigits hpos)
    rw [isWhole, hhead]
    simp

/-- Digits are no word but a number, with or without a minus sign in front. -/
theorem ofWord?_toDigits (negative : Bool) (n : Nat) :
    ofWord? ((if negative then ['-'] else []) ++ Nat.toDigits 10 n) =
      some ⟨negative, Nat.toDigits 10 n, [], none⟩ := by
  have hspan := BrokerQuery.Numeral.spanDigits_toDigits n
  have hwhole := isWhole_toDigits n
  have hdigits := BrokerQuery.Numeral.isDigit_toDigits n
  cases negative with
  | true => simp [ofWord?, hspan, hwhole, fraction?, exponent?]
  | false =>
    cases hds : Nat.toDigits 10 n with
    | nil => exact absurd hds Nat.toDigits_ne_nil
    | cons d ds =>
      have hd : d ≠ '-' := by
        rintro rfl
        exact nomatch hdigits '-' (hds ▸ List.mem_cons_self)
      rw [hds] at hspan hwhole
      simp [ofWord?, hd, hspan, hwhole, fraction?, exponent?]

end Numeral

/-- A whole number that is read as one: it has 64 bits, with or without a sign. -/
def Has64Bits (n : Int) : Prop := -0x8000000000000000 ≤ n ∧ n ≤ 0xFFFFFFFFFFFFFFFF

/-- A whole number of 64 bits is the value of its digits. -/
theorem Numeral.value?_toDigits {n : Int} (h : Has64Bits n) :
    value? ⟨n < 0, Nat.toDigits 10 n.natAbs, [], none⟩ = some (.int n) := by
  obtain ⟨hlow, hhigh⟩ := h
  unfold value?
  rw [BrokerQuery.Numeral.value_toDigits]
  by_cases hn : n < 0
  · have hrange : 0 < n.natAbs ∧ n.natAbs ≤ 0x8000000000000000 := by omega
    have habs : -(n.natAbs : Int) = n := by omega
    simp only [hn, hrange, habs, List.isEmpty_nil, Option.isNone_none, Bool.and_self, decide_true,
      and_self, if_true]
  · have hrange : n.natAbs ≤ maxUnsigned := by
      unfold maxUnsigned
      omega
    have habs : (n.natAbs : Int) = n := by omega
    simp only [hn, hrange, habs, List.isEmpty_nil, Option.isNone_none, Bool.and_self, decide_false,
      Bool.false_eq_true, if_false, if_true]

/-! ## Texts that are read back -/

/-- The text spells a document with this value, which nests at most `room` arrays and objects. -/
def ReadBack (room : Nat) (v : Json) (cs : List Char) : Prop :=
  ∃ w, Spells cs w ∧ w.value? room = some v

theorem Scan.inWord_of_isAlphanum {c : Char} (h : c.isAlphanum = true) : InWord c := by
  have hne (d : Char) (hd : d.isAlphanum = false) : c ≠ d := by
    rintro rfl
    exact nomatch h.symm.trans hd
  refine ⟨?_, hne '"' rfl, hne '[' rfl, hne '{' rfl⟩
  simp [endsWord, isSpace, hne ' ' rfl, hne '\n' rfl, hne '\t' rfl, hne '\r' rfl, hne ',' rfl,
    hne ']' rfl, hne '}' rfl]

/-- A name without signs in it is one word. -/
theorem spells_name {cs : List Char} {w : Written} (h : Written.ofWord? cs = some w)
    (hne : cs ≠ []) (hcs : cs.all Char.isAlphanum = true) : Spells cs w :=
  spells_word h hne fun c hc => Scan.inWord_of_isAlphanum (List.all_eq_true.mp hcs c hc)

theorem readBack_null (room : Nat) : ReadBack room .null ['n', 'u', 'l', 'l'] :=
  ⟨.null, spells_name rfl nofun rfl, rfl⟩

theorem readBack_bool (room : Nat) (b : Bool) : ReadBack room (.bool b) (compactChars (.bool b)) := by
  cases b with
  | false => exact ⟨.bool false, spells_name rfl nofun rfl, rfl⟩
  | true => exact ⟨.bool true, spells_name rfl nofun rfl, rfl⟩

theorem inWord_whole (n : Int) : ∀ c ∈ Whole.chars n, Scan.InWord c := by
  have hsign : ∀ c ∈ (if n < 0 then ['-'] else []), Scan.InWord c := by
    intro c hc
    split at hc
    · rw [List.mem_singleton.mp hc]
      exact ⟨rfl, by decide, by decide, by decide⟩
    · exact absurd hc List.not_mem_nil
  have hdigits : ∀ c ∈ Nat.toDigits 10 n.natAbs, Scan.InWord c := by
    intro c hc
    have hdigit := BrokerQuery.Numeral.isDigit_toDigits _ c hc
    exact Scan.inWord_of_isAlphanum (by rw [Char.isAlphanum, hdigit, Bool.or_true])
  exact List.forall_mem_append.mpr ⟨hsign, hdigits⟩

/-- What is read as a number is no name. -/
theorem Written.ofWord?_of_numeral {cs : List Char} {n : Numeral} (h : Numeral.ofWord? cs = some n) :
    ofWord? cs = some (.number n) := by
  have hname (name : List Char) (hname : Numeral.ofWord? name = none) : cs ≠ name := by
    rintro rfl
    exact nomatch h.symm.trans hname
  rw [ofWord?, if_neg (hname _ (by decide)), if_neg (hname _ (by decide)),
    if_neg (hname _ (by decide)), h]
  rfl

/-- Whole numbers of 64 bits are read back. -/
theorem readBack_int (room : Nat) {n : Int} (h : Has64Bits n) :
    ReadBack room (.int n) (Whole.chars n) := by
  have hword : Numeral.ofWord? (Whole.chars n) =
      some ⟨n < 0, Nat.toDigits 10 n.natAbs, [], none⟩ := by
    rw [← Numeral.ofWord?_toDigits]
    simp [Whole.chars]
  have hne : Whole.chars n ≠ [] :=
    List.append_ne_nil_of_right_ne_nil _ Nat.toDigits_ne_nil
  exact ⟨_, spells_word (Written.ofWord?_of_numeral hword) hne (inWord_whole n),
    Numeral.value?_toDigits h⟩

theorem Piece.chars?_map_ofChar (cs : List Char) : chars? (cs.map ofChar) = some cs := by
  induction cs with
  | nil => rfl
  | cons c cs ih =>
    rw [List.map_cons, ofChar]
    split
    next hcontrol =>
      have hunit : c.toNat < 0xD800 ∨ 0xE000 ≤ c.toNat := .inl (by omega)
      unfold chars?
      rw [if_pos hunit, ih, Option.map_some, Char.ofNat_toNat]
    next => rw [chars?, ih, Option.map_some]

theorem Piece.text?_map_ofChar (s : String) : text? (s.toList.map ofChar) = some s := by
  rw [text?, chars?_map_ofChar, Option.map_some, String.ofList_toList]

/-- Every string is read back, whatever characters it has. -/
theorem readBack_string (room : Nat) (s : String) : ReadBack room (.string s) (quote s) := by
  refine ⟨_, spells_quote s, ?_⟩
  rw [Written.value?, Piece.text?_map_ofChar]
  rfl

/-- The text of a field: its name, a colon, some space and the text of its value. -/
def ReadBackField (room : Nat) (field : String × Json) (cs : List Char) : Prop :=
  ∃ gap value, Space gap ∧ ReadBack room field.2 value ∧
    cs = quote field.1 ++ ':' :: (gap ++ value)

/-- A name that is not there yet goes to the end. -/
theorem setField_of_not_mem {name : String} (v : Json) {fields : List (String × Json)}
    (h : name ∉ fields.map Prod.fst) : setField name v fields = fields ++ [(name, v)] := by
  induction fields with
  | nil => rfl
  | cons field fields ih =>
    obtain ⟨k, w⟩ := field
    rw [List.map_cons, List.mem_cons, not_or] at h
    rw [setField, if_neg (Ne.symm h.1), ih h.2]
    rfl

section Sequences

variable {room : Nat} {texts : List (List Char)} {pad last : List Char} (hpad : Space pad)
  (hlast : Space last)
include hpad hlast

/-- An array is read back if its items are, with any space after the brackets and commas. -/
theorem readBack_array {items : List Json} (h : List.Forall₂ (ReadBack room) items texts) :
    ReadBack (room + 1) (.array items)
      ('[' :: (pad ++ ((',' :: pad).intercalate texts ++ (last ++ [']'])))) := by
  have hws : ∃ ws, List.Forall₂ (fun w cs => Spells cs w) ws texts ∧
      Written.values? room ws = some items := by
    induction h with
    | nil => exact ⟨[], .nil, rfl⟩
    | cons hv _ ih =>
      obtain ⟨w, hw, hvalue⟩ := hv
      obtain ⟨ws, hws, hvalues⟩ := ih
      refine ⟨w :: ws, .cons hw hws, ?_⟩
      rw [Written.values?, hvalue, hvalues]
      rfl
  obtain ⟨ws, hws, hvalues⟩ := hws
  refine ⟨_, spells_array hws hpad hlast, ?_⟩
  rw [Written.value?, hvalues]
  rfl

/-- An object is read back if its values are and no two fields have one name. -/
theorem readBack_object {fields : List (String × Json)} (hnames : (fields.map Prod.fst).Nodup)
    (h : List.Forall₂ (ReadBackField room) fields texts) :
    ReadBack (room + 1) (.object fields)
      ('{' :: (pad ++ ((',' :: pad).intercalate texts ++ (last ++ ['}'])))) := by
  -- The fields go behind those before them, as long as all names are distinct.
  have hws : ∃ ws, List.Forall₂ (fun field cs => SpellsField cs field) ws texts ∧
      ∀ before, ((before ++ fields).map Prod.fst).Nodup →
        Written.fields? room before ws = some (before ++ fields) := by
    clear hnames
    induction h with
    | nil => exact ⟨[], .nil, fun before _ => by rw [List.append_nil]; rfl⟩
    | @cons field cs fields texts hfield _ ih =>
      obtain ⟨name, v⟩ := field
      obtain ⟨gap, value, hgap, ⟨w, hw, hvalue⟩, rfl⟩ := hfield
      obtain ⟨ws, hws, hfields⟩ := ih
      refine ⟨_ :: ws, .cons (spellsField hw hgap name) hws, fun before hnames => ?_⟩
      have hsplit : before ++ (name, v) :: fields = before ++ [(name, v)] ++ fields := by
        rw [List.append_assoc]
        rfl
      have hnew : name ∉ before.map Prod.fst := by
        rw [List.map_append, List.map_cons] at hnames
        exact fun hmem => (List.nodup_append.mp hnames).2.2 name hmem name List.mem_cons_self rfl
      rw [Written.fields?, Piece.text?_map_ofChar, hvalue]
      show Written.fields? room (setField name v before) ws = _
      rw [setField_of_not_mem v hnew, hfields _ (hsplit ▸ hnames), hsplit]
  obtain ⟨ws, hws, hfields⟩ := hws
  refine ⟨_, spells_object hws hpad hlast, ?_⟩
  rw [Written.value?, hfields [] hnames]
  rfl

end Sequences

theorem ReadBack.ofText?_eq {v : Json} {cs : List Char} (h : ReadBack depth v cs)
    {last : List Char} (hlast : Space last) :
    ofText? (String.ofList (cs ++ last)) = some v := by
  obtain ⟨w, hw, hvalue⟩ := h
  rw [ofText?, String.toList_ofList, hw.ofChars?_eq hlast]
  exact hvalue

/-! ## The two layouts -/

/-- A text that is put together from the left, with a separator between two parts. -/
theorem eq_intercalate {joined : List α → List Char} {text : α → List Char} {sep : List Char}
    (hnil : joined [] = []) (hone : ∀ a, joined [a] = text a)
    (hmore : ∀ a b rest, joined (a :: b :: rest) = text a ++ (sep ++ joined (b :: rest)))
    (parts : List α) : joined parts = sep.intercalate (parts.map text) := by
  induction parts with
  | nil => exact hnil
  | cons a parts ih =>
    cases parts with
    | nil => rw [hone, List.map_cons, List.map_nil, List.intercalate_singleton]
    | cons b parts =>
      rw [hmore, ih, List.map_cons, List.map_cons, List.map_cons, List.intercalate_cons_cons,
        List.append_assoc]

/-- Items without space have commas between them. -/
theorem compactItems_eq (items : List Json) :
    compactItems items = [','].intercalate (items.map compactChars) :=
  eq_intercalate rfl (fun _ => by rw [compactItems]) (fun _ _ _ => by rw [compactItems]; rfl) items

theorem compactFields_eq (fields : List (String × Json)) :
    compactFields fields = [','].intercalate
      (fields.map fun field => quote field.1 ++ ':' :: ([] ++ compactChars field.2)) :=
  eq_intercalate rfl (fun _ => by rw [compactFields]; rfl)
    (fun _ _ _ => by rw [compactFields, List.append_assoc]; rfl) fields

theorem prettyItems_eq (level : Nat) (items : List Json) :
    prettyItems level items =
      (',' :: newLine level).intercalate (items.map (prettyChars level)) :=
  eq_intercalate rfl (fun _ => by rw [prettyItems]) (fun _ _ _ => by rw [prettyItems]; rfl) items

theorem prettyFields_eq (level : Nat) (fields : List (String × Json)) :
    prettyFields level fields = (',' :: newLine level).intercalate
      (fields.map fun field => quote field.1 ++ ':' :: ([' '] ++ prettyChars level field.2)) :=
  eq_intercalate rfl (fun _ => by rw [prettyFields]; rfl)
    (fun _ _ _ => by rw [prettyFields, List.append_assoc]; rfl) fields

theorem compactChars_array (items : List Json) : compactChars (.array items) =
    '[' :: ([] ++ ([','].intercalate (items.map compactChars) ++ ([] ++ [']']))) := by
  rw [compactChars, compactItems_eq]
  rfl

theorem compactChars_object (fields : List (String × Json)) : compactChars (.object fields) =
    '{' :: ([] ++ ([','].intercalate
      (fields.map fun field => quote field.1 ++ ':' :: ([] ++ compactChars field.2)) ++
        ([] ++ ['}']))) := by
  rw [compactChars, compactFields_eq]
  rfl

/-- A line break and its indentation are space. -/
theorem space_newLine (level : Nat) : Space (newLine level) := by
  have hblanks : Space (List.replicate (2 * level) ' ') := by
    intro c hc
    rw [List.eq_of_mem_replicate hc]
    rfl
  exact List.forall_mem_cons.mpr ⟨rfl, hblanks⟩

theorem prettyChars_array (level : Nat) (items : List Json) : ∃ pad last, Space pad ∧ Space last ∧
    prettyChars level (.array items) = '[' :: (pad ++
      ((',' :: pad).intercalate (items.map (prettyChars (level + 1))) ++ (last ++ [']']))) := by
  cases items with
  | nil => exact ⟨[], [], space_nil, space_nil, by rw [prettyChars]; rfl⟩
  | cons v items =>
    refine ⟨_, _, space_newLine (level + 1), space_newLine level, ?_⟩
    rw [prettyChars, prettyItems_eq, List.append_assoc, List.append_assoc]

theorem prettyChars_object (level : Nat) (fields : List (String × Json)) :
    ∃ pad last, Space pad ∧ Space last ∧ prettyChars level (.object fields) = '{' :: (pad ++
      ((',' :: pad).intercalate (fields.map fun field =>
        quote field.1 ++ ':' :: ([' '] ++ prettyChars (level + 1) field.2)) ++
          (last ++ ['}']))) := by
  cases fields with
  | nil => exact ⟨[], [], space_nil, space_nil, by rw [prettyChars]; rfl⟩
  | cons field fields =>
    refine ⟨_, _, space_newLine (level + 1), space_newLine level, ?_⟩
    rw [prettyChars, prettyFields_eq, List.append_assoc, List.append_assoc]

/-- A value that is read back as it was written: its numbers are whole and have 64 bits, no object
has two fields of one name, and at most `room` arrays and objects nest. -/
inductive Readable : Nat → Json → Prop
  | null {room : Nat} : Readable room .null
  | bool {room : Nat} (b : Bool) : Readable room (.bool b)
  | int {room : Nat} {n : Int} (h : Has64Bits n) : Readable room (.int n)
  | string {room : Nat} (s : String) : Readable room (.string s)
  | array {room : Nat} {items : List Json} (h : ∀ v ∈ items, Readable room v) :
      Readable (room + 1) (.array items)
  | object {room : Nat} {fields : List (String × Json)} (hnames : (fields.map Prod.fst).Nodup)
      (h : ∀ field ∈ fields, Readable room field.2) : Readable (room + 1) (.object fields)

theorem forall₂_map {R : α → β → Prop} {f : α → β} {as : List α} (h : ∀ a ∈ as, R a (f a)) :
    List.Forall₂ R as (as.map f) :=
  List.forall₂_map_right_iff.mpr (List.forall₂_same.mpr h)

namespace Readable

variable {room : Nat} {v : Json}

/-- Readable values are read back from their text without space. -/
theorem readBack_compact (h : Readable room v) : ReadBack room v (compactChars v) := by
  induction h with
  | null => exact readBack_null _
  | bool b => exact readBack_bool _ b
  | int h => exact readBack_int _ h
  | string s => exact readBack_string _ s
  | array _ ih =>
    rw [compactChars_array]
    exact readBack_array space_nil space_nil (forall₂_map ih)
  | object hnames _ ih =>
    rw [compactChars_object]
    exact readBack_object space_nil space_nil hnames
      (forall₂_map fun field hfield => ⟨[], _, space_nil, ih field hfield, rfl⟩)

theorem readBack_pretty (h : Readable room v) (level : Nat) :
    ReadBack room v (prettyChars level v) := by
  induction h generalizing level with
  | null => exact readBack_null _
  | bool b => cases b <;> exact readBack_bool _ _
  | int h => exact readBack_int _ h
  | string s => exact readBack_string _ s
  | @array _ items _ ih =>
    obtain ⟨pad, last, hpad, hlast, hchars⟩ := prettyChars_array level items
    rw [hchars]
    exact readBack_array hpad hlast (forall₂_map fun v hv => ih v hv (level + 1))
  | @object _ fields hnames _ ih =>
    obtain ⟨pad, last, hpad, hlast, hchars⟩ := prettyChars_object level fields
    rw [hchars]
    have hgap : Space [' '] := List.forall_mem_singleton.mpr rfl
    exact readBack_object hpad hlast hnames
      (forall₂_map fun field hfield => ⟨[' '], _, hgap, ih field hfield (level + 1), rfl⟩)

/-- The text without space is read as the value. -/
theorem ofText?_compact (h : Readable depth v) : ofText? v.compact = some v := by
  have hread := h.readBack_compact.ofText?_eq space_nil
  rwa [List.append_nil] at hread

/-- The text with indentation is read as the value, also with a line break behind it. -/
theorem ofText?_pretty_line (h : Readable depth v) : ofText? (v.pretty ++ "\n") = some v := by
  have hbreak : Space ['\n'] := List.forall_mem_singleton.mpr rfl
  have hread := (h.readBack_pretty 0).ofText?_eq hbreak
  rwa [String.ofList_append] at hread

end Readable
end Json
end BrokerQuery
