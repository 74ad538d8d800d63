import BrokerQuery.Proofs.CommandLine.Arguments
/-
  Which texts are conditions.

  A condition is written `dim=v1,v2`.  `FilterArg.Splits` says what the parts of such a text are,
  with no look at how it is cut: they make the text when they are put together, and no part has the
  sign in it that ends it.

    1. The parts of a text are those that cutting it finds (`splits_iff_cut?`), so a text with an
       equals sign splits (`exists_splits_iff`), and in one way only (`Splits.unique`).
    2. Reading the values drops the parts that are blank and trims the others (`readValues_eq`).
       So a text is read iff its first part and some other part are not blank, and what is read is
       made of the parts (`ofText_eq_ok_iff`).
    3. Trimming drops blanks and nothing else (`Text.exists_blanks_around`), so what it leaves of a
       part has no sign that the part does not have, and is solid if the part is not blank
       (`Text.solid_of_not_blank`).  Whatever is read can therefore be written
       (`writable_of_ofText`), and what is written is read back.
-/

namespace BrokerQuery

/-! ## Blank parts and trimmed ones -/

namespace Text

/-- All white space, or nothing at all. -/
def Blank (cs : List Char) : Prop := ∀ c ∈ cs, isBlank c = true

instance (cs : List Char) : Decidable (Blank cs) :=
  List.decidableBAll (fun c => isBlank c = true) cs

/-- Trimming drops a blank text in front and another one behind. -/
theorem exists_blanks_around (cs : List Char) :
    ∃ left right, Blank left ∧ Blank right ∧ cs = left ++ (trimChars cs ++ right) := by
  have hblank (ds : List Char) : Blank (ds.takeWhile isBlank) :=
    fun _ hc => List.mem_takeWhile_imp hc
  have hend (ds : List Char) : ds = trimEnd ds ++ (ds.reverse.takeWhile isBlank).reverse := by
    calc ds = (ds.reverse.takeWhile isBlank ++ ds.reverse.dropWhile isBlank).reverse := by
          rw [List.takeWhile_append_dropWhile, List.reverse_reverse]
      _ = trimEnd ds ++ (ds.reverse.takeWhile isBlank).reverse := List.reverse_append
  refine ⟨cs.takeWhile isBlank, ((trimStart cs).reverse.takeWhile isBlank).reverse,
    hblank cs, ?_, ?_⟩
  · intro c hc
    exact hblank _ c (List.mem_reverse.mp hc)
  · rw [trimChars, ← hend, trimStart, List.takeWhile_append_dropWhile]

/-- Trimming leaves nothing of blanks, and of blanks alone. -/
theorem trimChars_eq_nil_iff (cs : List Char) : trimChars cs = [] ↔ Blank cs := by
  constructor
  · intro hnil
    obtain ⟨left, right, hleft, hright, hcs⟩ := exists_blanks_around cs
    rw [hnil, List.nil_append] at hcs
    rw [hcs]
    exact List.forall_mem_append.mpr ⟨hleft, hright⟩
  · intro hblank
    have htrim := trimChars_between_blanks hblank (List.forall_mem_nil _) []
    rwa [List.append_nil, List.append_nil] at htrim

/-- Trimming brings in no new characters. -/
theorem mem_of_mem_trimChars {cs : List Char} {c : Char} (hc : c ∈ trimChars cs) : c ∈ cs := by
  obtain ⟨left, right, _, _, hcs⟩ := exists_blanks_around cs
  rw [hcs]
  exact List.mem_append_right left (List.mem_append_left right hc)

/-- What trimming leaves of a text that is not blank is there, and trimmed. -/
theorem solid_of_not_blank {cs : List Char} (h : ¬ Blank cs) :
    Solid (String.ofList (trimChars cs)) where
  ne_empty := by
    intro hempty
    have hnil : trimChars cs = [] := by
      rw [← String.toList_ofList (l := trimChars cs), hempty]; rfl
    exact h ((trimChars_eq_nil_iff cs).mp hnil)
  trim_eq := trim_ofList_trimChars cs

end Text

namespace FilterArg

/-! ## The parts of a text -/

/-- The text is `left`, an equals sign and the parts with commas between them; the equals sign is
the first one, and the commas are all that are behind it. -/
structure Splits (s : String) (left : List Char) (parts : List (List Char)) : Prop where
  text : s.toList = left ++ '=' :: [','].intercalate parts
  no_equals : '=' ∉ left
  parts_ne_nil : parts ≠ []
  no_comma : ∀ p ∈ parts, ',' ∉ p

/-- Cutting a text finds its parts. -/
theorem splits_iff_cut? (s : String) (left : List Char) (parts : List (List Char)) :
    Splits s left parts ↔
      ∃ right, Text.cut? '=' s.toList = some (left, right) ∧ Text.pieces ',' right = parts := by
  constructor
  · intro h
    refine ⟨[','].intercalate parts, ?_, Text.pieces_intercalate h.parts_ne_nil h.no_comma⟩
    rw [h.text, Text.cut?_append h.no_equals]
  · rintro ⟨right, hcut, rfl⟩
    obtain ⟨htext, hequals⟩ := Text.append_of_cut? hcut
    refine ⟨?_, hequals, Text.pieces_ne_nil ',' right, ?_⟩
    · rw [htext, Text.join_pieces]
    · intro p hp hcomma
      exact (Text.mem_of_mem_pieces hp hcomma).2 rfl

/-- A text has parts iff there is an equals sign in it. -/
theorem exists_splits_iff (s : String) : (∃ left parts, Splits s left parts) ↔ '=' ∈ s.toList := by
  constructor
  · rintro ⟨left, parts, h⟩
    rw [h.text]
    exact List.mem_append_right left List.mem_cons_self
  · intro hequals
    obtain ⟨left, right, htext, hleft⟩ := List.eq_append_cons_of_mem hequals
    have hcut : Text.cut? '=' s.toList = some (left, right) := by
      rw [htext, Text.cut?_append hleft]
    exact ⟨left, _, (splits_iff_cut? s left _).mpr ⟨right, hcut, rfl⟩⟩

/-- A text splits in one way only. -/
theorem Splits.unique {s : String} {left left' : List Char} {parts parts' : List (List Char)}
    (h : Splits s left parts) (h' : Splits s left' parts') : left = left' ∧ parts = parts' := by
  obtain ⟨right, hcut, rfl⟩ := (splits_iff_cut? s left parts).mp h
  obtain ⟨right', hcut', rfl⟩ := (splits_iff_cut? s left' parts').mp h'
  obtain ⟨rfl, rfl⟩ := Prod.mk.inj (Option.some.inj (hcut.symm.trans hcut'))
  exact ⟨rfl, rfl⟩

/-- The condition that the parts of a text make: the first part is the dimension, the others are the
values, without those that are blank, and blanks around them do not count. -/
def ofParts (left : List Char) (parts : List (List Char)) : FilterArg where
  dimension := String.ofList (Text.trimChars left)
  values := (parts.filter fun p => ¬ Text.Blank p).map fun p => String.ofList (Text.trimChars p)

/-- The values that are read behind the equals sign are those of the parts. -/
theorem readValues_eq (left right : List Char) :
    readValues right = (ofParts left (Text.pieces ',' right)).values := by
  have hkeep : (fun p => decide (p ≠ [])) ∘ Text.trimChars = fun p => decide (¬ Text.Blank p) := by
    funext p
    exact decide_eq_decide.mpr (not_congr (Text.trimChars_eq_nil_iff p))
  rw [readValues, List.filter_map, hkeep, List.map_map]
  rfl

theorem ofParts_values_eq_nil_iff (left : List Char) (parts : List (List Char)) :
    (ofParts left parts).values = [] ↔ ∀ p ∈ parts, Text.Blank p := by
  simp [ofParts]

/-- A text is read iff it splits and neither its first part nor all of the others are blank; what is
read is made of the parts. -/
theorem ofText_eq_ok_iff (s : String) (a : FilterArg) :
    ofText s = .ok a ↔ ∃ left parts, Splits s left parts ∧ ¬ Text.Blank left ∧
      (∃ p ∈ parts, ¬ Text.Blank p) ∧ a = ofParts left parts := by
  constructor
  · intro h
    unfold ofText at h
    split at h
    next => exact nomatch h
    next left right hcut =>
      refine ⟨left, _, (splits_iff_cut? s left _).mpr ⟨right, hcut, rfl⟩, ?_⟩
      -- Both refusals are for blanks, once they are said of the parts before trimming.
      simp only [Text.trimChars_eq_nil_iff, readValues_eq left, ofParts_values_eq_nil_iff] at h
      split at h
      next => exact nomatch h
      next hleft =>
        split at h
        next => exact nomatch h
        next hparts =>
          refine ⟨hleft, ?_, (Except.ok.inj h).symm⟩
          simpa only [not_forall, exists_prop] using hparts
  · rintro ⟨left, parts, hsplits, hleft, ⟨p, hp, hblank⟩, rfl⟩
    obtain ⟨right, hcut, rfl⟩ := (splits_iff_cut? s left parts).mp hsplits
    have hparts : ¬ ∀ p ∈ Text.pieces ',' right, Text.Blank p := fun h => hblank (h p hp)
    unfold ofText
    rw [hcut]
    simp only [Text.trimChars_eq_nil_iff, readValues_eq left, ofParts_values_eq_nil_iff,
      if_neg hleft, if_neg hparts]
    rfl

/-- What is made of the parts of a text can be written. -/
theorem writable_ofParts {s : String} {left : List Char} {parts : List (List Char)}
    (h : Splits s left parts) (hleft : ¬ Text.Blank left) (hparts : ∃ p ∈ parts, ¬ Text.Blank p) :
    (ofParts left parts).Writable := by
  have hvalues : ∀ v ∈ (ofParts left parts).values,
      ∃ p ∈ parts, ¬ Text.Blank p ∧ v = String.ofList (Text.trimChars p) := by
    intro v hv
    obtain ⟨p, hp, rfl⟩ := List.mem_map.mp hv
    obtain ⟨hp, hblank⟩ := List.mem_filter.mp hp
    exact ⟨p, hp, of_decide_eq_true hblank, rfl⟩
  refine ⟨Text.solid_of_not_blank hleft, ?_, ?_, ?_, ?_⟩
  · intro hequals
    rw [ofParts, String.toList_ofList] at hequals
    exact h.no_equals (Text.mem_of_mem_trimChars hequals)
  · rw [Ne, ofParts_values_eq_nil_iff]
    obtain ⟨p, hp, hblank⟩ := hparts
    exact fun hall => hblank (hall p hp)
  · intro v hv
    obtain ⟨p, _, hblank, rfl⟩ := hvalues v hv
    exact Text.solid_of_not_blank hblank
  · intro v hv hcomma
    obtain ⟨p, hp, _, rfl⟩ := hvalues v hv
    rw [String.toList_ofList] at hcomma
    exact h.no_comma p hp (Text.mem_of_mem_trimChars hcomma)

/-- Every condition that is read can be written. -/
theorem writable_of_ofText {s : String} {a : FilterArg} (h : ofText s = .ok a) : a.Writable := by
  obtain ⟨left, parts, hsplits, hleft, hparts, rfl⟩ := (ofText_eq_ok_iff s a).mp h
  exact writable_ofParts hsplits hleft hparts

/-- **Which texts are conditions.**  A text splits into a first part and others iff there is an
equals sign in it.  It is read as a condition iff it splits and neither the first part nor all of the
others are blank.  The condition has the first part as its dimension and, in order, those of the
others that are not blank as its values, all trimmed.  A condition that is read can be written and is
read back from its text; and so is every other condition that can be written. -/
theorem condition_texts :
    (∀ s, (∃ left parts, Splits s left parts) ↔ '=' ∈ s.toList) ∧
    (∀ s, (∃ a, ofText s = .ok a) ↔
      ∃ left parts, Splits s left parts ∧ ¬ Text.Blank left ∧ ∃ p ∈ parts, ¬ Text.Blank p) ∧
    (∀ s left parts a, Splits s left parts → ofText s = .ok a → a = ofParts left parts) ∧
    (∀ s a, ofText s = .ok a → a.Writable ∧ ofText a.text = .ok a) ∧
    ∀ a, a.Writable → ofText a.text = .ok a := by
  refine ⟨exists_splits_iff, ?_, ?_, ?_, fun a => ofText_text⟩
  · intro s
    constructor
    · rintro ⟨a, h⟩
      obtain ⟨left, parts, hsplits, hleft, hparts, _⟩ := (ofText_eq_ok_iff s a).mp h
      exact ⟨left, parts, hsplits, hleft, hparts⟩
    · rintro ⟨left, parts, hsplits, hleft, hparts⟩
      exact ⟨_, (ofText_eq_ok_iff s _).mpr ⟨left, parts, hsplits, hleft, hparts, rfl⟩⟩
  · intro s left parts a hsplits h
    obtain ⟨left', parts', hsplits', _, _, rfl⟩ := (ofText_eq_ok_iff s a).mp h
    obtain ⟨rfl, rfl⟩ := hsplits.unique hsplits'
    rfl
  · intro s a h
    have hwritable := writable_of_ofText h
    exact ⟨hwritable, ofText_text hwritable⟩

/-- A condition typed with space of several kinds, two blank values and a value that comes twice. -/
def roomyText : String := "\u3000city\t= Bern ,, a=b ,\u00a0,Bern"

/-- The blank values are dropped, and an equals sign in a value is part of it. -/
theorem roomyText_read :
    Splits roomyText "\u3000city\t".toList
      ([" Bern ", "", " a=b ", "\u00a0", "Bern"].map String.toList) ∧
    ofText roomyText = .ok ⟨"city", ["Bern", "a=b", "Bern"]⟩ ∧
    FilterArg.Writable ⟨"city", ["Bern", "a=b", "Bern"]⟩ ∧
    ofText "city=Bern,a=b,Bern" = .ok ⟨"city", ["Bern", "a=b", "Bern"]⟩ := by
  obtain ⟨_, haccepts, hmeans, hkept, hwritten⟩ := condition_texts
  have hsplits : Splits roomyText "\u3000city\t".toList
      ([" Bern ", "", " a=b ", "\u00a0", "Bern"].map String.toList) :=
    ⟨by decide, by decide, by decide, by decide⟩
  obtain ⟨a, ha⟩ := (haccepts roomyText).mpr ⟨_, _, hsplits, by decide, by decide⟩
  have hparts := hmeans _ _ _ a hsplits ha
  have hcity : a = ⟨"city", ["Bern", "a=b", "Bern"]⟩ := hparts.trans (by decide)
  rw [hcity] at ha
  obtain ⟨hwritable, _⟩ := hkept _ _ ha
  exact ⟨hsplits, ha, hwritable, hwritten _ hwritable⟩

end FilterArg
end BrokerQuery
