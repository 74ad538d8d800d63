import BrokerQuery.Text.Blank
import BrokerQuery.Text.Split
import Mathlib.Data.List.DropRight
import Mathlib.Data.List.TakeWhile
/-
  Laws of trimming, searching and splitting.

  Trimming twice is trimming once (`trimChars_trimChars`): what is left starts with a character that
  is not blank, and cutting off its end does not change that.  Blanks around a text make no difference
  to what trimming leaves (`trimChars_between_blanks`), and nothing is dropped of a text that has no
  blanks (`trimChars_of_not_blank`).  `contains` finds a text iff it is an infix
  (`contains_iff_infix`).

  No piece of a text has the separator in it (`mem_of_mem_pieces`), and a text without it that is put
  in front of another one becomes a part of the first piece (`pieces_append`).  Parts without the
  separator are therefore cut apart as they were put together (`pieces_intercalate`, `cut?_append`).
  The first piece is what stands before the first separator (`isBeforeFirst_of_pieces`); the last one
  is what stands after the last (`isAfterLast_of_pieces`), which looking from the end finds as well
  (`toList_lastPiece`).
-/

namespace BrokerQuery.Text

/-- A text that starts with no blank keeps its start when its end is cut off. -/
theorem trimStart_of_prefix {cs ds : List Char} (h : ds <+: cs) (hcs : trimStart cs = cs) :
    trimStart ds = ds := by
  refine List.dropWhile_eq_self_iff.mpr fun hl => ?_
  have hlt := List.dropWhile_eq_self_iff.mp hcs (Nat.lt_of_lt_of_le hl h.length_le)
  rwa [← h.getElem hl] at hlt

/-- Trimming twice is trimming once. -/
theorem trimChars_trimChars (cs : List Char) : trimChars (trimChars cs) = trimChars cs := by
  have hstart : trimStart (trimChars cs) = trimChars cs :=
    trimStart_of_prefix (List.rdropWhile_prefix isBlank (trimStart cs))
      (List.dropWhile_idempotent isBlank cs)
  show trimEnd (trimStart (trimChars cs)) = trimChars cs
  rw [hstart]
  exact List.rdropWhile_idempotent isBlank (trimStart cs)

theorem isBlank_of_isDigit {c : Char} (h : c.isDigit = true) : isBlank c = false := by
  simp only [Char.isDigit, Bool.and_eq_true, decide_eq_true_eq, ge_iff_le,
    UInt32.le_iff_toNat_le] at h
  have hlo : 48 ≤ c.toNat := h.1
  have hhi : c.toNat ≤ 57 := h.2
  simp only [isBlank, Bool.or_eq_false_iff, Bool.and_eq_false_iff, decide_eq_false_iff_not,
    beq_eq_false_iff_ne]
  omega

/-- Blanks around a text are dropped with those that it has of its own. -/
theorem trimChars_between_blanks {left right : List Char} (hleft : ∀ c ∈ left, isBlank c = true)
    (hright : ∀ c ∈ right, isBlank c = true) (cs : List Char) :
    trimChars (left ++ cs ++ right) = trimChars cs := by
  have hnone : right.dropWhile isBlank = [] := List.dropWhile_eq_nil_iff.mpr hright
  have hend (ds : List Char) : trimEnd (ds ++ right) = trimEnd ds := by
    unfold trimEnd
    rw [List.reverse_append, List.dropWhile_append_of_pos]
    exact fun c hc => hright c (List.mem_reverse.mp hc)
  unfold trimChars trimStart
  rw [List.append_assoc, List.dropWhile_append_of_pos hleft, List.dropWhile_append]
  cases hcs : cs.dropWhile isBlank with
  | nil => rw [hnone]; rfl
  | cons c ds => exact hend (c :: ds)

/-- A string that was trimmed is not changed by trimming it. -/
theorem trim_ofList_trimChars (cs : List Char) :
    trim (String.ofList (trimChars cs)) = String.ofList (trimChars cs) := by
  rw [trim, String.toList_ofList, trimChars_trimChars]

/-- A text is found iff it stands somewhere, by induction on where the search begins. -/
theorem contains_iff_infix (needle hay : List Char) :
    contains needle hay = true ↔ needle <:+: hay := by
  induction hay with
  | nil => rw [contains, List.isEmpty_iff, List.infix_nil]
  | cons c hay ih =>
    rw [contains, Bool.or_eq_true, List.isPrefixOf_iff_prefix, ih, List.infix_cons_iff]

theorem pieces_cons_of_eq (sep : Char) (cs : List Char) :
    pieces sep (sep :: cs) = [] :: pieces sep cs := by
  rw [pieces, if_pos rfl]

theorem pieces_cons_of_ne {sep c : Char} (h : c ≠ sep) {cs p : List Char} {ps : List (List Char)}
    (hcs : pieces sep cs = p :: ps) : pieces sep (c :: cs) = (c :: p) :: ps := by
  rw [pieces, if_neg h, hcs]

/-- Text without the separator goes in front of the first piece. -/
theorem pieces_append {sep : Char} {s : List Char} (h : sep ∉ s) {cs p : List Char}
    {ps : List (List Char)} (hcs : pieces sep cs = p :: ps) :
    pieces sep (s ++ cs) = (s ++ p) :: ps := by
  induction s with
  | nil => exact hcs
  | cons c s ih =>
    obtain ⟨hc, hs⟩ := not_or.mp (mt List.mem_cons.mpr h)
    exact pieces_cons_of_ne (Ne.symm hc) (ih hs)

/-- A text without the separator is one piece. -/
theorem pieces_of_not_mem {sep : Char} {s : List Char} (h : sep ∉ s) : pieces sep s = [s] := by
  have hnil : pieces sep [] = [[]] := rfl
  have happend := pieces_append h hnil
  rwa [List.append_nil] at happend

/-- Parts that are put together with the separator between them are cut apart again. -/
theorem pieces_intercalate {sep : Char} {ps : List (List Char)} (hne : ps ≠ [])
    (h : ∀ p ∈ ps, sep ∉ p) : pieces sep ([sep].intercalate ps) = ps := by
  induction ps with
  | nil => exact absurd rfl hne
  | cons p ps ih =>
    obtain ⟨hp, hps⟩ := List.forall_mem_cons.mp h
    cases ps with
    | nil => rw [List.intercalate_singleton, pieces_of_not_mem hp]
    | cons q ps =>
      rw [List.intercalate_cons_cons, List.append_assoc, List.singleton_append,
        pieces_append hp (pieces_cons_of_eq sep _), ih (List.cons_ne_nil q ps) hps, List.append_nil]

/-- A text is cut behind a part without the separator. -/
theorem cut?_append {sep : Char} {a : List Char} (h : sep ∉ a) (b : List Char) :
    cut? sep (a ++ sep :: b) = some (a, b) := by
  induction a with
  | nil => rw [List.nil_append, cut?, if_pos rfl]
  | cons c a ih =>
    obtain ⟨hc, ha⟩ := not_or.mp (mt List.mem_cons.mpr h)
    rw [List.cons_append, cut?, if_neg (Ne.symm hc), ih ha]; rfl

/-- The characters of a piece are characters of the text, and none of them is the separator. -/
theorem mem_of_mem_pieces {sep : Char} {cs p : List Char} (hp : p ∈ pieces sep cs) {c : Char}
    (hc : c ∈ p) : c ∈ cs ∧ c ≠ sep := by
  induction cs generalizing p with
  | nil =>
    rw [List.mem_singleton.mp hp] at hc
    exact absurd hc List.not_mem_nil
  | cons d cs ih =>
    by_cases hd : d = sep
    · rw [hd, pieces_cons_of_eq] at hp
      rcases List.mem_cons.mp hp with rfl | hp
      · exact absurd hc List.not_mem_nil
      · exact (ih hp hc).imp_left (List.mem_cons_of_mem _)
    · cases hcs : pieces sep cs with
      | nil => exact absurd hcs (pieces_ne_nil sep cs)
      | cons q ps =>
        rw [pieces_cons_of_ne hd hcs] at hp
        rw [hcs] at ih
        rcases List.mem_cons.mp hp with rfl | hp
        · rcases List.mem_cons.mp hc with rfl | hc
          · exact ⟨List.mem_cons_self, hd⟩
          · exact (ih List.mem_cons_self hc).imp_left (List.mem_cons_of_mem _)
        · exact (ih (List.mem_cons_of_mem _ hp) hc).imp_left (List.mem_cons_of_mem _)

/-- Only a text without the separator is one piece. -/
theorem eq_of_pieces_eq_singleton {sep : Char} {cs p : List Char} (h : pieces sep cs = [p]) :
    cs = p ∧ sep ∉ cs := by
  have hjoin := join_pieces sep cs
  rw [h, List.intercalate_singleton] at hjoin
  refine ⟨hjoin.symm, fun hmem => ?_⟩
  rw [← hjoin] at hmem
  exact (mem_of_mem_pieces (by rw [h]; exact List.mem_cons_self) hmem).2 rfl

/-- A text without the separator is its last piece. -/
theorem lastPiece_of_not_mem {sep : Char} {s : String} (h : sep ∉ s.toList) :
    lastPiece sep s = s := by
  have hall : s.toList.reverse.takeWhile (· ≠ sep) = s.toList.reverse := by
    refine List.takeWhile_eq_self_iff.mpr fun c hc => ?_
    exact decide_eq_true (ne_of_mem_of_not_mem (List.mem_reverse.mp hc) h)
  rw [lastPiece, hall, List.reverse_reverse, String.ofList_toList]

/-! ## First and last parts -/

/-- `t` is what stands before the first `sep` of `s`, which is all of `s` where there is none. -/
def IsBeforeFirst (sep : Char) (s t : List Char) : Prop :=
  sep ∉ t ∧ (s = t ∨ ∃ after, s = t ++ sep :: after)

/-- `t` is what stands after the last `sep` of `s`, which is all of `s` where there is none. -/
def IsAfterLast (sep : Char) (s t : List Char) : Prop :=
  sep ∉ t ∧ (s = t ∨ ∃ before, s = before ++ sep :: t)

/-- The first piece of a text stands before its first separator. -/
theorem isBeforeFirst_of_pieces {sep : Char} {cs p : List Char} {ps : List (List Char)}
    (h : pieces sep cs = p :: ps) : IsBeforeFirst sep cs p := by
  have hmem : p ∈ pieces sep cs := by
    rw [h]
    exact List.mem_cons_self
  refine ⟨fun hsep => (mem_of_mem_pieces hmem hsep).2 rfl, ?_⟩
  rw [← join_pieces sep cs, h]
  cases ps with
  | nil => exact .inl List.intercalate_singleton
  | cons q ps => exact .inr ⟨_, by rw [List.intercalate_cons_cons, List.append_assoc]; rfl⟩

/-- What is put together ends in its last part, which is all of it or follows a separator. -/
theorem intercalate_getLast (sep : Char) (p : List Char) (ps : List (List Char)) :
    [sep].intercalate (p :: ps) = ps.getLast?.getD p ∨
      ∃ before, [sep].intercalate (p :: ps) = before ++ sep :: ps.getLast?.getD p := by
  induction ps generalizing p with
  | nil => exact .inl List.intercalate_singleton
  | cons q ps ih =>
    rw [List.getLast?_cons, Option.getD_some, List.intercalate_cons_cons, List.append_assoc]
    refine .inr ?_
    rcases ih q with hall | ⟨before, hafter⟩
    · exact ⟨p, by rw [hall]; rfl⟩
    · exact ⟨p ++ sep :: before, by rw [hafter, List.append_assoc]; rfl⟩

/-- The last piece of a text stands after its last separator. -/
theorem isAfterLast_of_pieces {sep : Char} {cs p : List Char} {ps : List (List Char)}
    (h : pieces sep cs = p :: ps) : IsAfterLast sep cs (ps.getLast?.getD p) := by
  have hmem : ps.getLast?.getD p ∈ pieces sep cs := by
    refine List.mem_of_getLast? ?_
    rw [h, List.getLast?_cons]
  refine ⟨fun hsep => (mem_of_mem_pieces hmem hsep).2 rfl, ?_⟩
  rw [← join_pieces sep cs, h]
  exact intercalate_getLast sep p ps

/-- Looking for the last separator from the end finds what stands after it. -/
theorem toList_lastPiece {sep : Char} {s : String} {t : List Char}
    (h : IsAfterLast sep s.toList t) : (lastPiece sep s).toList = t := by
  obtain ⟨hsep, hall | ⟨before, hafter⟩⟩ := h
  · rw [lastPiece_of_not_mem (hall ▸ hsep), hall]
  · have htail : ∀ c ∈ t.reverse, decide (c ≠ sep) = true := fun c hc =>
      decide_eq_true (ne_of_mem_of_not_mem (List.mem_reverse.mp hc) hsep)
    rw [lastPiece, String.toList_ofList, hafter, List.reverse_append, List.reverse_cons,
      List.append_assoc, List.takeWhile_append_of_pos htail, List.singleton_append,
      List.takeWhile_cons_of_neg (by simp), List.append_nil, List.reverse_reverse]

theorem isAfterLast_lastPiece (sep : Char) (s : String) :
    IsAfterLast sep s.toList (lastPiece sep s).toList := by
  cases h : pieces sep s.toList with
  | nil => exact absurd h (pieces_ne_nil sep s.toList)
  | cons p ps =>
    have hlast := isAfterLast_of_pieces h
    rwa [toList_lastPiece hlast]

end BrokerQuery.Text
