import BrokerQuery.Json.Writer
import BrokerQuery.Json.Written
import Mathlib.Data.List.Forall2
import Mathlib.Tactic.IntervalCases
/-
  Which texts the scanner reads as which documents.

  `Spells cs w` says that the text `cs` is read as `w` wherever a value may stand, whatever is open
  around it.  A word is not over before the next character, so what counts is not the state that is
  reached but what any character after a value does to it (`Settles`).

    1. A word is a text of its own (`spells_word`), and so is a string in quotes: each character of
       it, escaped or not, is one piece (`run_escape`, `spells_quote`).
    2. Arrays and objects are both a sequence of entries with commas between them.  `Sequence` is
       what the scanner does in either of them, and `Sequence.run_entries` reads all entries, by
       induction on them, with any space before and behind.
    3. So a list of texts that spell the items spells the array (`spells_array`), and in the same way
       for the fields of an object (`spells_object`).

  A text that spells a document is read as it, with any space behind (`Spells.ofChars?_eq`).
-/

namespace BrokerQuery.Json

/-- Nothing but space. -/
def Space (cs : List Char) : Prop := ∀ c ∈ cs, isSpace c = true

theorem space_nil : Space [] := fun _ hc => absurd hc List.not_mem_nil

namespace Scan

/-! ## Runs -/

/-- Reads several characters. -/
def run (s : Scan) (cs : List Char) : Option Scan := cs.foldlM step s

@[simp] theorem run_nil (s : Scan) : s.run [] = some s := rfl

theorem run_cons (s : Scan) (c : Char) (cs : List Char) :
    s.run (c :: cs) = (s.step c).bind fun t => t.run cs := by
  rw [run, List.foldlM_cons]
  rfl

/-- A text is scanned in parts. -/
theorem run_append (s : Scan) (cs more : List Char) :
    s.run (cs ++ more) = (s.run cs).bind fun t => t.run more := by
  rw [run, List.foldlM_append]
  rfl

theorem run_cons_of_step {s t : Scan} {c : Char} (h : s.step c = some t) (cs : List Char) :
    s.run (c :: cs) = t.run cs := by
  rw [run_cons, h, Option.bind_some]

theorem run_append_of_run {s t : Scan} {cs : List Char} (h : s.run cs = some t)
    (more : List Char) : s.run (cs ++ more) = t.run more := by
  rw [run_append, h, Option.bind_some]

/-- Where a space changes nothing, no amount of space does. -/
theorem run_space {s : Scan} (h : ∀ c, isSpace c = true → s.step c = some s) {cs : List Char}
    (hcs : Space cs) : s.run cs = some s := by
  induction cs with
  | nil => rfl
  | cons c cs ih =>
    obtain ⟨hc, hcs⟩ := List.forall_mem_cons.mp hcs
    rw [run_cons_of_step (h c hc), ih hcs]

/-! ## Values that have been read -/

/-- The state does what the other one does, at the end and at each character that ends a word. -/
structure Settles (s t : Scan) : Prop where
  step : ∀ c, endsWord c = true → s.step c = t.step c
  finish : s.finish = t.finish

theorem Settles.refl (s : Scan) : Settles s s := ⟨fun _ _ => rfl, rfl⟩

/-- A word that is read settles as what it stands for. -/
theorem settles_word {rev : List Char} {w : Written} (h : Written.ofWord? rev.reverse = some w)
    (st : List Frame) : Settles ⟨st, .word rev⟩ (deliver w st) where
  step c hc := by
    show (if endsWord c = true then _ else _) = _
    rw [if_pos hc, h]
    cases st with
    | nil => rfl
    | cons frame st => cases frame <;> rfl
  finish := by
    cases st with
    | nil => exact h
    | cons frame st => cases frame <;> rfl

/-- What settles goes on in the same way behind a character that ends a word. -/
theorem Settles.run {s t : Scan} (h : Settles s t) {c : Char} (hc : endsWord c = true)
    (cs : List Char) : s.run (c :: cs) = t.run (c :: cs) := by
  rw [run_cons, run_cons, h.step c hc]

theorem endsWord_of_isSpace {c : Char} (h : isSpace c = true) : endsWord c = true := by
  rw [endsWord, h]
  rfl

/-- Space behind a value is no part of it, and neither is the character behind the space. -/
theorem Settles.run_space_append {s t : Scan} (h : Settles s t)
    (ht : ∀ c, isSpace c = true → t.step c = some t) {cs : List Char} (hcs : Space cs) {c : Char}
    (hc : endsWord c = true) (more : List Char) : s.run (cs ++ c :: more) = t.run (c :: more) := by
  have hfirst : s.run (cs ++ c :: more) = t.run (cs ++ c :: more) := by
    cases cs with
    | nil => exact h.run hc more
    | cons d cs => exact h.run (endsWord_of_isSpace (hcs d List.mem_cons_self)) _
  rw [hfirst, run_append_of_run (run_space ht hcs)]

/-! ## Words -/

/-- A character that can only be part of a word. -/
structure InWord (c : Char) : Prop where
  goesOn : endsWord c = false
  noQuote : c ≠ '"'
  noBracket : c ≠ '['
  noBrace : c ≠ '{'

theorem InWord.not_isSpace {c : Char} (h : InWord c) : isSpace c = false := by
  cases hspace : isSpace c with
  | false => rfl
  | true => exact (endsWord_of_isSpace hspace).symm.trans h.goesOn

/-- The characters of a word are collected, the last one first. -/
theorem run_word {cs : List Char} (h : ∀ c ∈ cs, InWord c) (st : List Frame) (rev : List Char) :
    run ⟨st, .word rev⟩ cs = some ⟨st, .word (cs.reverse ++ rev)⟩ := by
  induction cs generalizing rev with
  | nil => rfl
  | cons c cs ih =>
    obtain ⟨hc, hcs⟩ := List.forall_mem_cons.mp h
    have hstep : step ⟨st, .word rev⟩ c = some ⟨st, .word (c :: rev)⟩ := by
      show (if endsWord c = true then _ else _) = _
      rw [hc.goesOn, if_neg Bool.false_ne_true]
    rw [run_cons_of_step hstep, ih hcs, List.reverse_cons, List.append_assoc]
    rfl

theorem step_value_of_inWord {c : Char} (h : InWord c) (st : List Frame) (closable : Bool) :
    step ⟨st, .value closable⟩ c = some ⟨st, .word [c]⟩ := by
  have hbracket : c ≠ ']' := by
    rintro rfl
    exact nomatch h.goesOn
  show beforeValue closable st c = _
  unfold beforeValue
  rw [h.not_isSpace, if_neg Bool.false_ne_true, if_neg h.noQuote, if_neg h.noBracket,
    if_neg h.noBrace, if_neg hbracket]

end Scan

/-- The text is read as the document, wherever a value may stand. -/
def Spells (cs : List Char) (w : Written) : Prop :=
  ∀ st closable, ∃ s, Scan.run ⟨st, .value closable⟩ cs = some s ∧
    Scan.Settles s (Scan.deliver w st)

/-- A word spells what it is read as. -/
theorem spells_word {cs : List Char} {w : Written} (h : Written.ofWord? cs = some w)
    (hne : cs ≠ []) (hcs : ∀ c ∈ cs, Scan.InWord c) : Spells cs w := by
  intro st closable
  cases cs with
  | nil => exact absurd rfl hne
  | cons c cs =>
    obtain ⟨hc, hrest⟩ := List.forall_mem_cons.mp hcs
    have hword : Written.ofWord? (cs.reverse ++ [c]).reverse = some w := by
      rwa [List.reverse_append, List.reverse_reverse]
    refine ⟨_, ?_, Scan.settles_word hword st⟩
    rw [Scan.run_cons_of_step (Scan.step_value_of_inWord hc st closable), Scan.run_word hrest]

/-! ## Strings -/

/-- The piece that a character is read as after it was written. -/
def Piece.ofChar (c : Char) : Piece :=
  if c.toNat < 0x20 ∧ c ∉ ['\x08', '\t', '\n', '\x0c', '\r'] then .unit c.toNat else .char c

/-- A control character is one of the first thirty-two. -/
theorem run_escape_of_control (n : Nat) (h : n < 0x20) (st : List Frame) (isKey : Bool)
    (rev : List Piece) : Scan.run ⟨st, .text isKey rev⟩ (escape (Char.ofNat n)) =
      some ⟨st, .text isKey (Piece.ofChar (Char.ofNat n) :: rev)⟩ := by
  interval_cases n <;> rfl

/-- Each character is read as one piece. -/
theorem run_escape (c : Char) (st : List Frame) (isKey : Bool) (rev : List Piece) :
    Scan.run ⟨st, .text isKey rev⟩ (escape c) =
      some ⟨st, .text isKey (Piece.ofChar c :: rev)⟩ := by
  by_cases hcontrol : c.toNat < 0x20
  · have h := run_escape_of_control c.toNat hcontrol st isKey rev
    rwa [Char.ofNat_toNat] at h
  · have hpiece : Piece.ofChar c = .char c := if_neg fun h => hcontrol h.1
    rw [hpiece]
    by_cases hquote : c = '"'
    · rw [hquote]
      rfl
    by_cases hbackslash : c = '\\'
    · rw [hbackslash]
      rfl
    have hescape : escape c = [c] := by
      rw [escape, if_neg hquote, if_neg hbackslash, if_pos (Nat.le_of_not_lt hcontrol)]
    have hstep : Scan.step ⟨st, .text isKey rev⟩ c = some ⟨st, .text isKey (.char c :: rev)⟩ := by
      show (if c = '"' then _ else _) = _
      rw [if_neg hquote, if_neg hbackslash, if_neg hcontrol]
    rw [hescape, Scan.run_cons_of_step hstep, Scan.run_nil]

/-- Inside a string the escapes are collected as the characters that they stand for. -/
theorem run_flatMap_escape (cs : List Char) (st : List Frame) (isKey : Bool) (rev : List Piece) :
    Scan.run ⟨st, .text isKey rev⟩ (cs.flatMap escape) =
      some ⟨st, .text isKey ((cs.map Piece.ofChar).reverse ++ rev)⟩ := by
  induction cs generalizing rev with
  | nil => rfl
  | cons c cs ih =>
    rw [List.flatMap_cons, Scan.run_append_of_run (run_escape c st isKey rev), ih, List.map_cons,
      List.reverse_cons, List.append_assoc]
    rfl

/-- A string in quotes is closed where it ends. -/
theorem run_quote {m : Mode} {st : List Frame} {isKey : Bool}
    (hopen : Scan.step ⟨st, m⟩ '"' = some ⟨st, .text isKey []⟩) (s : String) (more : List Char) :
    Scan.run ⟨st, m⟩ (quote s ++ more) =
      (Scan.closeText isKey (s.toList.map Piece.ofChar) st).bind fun t => t.run more := by
  have hclose (rev : List Piece) : Scan.step ⟨st, .text isKey rev⟩ '"' =
      Scan.closeText isKey rev.reverse st := rfl
  rw [quote, List.cons_append, Scan.run_cons_of_step hopen, List.append_assoc,
    Scan.run_append_of_run (run_flatMap_escape s.toList st isKey []), List.append_nil,
    List.singleton_append, Scan.run_cons, hclose, List.reverse_reverse]

/-- A quoted string spells its characters. -/
theorem spells_quote (s : String) : Spells (quote s) (.string (s.toList.map Piece.ofChar)) := by
  intro st closable
  have hclose : Scan.closeText false (s.toList.map Piece.ofChar) st =
      some (Scan.deliver (.string (s.toList.map Piece.ofChar)) st) := by
    cases st with
    | nil => rfl
    | cons frame st => cases frame <;> rfl
  refine ⟨_, ?_, Scan.Settles.refl _⟩
  have hopen : Scan.step ⟨st, .value closable⟩ '"' = some ⟨st, .text false []⟩ := rfl
  have hrun := run_quote hopen s []
  rwa [List.append_nil, hclose] at hrun

/-! ## Sequences -/

/-- What the scanner does in an open array, or in an open object. -/
structure Sequence (α : Type) where
  /-- An entry may come, or also the end; the entries so far, the last one first. -/
  ready : Bool → List α → Scan
  /-- An entry was read. -/
  filled : List α → Scan
  /-- The end was read. -/
  closed : List α → Scan
  close : Char
  endsWord_close : Scan.endsWord close = true
  step_comma : ∀ acc, (filled acc).step ',' = some (ready false acc)
  step_close : ∀ acc, (filled acc).step close = some (closed acc.reverse)
  step_close_ready : ∀ acc, (ready true acc).step close = some (closed acc.reverse)
  step_space : ∀ acc c, isSpace c = true → (filled acc).step c = some (filled acc)
  step_space_ready : ∀ closable acc c, isSpace c = true →
    (ready closable acc).step c = some (ready closable acc)

namespace Sequence

/-- The text is read as an entry. -/
def Reads (q : Sequence α) (entry : α) (cs : List Char) : Prop :=
  ∀ closable acc, ∃ s, (q.ready closable acc).run cs = some s ∧
    Scan.Settles s (q.filled (entry :: acc))

/-- Texts that are read as entries, with commas between them and space before and behind, are read as
the sequence of all entries. -/
theorem run_entries (q : Sequence α) {entries : List α} {texts : List (List Char)}
    (h : List.Forall₂ q.Reads entries texts) {pad last : List Char} (hpad : Space pad)
    (hlast : Space last) (acc : List α) (closable : Bool) (hend : entries = [] → closable = true) :
    (q.ready closable acc).run
        (pad ++ ((',' :: pad).intercalate texts ++ (last ++ [q.close]))) =
      some (q.closed (acc.reverse ++ entries)) := by
  induction h generalizing acc closable with
  | nil =>
    have hclosable := hend rfl
    subst hclosable
    have hspace := q.step_space_ready true acc
    rw [Scan.run_append_of_run (Scan.run_space hspace hpad), List.intercalate_nil, List.nil_append,
      Scan.run_append_of_run (Scan.run_space hspace hlast),
      Scan.run_cons_of_step (q.step_close_ready acc), List.append_nil, Scan.run_nil]
  | @cons entry text entries texts hentry hentries ih =>
    have hspace := q.step_space_ready closable acc
    obtain ⟨s, hs, hsettles⟩ := hentry closable acc
    rw [Scan.run_append_of_run (Scan.run_space hspace hpad)]
    cases hentries with
    | nil =>
      rw [List.intercalate_singleton, Scan.run_append_of_run hs,
        hsettles.run_space_append (q.step_space _) hlast q.endsWord_close,
        Scan.run_cons_of_step (q.step_close _), List.reverse_cons, Scan.run_nil]
    | @cons next text' entries texts hnext hentries =>
      -- The comma ends the entry, and the others follow as if they were all.
      have hrest := ih (entry :: acc) false nofun
      rw [List.intercalate_cons_cons, List.append_assoc, List.append_assoc,
        Scan.run_append_of_run hs, List.cons_append, hsettles.run rfl,
        Scan.run_cons_of_step (q.step_comma _), hrest, List.reverse_cons, List.append_assoc]
      rfl

/-- The items of an array. -/
def items (st : List Frame) : Sequence Written where
  ready closable acc := ⟨.array acc :: st, .value closable⟩
  filled acc := ⟨.array acc :: st, .next⟩
  closed ws := Scan.deliver (.array ws) st
  close := ']'
  endsWord_close := rfl
  step_comma _ := rfl
  step_close _ := rfl
  step_close_ready _ := rfl
  step_space _ _ hc := if_pos hc
  step_space_ready _ _ _ hc := if_pos hc

/-- The fields of an object. -/
def fields (st : List Frame) : Sequence (List Piece × Written) where
  ready closable acc := ⟨.object acc [] :: st, .key closable⟩
  filled acc := ⟨.object acc [] :: st, .next⟩
  closed ws := Scan.deliver (.object ws) st
  close := '}'
  endsWord_close := rfl
  step_comma _ := rfl
  step_close _ := rfl
  step_close_ready _ := rfl
  step_space _ _ hc := if_pos hc
  step_space_ready _ _ _ hc := if_pos hc

end Sequence

/-! ## Arrays and objects -/

/-- The text is read as the field, wherever a field may stand. -/
def SpellsField (cs : List Char) (field : List Piece × Written) : Prop :=
  ∀ st, (Sequence.fields st).Reads field cs

/-- A field is a name in quotes, a colon, and a value behind some space. -/
theorem spellsField {cs : List Char} {w : Written} (h : Spells cs w) {gap : List Char}
    (hgap : Space gap) (name : String) :
    SpellsField (quote name ++ ':' :: (gap ++ cs)) (name.toList.map Piece.ofChar, w) := by
  intro st closable acc
  obtain ⟨s, hs, hsettles⟩ := h (.object acc (name.toList.map Piece.ofChar) :: st) false
  refine ⟨s, ?_, hsettles⟩
  have hspace (c : Char) (hc : isSpace c = true) :
      Scan.step ⟨.object acc (name.toList.map Piece.ofChar) :: st, .value false⟩ c =
        some ⟨.object acc (name.toList.map Piece.ofChar) :: st, .value false⟩ := if_pos hc
  have hopen : Scan.step ⟨.object acc [] :: st, .key closable⟩ '"' =
      some ⟨.object acc [] :: st, .text true []⟩ := rfl
  show Scan.run ⟨.object acc [] :: st, .key closable⟩ _ = some s
  rw [run_quote hopen]
  show Scan.run ⟨.object acc (name.toList.map Piece.ofChar) :: st, .colon⟩ _ = some s
  rw [Scan.run_cons_of_step rfl, Scan.run_append_of_run (Scan.run_space hspace hgap), hs]

variable {texts : List (List Char)} {pad last : List Char}

theorem spells_array {ws : List Written} (h : List.Forall₂ (fun w cs => Spells cs w) ws texts)
    (hpad : Space pad) (hlast : Space last) :
    Spells ('[' :: (pad ++ ((',' :: pad).intercalate texts ++ (last ++ [']'])))) (.array ws) := by
  intro st closable
  have hreads : List.Forall₂ (Sequence.items st).Reads ws texts :=
    h.imp fun w cs hcs closable acc => hcs (.array acc :: st) closable
  have hrun := (Sequence.items st).run_entries hreads hpad hlast [] true fun _ => rfl
  refine ⟨_, ?_, Scan.Settles.refl _⟩
  rw [Scan.run_cons_of_step rfl]
  exact hrun

theorem spells_object {fields : List (List Piece × Written)}
    (h : List.Forall₂ (fun field cs => SpellsField cs field) fields texts) (hpad : Space pad)
    (hlast : Space last) :
    Spells ('{' :: (pad ++ ((',' :: pad).intercalate texts ++ (last ++ ['}']))))
      (.object fields) := by
  intro st closable
  have hreads : List.Forall₂ (Sequence.fields st).Reads fields texts :=
    h.imp fun field cs hcs => hcs st
  have hrun := (Sequence.fields st).run_entries hreads hpad hlast [] true fun _ => rfl
  refine ⟨_, ?_, Scan.Settles.refl _⟩
  rw [Scan.run_cons_of_step rfl]
  exact hrun

/-- A text that spells a document is read as it, also with space behind. -/
theorem Spells.ofChars?_eq {cs : List Char} {w : Written} (h : Spells cs w) {last : List Char}
    (hlast : Space last) : Written.ofChars? (cs ++ last) = some w := by
  obtain ⟨s, hs, hsettles⟩ := h [] false
  have hrun : Scan.start.run (cs ++ last) = s.run last := Scan.run_append_of_run hs last
  show (Scan.start.run (cs ++ last)).bind Scan.finish = some w
  rw [hrun]
  cases last with
  | nil => exact hsettles.finish
  | cons c last =>
    have hc := hlast c List.mem_cons_self
    have hdone (c : Char) (hc : isSpace c = true) :
      (Scan.deliver w []).step c = some (Scan.deliver w []) := if_pos hc
    rw [hsettles.run (Scan.endsWord_of_isSpace hc), Scan.run_space hdone hlast]
    rfl

end BrokerQuery.Json
