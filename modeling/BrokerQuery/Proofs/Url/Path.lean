import BrokerQuery.Proofs.Fallible
import BrokerQuery.Proofs.Text
import BrokerQuery.Proofs.Url.Percent
import BrokerQuery.Url.Basic
/-
  Paths of URLs.

    1. The segments of a path that was read are settled: nothing in them is encoded, no slash stands
       in them and they are no dots (`settled_of_mem_readPath`).
    2. So a path that is written and extended by a text keeps its segments when it is read again,
       and the text comes after them (`readPath_pathChars`).
    3. Reading makes no path longer than the text that it is decoded from (`extent_pieces_le`,
       `extent_resolveDots_le`).  It gets shorter where a dot is resolved, so that a path that did
       not had none (`not_isDot_of_extent_le`).
-/

namespace BrokerQuery.Url

open Fallible (Yields)
open Text (bytes bytes_cons pieces)

/-! ## Dots -/

/-- Whether a segment is resolved and not kept. -/
def isDot (s : List Char) : Bool := isDoubleDot s || isSingleDot s

theorem isDot_of_double {s : List Char} (h : isDoubleDot s = true) : isDot s = true := by
  rw [isDot, h, Bool.true_or]

theorem isDot_of_single {s : List Char} (h : isSingleDot s = true) : isDot s = true := by
  rw [isDot, h, Bool.or_true]

theorem isDot_of_not {s : List Char} (hdouble : ¬ isDoubleDot s = true)
    (hsingle : ¬ isSingleDot s = true) : isDot s = false :=
  Bool.or_eq_false_iff.mpr ⟨Bool.eq_false_iff.mpr hdouble, Bool.eq_false_iff.mpr hsingle⟩

/-- A character that is written in small letters is that letter or its capital. -/
theorem eq_or_capital_of_toLower {c d : Char} (h : c.toLower = d) :
    c = d ∨ c.toNat + 32 = d.toNat ∧ 65 ≤ c.toNat := by
  unfold Char.toLower at h
  split at h
  next hcapital =>
    refine .inr ⟨?_, hcapital.1⟩
    have hlast : c.val.toNat ≤ 90 := hcapital.2
    rw [← h]
    show c.val.toNat + 32 = (c.val + 32).toNat
    rw [UInt32.toNat_add]
    show c.val.toNat + 32 = (c.val.toNat + 32) % 2 ^ 32
    omega
  next => exact .inl h

theorem eq_of_toLower {c d : Char} (h : c.toLower = d) (hd : d.toNat < 97) : c = d := by
  rcases eq_or_capital_of_toLower h with hc | ⟨hc, hfirst⟩
  · exact hc
  · omega

theorem hexValue?_of_toLower {c : Char} (h : c.toLower = 'e') : hexValue? c = some 14 := by
  rcases eq_or_capital_of_toLower h with hc | ⟨hc, _⟩
  · rw [hc]; rfl
  · have hcapital : c = 'E' := Char.toNat_inj.mp (Nat.add_right_cancel hc)
    rw [hcapital]; rfl

/-- A dot at the start of a segment, encoded or not, is decoded to a dot. -/
theorem percentDecode_of_lower {s rest : List Char}
    (h : s.map Char.toLower = '.' :: rest ∨ s.map Char.toLower = '%' :: '2' :: 'e' :: rest) :
    ∃ s', s'.map Char.toLower = rest ∧ percentDecode s = 0x2e :: percentDecode s' := by
  rcases h with h | h
  · obtain ⟨dot, s', rfl, hdot, hrest⟩ := List.map_eq_cons_iff.mp h
    rw [eq_of_toLower hdot (by decide), percentDecode_cons (startsEscape_of_ne (by decide) s')]
    exact ⟨s', hrest, rfl⟩
  · obtain ⟨mark, s, rfl, hmark, h⟩ := List.map_eq_cons_iff.mp h
    obtain ⟨two, s, rfl, htwo, h⟩ := List.map_eq_cons_iff.mp h
    obtain ⟨e, s', rfl, he, hrest⟩ := List.map_eq_cons_iff.mp h
    rw [eq_of_toLower hmark (by decide), eq_of_toLower htwo (by decide),
      percentDecode_escape rfl (hexValue?_of_toLower he)]
    exact ⟨s', hrest, rfl⟩

/-- A segment that is looked up among some strings is one of them when it is written in small
letters. -/
theorem exists_of_contains_lower {strings : List String} {s : List Char}
    (h : strings.contains (String.ofList (s.map Char.toLower)) = true) :
    ∃ t ∈ strings, s.map Char.toLower = t.toList :=
  ⟨_, List.contains_iff_mem.mp h, String.toList_ofList.symm⟩

/-- Every way to write one dot decodes to it. -/
theorem percentDecode_of_isSingleDot {s : List Char} (h : isSingleDot s = true) :
    percentDecode s = bytes ".".toList := by
  obtain ⟨t, ht, hlower⟩ := exists_of_contains_lower h
  have hform : s.map Char.toLower = ['.'] ∨ s.map Char.toLower = ['%', '2', 'e'] := by
    simp only [List.mem_cons, List.not_mem_nil, or_false] at ht
    rcases ht with rfl | rfl
    · exact .inl hlower
    · exact .inr hlower
  obtain ⟨s', hs', hs⟩ := percentDecode_of_lower hform
  rw [hs, List.map_eq_nil_iff.mp hs']
  rfl

theorem percentDecode_of_isDoubleDot {s : List Char} (h : isDoubleDot s = true) :
    percentDecode s = bytes "..".toList := by
  obtain ⟨t, ht, hlower⟩ := exists_of_contains_lower h
  have hform : ∃ rest, (rest = ['.'] ∨ rest = ['%', '2', 'e']) ∧
      (s.map Char.toLower = '.' :: rest ∨ s.map Char.toLower = '%' :: '2' :: 'e' :: rest) := by
    simp only [List.mem_cons, List.not_mem_nil, or_false] at ht
    rcases ht with rfl | rfl | rfl | rfl
    · exact ⟨['.'], .inl rfl, .inl hlower⟩
    · exact ⟨['%', '2', 'e'], .inr rfl, .inl hlower⟩
    · exact ⟨['.'], .inl rfl, .inr hlower⟩
    · exact ⟨['%', '2', 'e'], .inr rfl, .inr hlower⟩
  obtain ⟨rest, hrest, hfirst⟩ := hform
  obtain ⟨s', hs', hs⟩ := percentDecode_of_lower hfirst
  rw [← hs'] at hrest
  obtain ⟨s'', hs'', hlast⟩ := percentDecode_of_lower hrest
  rw [hs, hlast, List.map_eq_nil_iff.mp hs'']
  rfl

/-- A segment that is no dots goes one folder down. -/
theorem resolveDots_cons {s : List Char} (h : isDot s = false) (before rest : List (List Char)) :
    resolveDots before (s :: rest) = resolveDots (s :: before) rest := by
  rw [isDot, Bool.or_eq_false_iff] at h
  cases rest with
  | nil => simp only [resolveDots, h.1, h.2, Bool.false_eq_true, if_false]
  | cons t rest => simp only [resolveDots, h.1, h.2, Bool.false_eq_true, if_false]

/-- Segments that are no dots are kept. -/
theorem resolveDots_append {path : List (List Char)} (h : ∀ s ∈ path, isDot s = false)
    (before rest : List (List Char)) :
    resolveDots before (path ++ rest) = resolveDots (path.reverse ++ before) rest := by
  induction path generalizing before with
  | nil => rfl
  | cons s path ih =>
    obtain ⟨hs, hpath⟩ := List.forall_mem_cons.mp h
    rw [List.cons_append, resolveDots_cons hs, ih hpath, List.reverse_cons, List.append_assoc]
    rfl

/-- A path without dots stays as it is. -/
theorem resolveDots_of_not_isDot {path : List (List Char)} (h : ∀ s ∈ path, isDot s = false)
    (before : List (List Char)) : resolveDots before path = before.reverse ++ path := by
  have happend := resolveDots_append h before []
  rwa [List.append_nil, resolveDots, List.reverse_append, List.reverse_reverse] at happend

theorem mem_of_mem_leaveFolder {before : List (List Char)} {s : List Char}
    (h : s ∈ leaveFolder before) : s ∈ before := by
  cases before with
  | nil => exact h
  | cons t before =>
    rw [leaveFolder] at h
    split at h
    · exact h
    · exact List.mem_cons_of_mem t h

/-- Every segment that comes out went in and is no dot, or is blank. -/
theorem mem_resolveDots {before segments : List (List Char)} {s : List Char}
    (h : s ∈ resolveDots before segments) :
    s ∈ before ∨ s = [] ∨ s ∈ segments ∧ isDot s = false := by
  -- Dots at the end leave a blank segment, those before it nothing; so the last one has its cases.
  fun_induction resolveDots before segments with
  | case1 before => exact .inl (List.mem_reverse.mp h)
  | case2 before t hdouble =>
    rcases List.mem_cons.mp (List.mem_reverse.mp h) with hs | hs
    · exact .inr (.inl hs)
    · exact .inl (mem_of_mem_leaveFolder hs)
  | case3 before t hdouble hsingle =>
    rcases List.mem_cons.mp (List.mem_reverse.mp h) with hs | hs
    · exact .inr (.inl hs)
    · exact .inl hs
  | case4 before t hdouble hsingle =>
    rcases List.mem_cons.mp (List.mem_reverse.mp h) with hs | hs
    · rw [hs]; exact .inr (.inr ⟨List.mem_cons_self, isDot_of_not hdouble hsingle⟩)
    · exact .inl hs
  | case5 before t rest _ hdouble ih =>
    exact (ih h).imp mem_of_mem_leaveFolder (.imp_right (.imp_left (List.mem_cons_of_mem t)))
  | case6 before t rest _ hdouble hsingle ih =>
    exact (ih h).imp_right (.imp_right (.imp_left (List.mem_cons_of_mem t)))
  | case7 before t rest _ hdouble hsingle ih =>
    rcases ih h with hs | hs
    · rcases List.mem_cons.mp hs with hs | hs
      · rw [hs]; exact .inr (.inr ⟨List.mem_cons_self, isDot_of_not hdouble hsingle⟩)
      · exact .inl hs
    · exact .inr (hs.imp_right (.imp_left (List.mem_cons_of_mem t)))

/-! ## Settled segments -/

/-- A segment that reading leaves as it is. -/
structure Settled (s : List Char) : Prop where
  plain : ∀ c ∈ s, inPathSet c = false ∧ c ≠ '/' ∧ c ≠ '\\'
  noDot : isDot s = false

theorem Settled.noSlash {s : List Char} (h : Settled s) : '/' ∉ s :=
  fun hmem => (h.plain _ hmem).2.1 rfl

theorem settled_nil : Settled [] := ⟨nofun, rfl⟩

/-- Nothing is encoded where nothing has to be. -/
theorem percentEncode_of_plain {inSet : Char → Bool} {s : List Char}
    (h : ∀ c ∈ s, inSet c = false) : percentEncode inSet s = s := by
  induction s with
  | nil => rfl
  | cons c s ih =>
    obtain ⟨hc, hs⟩ := List.forall_mem_cons.mp h
    rw [percentEncode_cons_of_not_mem hc, ih hs]

/-- A character that encoding puts out is not encoded again, and was there before if it separates
segments. -/
theorem mem_percentEncode {cs : List Char} {c : Char} (h : c ∈ percentEncode inPathSet cs) :
    inPathSet c = false ∧ (c ∈ cs ∨ c ≠ '/' ∧ c ≠ '\\') := by
  have hdigit : ∀ n < 16,
      inPathSet (hexDigit n) = false ∧ hexDigit n ≠ '/' ∧ hexDigit n ≠ '\\' := by decide
  obtain ⟨d, hd, hc⟩ := List.mem_flatMap.mp h
  split at hc
  next hset =>
    obtain ⟨b, hb, hc⟩ := List.mem_flatMap.mp hc
    have hbyte := Text.lt_of_mem_utf8Bytes hb
    simp only [percentByte, List.mem_cons, List.not_mem_nil, or_false] at hc
    rcases hc with rfl | rfl | rfl
    · exact ⟨rfl, .inr ⟨by decide, by decide⟩⟩
    · exact (hdigit _ (by omega)).imp_right .inr
    · exact (hdigit _ (by omega)).imp_right .inr
  next hset =>
    rw [List.mem_singleton.mp hc]
    exact ⟨Bool.eq_false_iff.mpr hset, .inl hd⟩

/-- No break stands in a path. -/
theorem isBreak_of_plain {c : Char} (h : inPathSet c = false) : isBreak c = false := by
  refine Bool.eq_false_iff.mpr fun hbreak => ?_
  have hcases : (c = '\t' ∨ c = '\n') ∨ c = '\r' := by
    simpa only [isBreak, Bool.or_eq_true, beq_iff_eq] using hbreak
  rcases hcases with (rfl | rfl) | rfl
  · exact absurd h (by decide)
  · exact absurd h (by decide)
  · exact absurd h (by decide)

/-- Backslashes are slashes. -/
def slashes (cs : List Char) : List Char := cs.map fun c => if c = '\\' then '/' else c

theorem ne_of_mem_slashes {cs : List Char} {c : Char} (h : c ∈ slashes cs) : c ≠ '\\' := by
  obtain ⟨d, _, hd⟩ := List.mem_map.mp h
  split at hd
  next => rw [← hd]; decide
  next hne => rw [← hd]; exact hne

/-- Only backslashes are turned. -/
theorem slashes_of_not_mem {cs : List Char} (h : '\\' ∉ cs) : slashes cs = cs := by
  refine List.map_congr_left (g := id) ?_ |>.trans (List.map_id cs)
  intro c hc
  exact if_neg (ne_of_mem_of_not_mem hc h)

theorem not_mem_of_slashes {cs : List Char} (h : '/' ∉ slashes cs) : '\\' ∉ cs :=
  fun hmem => h (List.mem_map.mpr ⟨'\\', hmem, rfl⟩)

/-- A backslash has as many bytes as a slash. -/
theorem length_bytes_slashes (cs : List Char) :
    (bytes (slashes cs)).length = (bytes cs).length := by
  induction cs with
  | nil => rfl
  | cons c cs ih =>
    rw [slashes, List.map_cons, bytes_cons, bytes_cons, List.length_append, List.length_append]
    split
    next hc => rw [hc]; exact congrArg (1 + ·) ih
    next => exact congrArg _ ih

/-- Every segment of a path that was read is settled. -/
theorem settled_of_mem_readPath {cs s : List Char} (h : s ∈ readPath cs) : Settled s := by
  rcases mem_resolveDots h with hs | hs | ⟨hs, hdot⟩
  · exact absurd hs List.not_mem_nil
  · rw [hs]; exact settled_nil
  · refine ⟨fun c hc => ?_, hdot⟩
    obtain ⟨p, hp, rfl⟩ := List.mem_map.mp hs
    obtain ⟨hset, hplace⟩ := mem_percentEncode hc
    rcases hplace with hc | hc
    · obtain ⟨hmem, hslash⟩ := Text.mem_of_mem_pieces hp hc
      have hinner : c ∈ slashes cs := by
        split at hmem
        · exact List.mem_of_mem_drop hmem
        · exact hmem
      exact ⟨hset, hslash, ne_of_mem_slashes hinner⟩
    · exact ⟨hset, hc⟩

/-- A URL of a broker has a path that was read. -/
theorem exists_readPath {text : String} {u : BrokerUrl} (h : BrokerUrl.read text = .ok u) :
    ∃ cs, u.path = readPath cs := by
  have hrest (secure : Bool) (cs : List Char) :
      Yields (fun u => ∃ cs, u.path = readPath cs) (BrokerUrl.ofRest secure cs) := by
    refine Yields.bind .any fun a _ => ?_
    exact .ok ⟨_, rfl⟩
  have hread : Yields (fun u => ∃ cs, u.path = readPath cs) (BrokerUrl.read text) := by
    unfold BrokerUrl.read
    split
    · exact .error
    dsimp only
    split
    · exact hrest false _
    split
    · exact hrest true _
    split
    · exact .bind .any fun _ _ => .error
    split
    · exact .bind .any fun _ _ => .error
    split
    · exact .bind .any fun _ _ => .error
    · exact .error
  exact hread u h

/-! ## Writing a path and reading it again -/

/-- The pieces of a path that is written are its segments, and what comes after it. -/
theorem pieces_pathChars {path : List (List Char)} (h : ∀ s ∈ path, '/' ∉ s) {cs : List Char}
    {ps : List (List Char)} (hcs : pieces '/' cs = [] :: ps) :
    pieces '/' (pathChars path ++ cs) = [] :: (path ++ ps) := by
  induction path with
  | nil => exact hcs
  | cons s path ih =>
    obtain ⟨hs, hpath⟩ := List.forall_mem_cons.mp h
    have hcons : pathChars (s :: path) ++ cs = '/' :: (s ++ (pathChars path ++ cs)) := by
      rw [pathChars, List.flatMap_cons, List.cons_append, List.cons_append, List.append_assoc]
      rfl
    rw [hcons, Text.pieces_cons_of_eq, Text.pieces_append hs (ih hpath), List.append_nil,
      List.cons_append]

/-- A written path has one reading if no segment has a slash in it. -/
theorem pathChars_injective {path path' : List (List Char)} (h : ∀ s ∈ path, '/' ∉ s)
    (h' : ∀ s ∈ path', '/' ∉ s) (hchars : pathChars path = pathChars path') : path = path' := by
  have hnil : pieces '/' [] = [[]] := rfl
  have hpieces := pieces_pathChars h hnil
  have hpieces' := pieces_pathChars h' hnil
  simp only [List.append_nil] at hpieces hpieces'
  rw [hchars, hpieces'] at hpieces
  exact (List.cons.inj hpieces).2.symm

/-- A settled path is written without anything that reading would change. -/
theorem plain_of_mem_pathChars {path : List (List Char)} (h : ∀ s ∈ path, Settled s) {c : Char}
    (hc : c ∈ pathChars path) : inPathSet c = false ∧ c ≠ '\\' := by
  obtain ⟨s, hs, hc⟩ := List.mem_flatMap.mp hc
  rcases List.mem_cons.mp hc with rfl | hc
  · exact ⟨rfl, by decide⟩
  · obtain ⟨hset, _, hbackslash⟩ := (h s hs).plain c hc
    exact ⟨hset, hbackslash⟩

/-- A path of settled segments that is written and read again keeps them. -/
theorem readPath_pathChars {path : List (List Char)} (h : ∀ s ∈ path, Settled s)
    (rest : List Char) :
    readPath (pathChars path ++ '/' :: rest) =
      resolveDots path.reverse ((pieces '/' (slashes rest)).map (percentEncode inPathSet)) := by
  have hbackslash : '\\' ∉ pathChars path := fun hmem => (plain_of_mem_pathChars h hmem).2 rfl
  have hslashes :
      slashes (pathChars path ++ '/' :: rest) = pathChars path ++ '/' :: slashes rest := by
    rw [slashes, List.map_append]
    exact congrArg (· ++ _) (slashes_of_not_mem hbackslash)
  -- The first slash is dropped before the text is split, and with it the first, blank piece.
  obtain ⟨inner, hinner⟩ : ∃ inner, pathChars path ++ '/' :: slashes rest = '/' :: inner := by
    cases path with
    | nil => exact ⟨_, rfl⟩
    | cons s path => exact ⟨_, rfl⟩
  have hpieces : pieces '/' inner = path ++ pieces '/' (slashes rest) := by
    have hall := pieces_pathChars (fun s hs => (h s hs).noSlash)
      (Text.pieces_cons_of_eq '/' (slashes rest))
    rw [hinner, Text.pieces_cons_of_eq] at hall
    exact (List.cons.inj hall).2
  have hsame : path.map (percentEncode inPathSet) = path :=
    (List.map_congr_left fun s hs => percentEncode_of_plain fun c hc =>
      ((h s hs).plain c hc).1).trans (List.map_id path)
  show resolveDots [] ((pieces '/' (if (slashes _).head? = some '/' then (slashes _).drop 1
    else slashes _)).map _) = _
  rw [hslashes, hinner, if_pos List.head?_cons, List.drop_one, List.tail_cons, hpieces,
    List.map_append, hsame, resolveDots_append fun s hs => (h s hs).noDot, List.append_nil]

/-- The end of a path without its slashes is the path without its blank segments there. -/
theorem rdropWhile_pathChars {path : List (List Char)} (h : ∀ s ∈ path, '/' ∉ s) :
    (pathChars path).rdropWhile (· = '/') = pathChars (path.rdropWhile (· = [])) := by
  induction path using List.reverseRecOn with
  | nil => rfl
  | append_singleton path s ih =>
    have hpath : ∀ t ∈ path, '/' ∉ t := fun t ht => h t (List.mem_append_left _ ht)
    have hs : '/' ∉ s := h s (List.mem_append_right _ List.mem_cons_self)
    have hchars : pathChars (path ++ [s]) = pathChars path ++ '/' :: s := by
      rw [pathChars, List.flatMap_append, List.flatMap_singleton]
      rfl
    rcases List.eq_nil_or_concat s with rfl | ⟨front, last, rfl⟩
    · rw [hchars, List.rdropWhile_concat_pos _ _ _ (by decide),
        List.rdropWhile_concat_pos _ _ _ (by decide), ih hpath]
    · rw [List.concat_eq_append] at hs hchars ⊢
      have hlast : last ≠ '/' := by
        rintro rfl
        exact hs (List.mem_append_right _ List.mem_cons_self)
      rw [List.rdropWhile_concat_neg _ _ _ (by simp), hchars, ← List.cons_append,
        ← List.append_assoc, List.rdropWhile_concat_neg _ _ _ (by simpa using hlast)]

/-! ## Lengths -/

/-- How many bytes a path has once its segments are decoded. -/
def extent (path : List (List Char)) : Nat :=
  (path.flatMap fun s => 0x2F :: percentDecode s).length

@[simp] theorem extent_nil : extent [] = 0 := rfl

@[simp] theorem extent_cons (s : List Char) (path : List (List Char)) :
    extent (s :: path) = (percentDecode s).length + 1 + extent path := by
  rw [extent, List.flatMap_cons, List.length_append, List.length_cons]
  rfl

@[simp] theorem extent_append (path rest : List (List Char)) :
    extent (path ++ rest) = extent path + extent rest := by
  rw [extent, List.flatMap_append, List.length_append]
  rfl

@[simp] theorem extent_reverse (path : List (List Char)) : extent path.reverse = extent path := by
  induction path with
  | nil => rfl
  | cons s path ih =>
    rw [List.reverse_cons, extent_append, ih, extent_cons, extent_cons, extent_nil]
    omega

/-- Leaving a folder makes no path longer. -/
theorem extent_leaveFolder_le (before : List (List Char)) :
    extent (leaveFolder before) ≤ extent before := by
  cases before with
  | nil => exact Nat.le_refl _
  | cons s before =>
    rw [leaveFolder]
    split
    · exact Nat.le_refl _
    · rw [extent_cons]; exact Nat.le_add_left _ _

/-- A dot is decoded to something. -/
theorem length_percentDecode_of_isDot {s : List Char} (h : isDot s = true) :
    0 < (percentDecode s).length := by
  rcases Bool.or_eq_true_iff.mp h with hdouble | hsingle
  · rw [percentDecode_of_isDoubleDot hdouble]; exact Nat.two_pos
  · rw [percentDecode_of_isSingleDot hsingle]; exact Nat.one_pos

/-- Resolving makes a path no longer. -/
theorem extent_resolveDots_le (before segments : List (List Char)) :
    extent (resolveDots before segments) ≤ extent before + extent segments := by
  fun_induction resolveDots before segments with
  | case1 before => rw [extent_reverse]; exact Nat.le_add_right _ _
  | case2 before s hdouble =>
    have hle := extent_leaveFolder_le before
    simp only [extent_reverse, extent_cons, extent_nil, percentDecode, List.length_nil]
    omega
  | case3 before s hdouble hsingle =>
    simp only [extent_reverse, extent_cons, extent_nil, percentDecode, List.length_nil]
    omega
  | case4 before s hdouble hsingle =>
    simp only [extent_reverse, extent_cons, extent_nil]
    omega
  | case5 before s rest _ hdouble ih =>
    have hle := extent_leaveFolder_le before
    rw [extent_cons]
    omega
  | case6 before s rest _ hdouble hsingle ih =>
    rw [extent_cons]
    omega
  | case7 before s rest _ hdouble hsingle ih =>
    rw [extent_cons] at ih ⊢
    omega

/-- A path that does not get shorter has no dots to resolve. -/
theorem not_isDot_of_extent_le {before segments : List (List Char)}
    (h : extent before + extent segments ≤ extent (resolveDots before segments)) :
    ∀ s ∈ segments, isDot s = false := by
  -- Dots go with their segment, and two dots take a folder with them, so either costs length.
  fun_induction resolveDots before segments with
  | case1 before => exact nofun
  | case2 before s hdouble =>
    have hle := extent_leaveFolder_le before
    have hpos := length_percentDecode_of_isDot (isDot_of_double hdouble)
    simp only [extent_reverse, extent_cons, extent_nil, percentDecode, List.length_nil] at h
    omega
  | case3 before s hdouble hsingle =>
    have hpos := length_percentDecode_of_isDot (isDot_of_single hsingle)
    simp only [extent_reverse, extent_cons, extent_nil, percentDecode, List.length_nil] at h
    omega
  | case4 before s hdouble hsingle =>
    exact List.forall_mem_singleton.mpr (isDot_of_not hdouble hsingle)
  | case5 before s rest _ hdouble ih =>
    have hle := extent_leaveFolder_le before
    have hrest := extent_resolveDots_le (leaveFolder before) rest
    rw [extent_cons] at h
    omega
  | case6 before s rest _ hdouble hsingle ih =>
    have hrest := extent_resolveDots_le before rest
    rw [extent_cons] at h
    omega
  | case7 before s rest _ hdouble hsingle ih =>
    rw [extent_cons] at h ih
    exact List.forall_mem_cons.mpr ⟨isDot_of_not hdouble hsingle, ih (by omega)⟩

/-- Encoded segments are no longer than the texts they encode. -/
theorem extent_map_percentEncode_le (texts : List (List Char)) :
    extent (texts.map (percentEncode inPathSet)) ≤ (bytes (pathChars texts)).length := by
  induction texts with
  | nil => exact Nat.le_refl 0
  | cons cs texts ih =>
    have hle := length_percentDecode_le cs
    have hbytes : (bytes (pathChars (cs :: texts))).length =
        1 + (bytes cs).length + (bytes (pathChars texts)).length := by
      rw [pathChars, List.flatMap_cons, Text.bytes_append, List.length_append, bytes_cons,
        List.length_append]
      rfl
    rw [List.map_cons, extent_cons, percentDecode_percentEncode, hbytes]
    omega

/-- The pieces of a text, as segments of a path, write the text with a slash in front. -/
theorem pathChars_pieces (cs : List Char) : pathChars (pieces '/' cs) = '/' :: cs := by
  induction cs with
  | nil => rfl
  | cons c cs ih =>
    by_cases hc : c = '/'
    · rw [hc, Text.pieces_cons_of_eq, ← ih]
      rfl
    · cases hcs : pieces '/' cs with
      | nil => exact absurd hcs (Text.pieces_ne_nil '/' cs)
      | cons p ps =>
        have hrest : p ++ pathChars ps = cs := by
          rw [hcs] at ih
          exact (List.cons.inj ih).2
        rw [Text.pieces_cons_of_ne hc hcs, ← hrest]
        rfl

/-- The segments that a text becomes are no longer than the text and a slash. -/
theorem extent_pieces_le (cs : List Char) :
    extent ((pieces '/' cs).map (percentEncode inPathSet)) ≤ (bytes cs).length + 1 := by
  have hle := extent_map_percentEncode_le (pieces '/' cs)
  rw [pathChars_pieces, bytes_cons, List.length_append, Nat.add_comm] at hle
  exact hle

end BrokerQuery.Url
