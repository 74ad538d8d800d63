import BrokerQuery.Proofs.Text.Utf8
import BrokerQuery.Url.Percent
/-
  Percent encoding and decoding.

  An escape is a percent sign with two hexadecimal digits after it.  Encoding for a path writes
  escapes and leaves percent signs and hexadecimal digits alone, so a text decodes to the same bytes
  before and after it is encoded (`percentDecode_percentEncode`).  These are the bytes of the text
  unless it has escapes of its own; then they are fewer (`length_percentDecode_lt`).
-/

namespace BrokerQuery.Url

open Text (bytes bytes_cons utf8Bytes)

/-! ## Escapes -/

/-- Whether a text starts with a percent sign and two hexadecimal digits. -/
def startsEscape : List Char → Bool
  | '%' :: a :: b :: _ => (hexValue? a).isSome && (hexValue? b).isSome
  | _ => false

/-- Whether a text has an escape somewhere. -/
def hasEscape : List Char → Bool
  | [] => false
  | c :: cs => startsEscape (c :: cs) || hasEscape cs

theorem startsEscape_of_ne {c : Char} (h : c ≠ '%') (cs : List Char) :
    startsEscape (c :: cs) = false := by
  unfold startsEscape
  split
  · next heq => exact absurd (List.cons.inj heq).1 h
  · rfl

theorem startsEscape_of_none {a : Char} (h : hexValue? a = none) (cs : List Char) :
    startsEscape ('%' :: a :: cs) = false := by
  cases cs with
  | nil => rfl
  | cons b cs => rw [startsEscape, h]; rfl

/-- An escape is decoded to the byte that its digits write. -/
theorem percentDecode_escape {a b : Char} {x y : Nat} (ha : hexValue? a = some x)
    (hb : hexValue? b = some y) (cs : List Char) :
    percentDecode ('%' :: a :: b :: cs) = (x * 16 + y) :: percentDecode cs := by
  simp only [percentDecode, ha, hb]

/-- A character that starts no escape stands for itself. -/
theorem percentDecode_cons {c : Char} {cs : List Char} (h : startsEscape (c :: cs) = false) :
    percentDecode (c :: cs) = utf8Bytes c ++ percentDecode cs := by
  rw [percentDecode.eq_def]
  split
  next heq => exact nomatch heq
  next a b rest heq =>
    obtain ⟨rfl, rfl⟩ := List.cons.inj heq
    rw [startsEscape, Bool.and_eq_false_iff, Option.isSome_eq_false_iff,
      Option.isSome_eq_false_iff, Option.isNone_iff_eq_none, Option.isNone_iff_eq_none] at h
    split
    next ha hb =>
      rw [ha, hb] at h
      exact nomatch h
    next => rfl
  next heq =>
    obtain ⟨rfl, rfl⟩ := List.cons.inj heq
    rfl

/-- What holds of the end of a text, before an escape and before a character that starts none, holds
of every text. -/
theorem escape_induction {motive : List Char → Prop} (nil : motive [])
    (escape : ∀ {a b x y} cs, hexValue? a = some x → hexValue? b = some y → motive cs →
      motive ('%' :: a :: b :: cs))
    (char : ∀ {c} cs, startsEscape (c :: cs) = false → motive cs → motive (c :: cs))
    (cs : List Char) : motive cs := by
  induction hn : cs.length using Nat.strongRecOn generalizing cs with
  | _ n ih =>
    have hshorter (ds : List Char) (h : ds.length < cs.length) : motive ds :=
      ih ds.length (hn ▸ h) ds rfl
    cases hescape : startsEscape cs with
    | false =>
      cases cs with
      | nil => exact nil
      | cons c cs => exact char cs hescape (hshorter cs (Nat.lt_succ_self _))
    | true =>
      unfold startsEscape at hescape
      split at hescape
      next a b rest =>
        obtain ⟨ha, hb⟩ := Bool.and_eq_true_iff.mp hescape
        obtain ⟨x, hx⟩ := Option.isSome_iff_exists.mp ha
        obtain ⟨y, hy⟩ := Option.isSome_iff_exists.mp hb
        exact escape rest hx hy (hshorter rest (by simp only [List.length_cons]; omega))
      next => exact nomatch hescape

/-- No more bytes come out than a text has. -/
theorem length_percentDecode_le (cs : List Char) :
    (percentDecode cs).length ≤ (bytes cs).length := by
  induction cs using escape_induction with
  | nil => exact Nat.le_refl _
  | escape cs ha hb ih =>
    rw [percentDecode_escape ha hb, bytes_cons, bytes_cons, bytes_cons]
    simp only [List.length_append, List.length_cons]
    have hmark : (utf8Bytes '%').length = 1 := rfl
    omega
  | char cs h ih =>
    rw [percentDecode_cons h, bytes_cons, List.length_append, List.length_append]
    exact Nat.add_le_add_left ih _

/-- A text without escapes decodes to its bytes. -/
theorem percentDecode_eq_bytes {cs : List Char} (h : hasEscape cs = false) :
    percentDecode cs = bytes cs := by
  induction cs with
  | nil => rfl
  | cons c cs ih =>
    rw [hasEscape, Bool.or_eq_false_iff] at h
    rw [percentDecode_cons h.1, ih h.2, bytes_cons]

/-- Where a text has escapes, fewer bytes come out than it has. -/
theorem length_percentDecode_lt {cs : List Char} (h : hasEscape cs = true) :
    (percentDecode cs).length < (bytes cs).length := by
  induction cs using escape_induction with
  | nil => exact nomatch h
  | @escape a b x y cs ha hb ih =>
    have hle := length_percentDecode_le cs
    have hmark : (utf8Bytes '%').length = 1 := rfl
    have hdigit := Text.length_utf8Bytes_pos a
    rw [percentDecode_escape ha hb, bytes_cons, bytes_cons, bytes_cons]
    simp only [List.length_append, List.length_cons]
    omega
  | char cs hchar ih =>
    rw [hasEscape, hchar, Bool.false_or] at h
    rw [percentDecode_cons hchar, bytes_cons, List.length_append, List.length_append]
    exact Nat.add_lt_add_left (ih h) _

/-! ## Encoding -/

/-- Hexadecimal digits are read back. -/
theorem hexValue?_hexDigit : ∀ n < 16, hexValue? (hexDigit n) = some n := by decide

/-- A hexadecimal digit is in one of three ranges. -/
theorem toNat_of_hexValue? {c : Char} {x : Nat} (h : hexValue? c = some x) :
    (48 ≤ c.toNat ∧ c.toNat ≤ 57) ∨ (65 ≤ c.toNat ∧ c.toNat ≤ 70) ∨
      (97 ≤ c.toNat ∧ c.toNat ≤ 102) := by
  unfold hexValue? at h
  split at h
  next hdigit =>
    rw [Char.isDigit, Bool.and_eq_true_iff, decide_eq_true_iff, decide_eq_true_iff] at hdigit
    exact .inl hdigit
  split at h
  next hsmall => exact .inr (.inr hsmall)
  split at h
  next hcapital => exact .inr (.inl hcapital)
  next => exact nomatch h

/-- No digit is encoded in a path. -/
theorem inPathSet_of_hexValue? {c : Char} {x : Nat} (h : hexValue? c = some x) :
    inPathSet c = false := by
  have hrange := toNat_of_hexValue? h
  have hcontrol : isControl c = false := by
    rw [isControl, Bool.or_eq_false_iff, decide_eq_false_iff_not, decide_eq_false_iff_not]
    omega
  have hmark {marks : List Char} (hmarks : (marks.all fun m => (hexValue? m).isNone) = true) :
      marks.contains c = false := by
    rw [Bool.eq_false_iff, Ne, List.contains_iff_mem]
    intro hc
    have hnone := List.all_eq_true.mp hmarks c hc
    rw [h] at hnone
    exact nomatch hnone
  rw [inPathSet, inFragmentSet, hcontrol, hmark (by decide), hmark (by decide)]
  rfl

theorem hexValue?_of_inPathSet {c : Char} (h : inPathSet c = true) : hexValue? c = none := by
  cases hvalue : hexValue? c with
  | none => rfl
  | some x => rw [inPathSet_of_hexValue? hvalue] at h; exact nomatch h

theorem percentDecode_percentByte {b : Nat} (h : b < 256) (cs : List Char) :
    percentDecode (percentByte b ++ cs) = b :: percentDecode cs := by
  have hhigh := hexValue?_hexDigit (b / 16) (by omega)
  have hlow := hexValue?_hexDigit (b % 16) (by omega)
  show percentDecode ('%' :: hexDigit (b / 16) :: hexDigit (b % 16) :: cs) = _
  rw [percentDecode_escape hhigh hlow, Nat.div_add_mod' b 16]

/-- Escapes decode to their bytes one after the other. -/
theorem percentDecode_percentBytes {bs : List Nat} (h : ∀ b ∈ bs, b < 256) (cs : List Char) :
    percentDecode (bs.flatMap percentByte ++ cs) = bs ++ percentDecode cs := by
  induction bs with
  | nil => rfl
  | cons b bs ih =>
    obtain ⟨hb, hbs⟩ := List.forall_mem_cons.mp h
    rw [List.flatMap_cons, List.append_assoc, percentDecode_percentByte hb, ih hbs,
      List.cons_append]

theorem percentEncode_cons_of_mem {inSet : Char → Bool} {c : Char} (h : inSet c = true)
    (cs : List Char) :
    percentEncode inSet (c :: cs) =
      (utf8Bytes c).flatMap percentByte ++ percentEncode inSet cs := by
  rw [percentEncode, List.flatMap_cons, if_pos h]
  rfl

theorem percentEncode_cons_of_not_mem {inSet : Char → Bool} {c : Char} (h : inSet c = false)
    (cs : List Char) : percentEncode inSet (c :: cs) = c :: percentEncode inSet cs := by
  rw [percentEncode, List.flatMap_cons, h]
  rfl

/-- Encoding keeps the digits of a text where they are. -/
theorem exists_percentEncode_cons (c : Char) (cs : List Char) :
    ∃ d rest, percentEncode inPathSet (c :: cs) = d :: rest ∧ hexValue? d = hexValue? c := by
  cases hc : inPathSet c with
  | false => exact ⟨c, _, percentEncode_cons_of_not_mem hc cs, rfl⟩
  | true =>
    rw [percentEncode_cons_of_mem hc, hexValue?_of_inPathSet hc]
    cases hbytes : utf8Bytes c with
    | nil => exact absurd (Text.length_utf8Bytes_pos c) (by rw [hbytes]; exact Nat.lt_irrefl 0)
    | cons b bs => exact ⟨'%', _, rfl, rfl⟩

/-- Encoding the text after a percent sign makes no escape of it, and leaves one that is there. -/
theorem startsEscape_percentEncode (c : Char) (cs : List Char) :
    startsEscape (c :: percentEncode inPathSet cs) = startsEscape (c :: cs) := by
  by_cases hc : c = '%'
  · subst hc
    cases cs with
    | nil => rfl
    | cons a cs =>
      cases ha : inPathSet a with
      | true =>
        obtain ⟨d, rest, hencode, hvalue⟩ := exists_percentEncode_cons a cs
        have hnone := hexValue?_of_inPathSet ha
        rw [hencode, startsEscape_of_none (hvalue.trans hnone), startsEscape_of_none hnone]
      | false =>
        rw [percentEncode_cons_of_not_mem ha]
        cases cs with
        | nil => rfl
        | cons b cs =>
          obtain ⟨d, rest, hencode, hvalue⟩ := exists_percentEncode_cons b cs
          rw [hencode, startsEscape, hvalue, startsEscape]
  · rw [startsEscape_of_ne hc, startsEscape_of_ne hc]

/-- Encoding for a path does not change what a text decodes to. -/
theorem percentDecode_percentEncode (cs : List Char) :
    percentDecode (percentEncode inPathSet cs) = percentDecode cs := by
  induction cs using escape_induction with
  | nil => rfl
  | escape cs ha hb ih =>
    rw [percentEncode_cons_of_not_mem rfl,
      percentEncode_cons_of_not_mem (inPathSet_of_hexValue? ha),
      percentEncode_cons_of_not_mem (inPathSet_of_hexValue? hb), percentDecode_escape ha hb,
      percentDecode_escape ha hb, ih]
  | @char c cs h ih =>
    rw [percentDecode_cons h]
    cases hc : inPathSet c with
    | true =>
      have hbytes : ∀ b ∈ utf8Bytes c, b < 256 := fun _ => Text.lt_of_mem_utf8Bytes
      rw [percentEncode_cons_of_mem hc, percentDecode_percentBytes hbytes, ih]
    | false =>
      have hencode := (startsEscape_percentEncode c cs).trans h
      rw [percentEncode_cons_of_not_mem hc, percentDecode_cons hencode, ih]

end BrokerQuery.Url
