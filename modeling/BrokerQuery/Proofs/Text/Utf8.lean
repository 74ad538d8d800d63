import BrokerQuery.Text.Utf8
import Mathlib.Data.List.Basic
/-
  UTF-8 reads its own bytes back.

  The bytes of a character are one that stands for itself, or a first byte that says how many follow
  and in which range the second one lies, and then the others (`lead_of_three`, `lead_of_four`).
  Each step of the reader takes in six bits, and the last one gives the character
  (`decode_utf8Bytes`).  So the bytes of a text are read back as the text (`decodeUtf8_bytes`), and
  no two texts have the same bytes (`bytes_injective`).
-/

namespace BrokerQuery.Text

/-- The bytes of a text. -/
def bytes (cs : List Char) : List Nat := cs.flatMap utf8Bytes

theorem bytes_cons (c : Char) (cs : List Char) : bytes (c :: cs) = utf8Bytes c ++ bytes cs :=
  List.flatMap_cons

theorem bytes_append (cs ds : List Char) : bytes (cs ++ ds) = bytes cs ++ bytes ds :=
  List.flatMap_append

theorem bytes_sublist {cs ds : List Char} (h : cs.Sublist ds) : (bytes cs).Sublist (bytes ds) := by
  induction h with
  | slnil => exact .slnil
  | cons d _ ih => rw [bytes_cons]; exact ih.trans (List.sublist_append_right _ _)
  | cons_cons d _ ih => rw [bytes_cons, bytes_cons]; exact ih.append_left _

/-- No character is half of a surrogate pair. -/
theorem toNat_valid (c : Char) : c.toNat < 0xD800 ∨ (0xDFFF < c.toNat ∧ c.toNat < 0x110000) :=
  c.valid

theorem lt_of_mem_utf8Bytes {c : Char} {b : Nat} (h : b ∈ utf8Bytes c) : b < 256 := by
  have hc := toNat_valid c
  unfold utf8Bytes at h
  dsimp only at h
  split at h
  · simp only [List.mem_singleton] at h; omega
  split at h
  · simp only [List.mem_cons, List.not_mem_nil, or_false] at h; omega
  split at h
  · simp only [List.mem_cons, List.not_mem_nil, or_false] at h; omega
  · simp only [List.mem_cons, List.not_mem_nil, or_false] at h; omega

theorem length_utf8Bytes_pos (c : Char) : 0 < (utf8Bytes c).length := by
  unfold utf8Bytes
  dsimp only
  split
  · exact Nat.one_pos
  split
  · exact Nat.two_pos
  split <;> exact Nat.succ_pos _

/-- A first byte of a longer character leads inside the character. -/
theorem decode_of_lead {b owed bits lo hi : Nat} (hb : ¬ b < 0x80)
    (h : lead b = some (owed, bits, lo, hi)) (bs : List Nat) :
    Utf8State.between.decode (b :: bs) = (Utf8State.inside owed bits lo hi).decode bs := by
  simp only [Utf8State.decode, Utf8State.step, Utf8State.start, if_neg hb, h]
  rfl

/-- The last byte of a character completes it. -/
theorem decode_last {bits lo hi b : Nat} (h : lo ≤ b ∧ b ≤ hi) (bs : List Nat) :
    (Utf8State.inside 1 bits lo hi).decode (b :: bs) =
      Char.ofNat (bits * 64 + (b - 0x80)) :: Utf8State.between.decode bs := by
  simp only [Utf8State.decode, Utf8State.step, if_pos h]
  rfl

/-- A byte of a character that is not the last one adds its bits. -/
theorem decode_next {owed bits lo hi b : Nat} (h : lo ≤ b ∧ b ≤ hi) (bs : List Nat) :
    (Utf8State.inside (owed + 2) bits lo hi).decode (b :: bs) =
      (Utf8State.inside (owed + 1) (bits * 64 + (b - 0x80)) 0x80 0xBF).decode bs := by
  simp only [Utf8State.decode, Utf8State.step, if_pos h]
  rfl

/-- The range for the second byte of three has room for every character of three bytes. -/
theorem lead_of_three {n : Nat} (hlow : 0x800 ≤ n) (hhigh : n < 0x10000)
    (hvalid : n < 0xD800 ∨ 0xDFFF < n) :
    ∃ lo hi, lead (0xE0 + n / 4096) = some (2, n / 4096, lo, hi) ∧
      lo ≤ 0x80 + n / 64 % 64 ∧ 0x80 + n / 64 % 64 ≤ hi := by
  unfold lead
  rw [if_neg (by omega)]
  by_cases hfirst : n / 4096 = 0
  · exact ⟨0xA0, 0xBF, by rw [hfirst]; rfl, by omega, by omega⟩
  by_cases hsurrogate : n / 4096 = 0xD
  · exact ⟨0x80, 0x9F, by rw [hsurrogate]; rfl, by omega, by omega⟩
  · refine ⟨0x80, 0xBF, ?_, by omega, by omega⟩
    rw [if_neg (by omega), if_neg (by omega), if_pos (by omega), Nat.add_sub_cancel_left]

/-- The range for the second byte of four has room for every character of four bytes. -/
theorem lead_of_four {n : Nat} (hlow : 0x10000 ≤ n) (hhigh : n < 0x110000) :
    ∃ lo hi, lead (0xF0 + n / 262144) = some (3, n / 262144, lo, hi) ∧
      lo ≤ 0x80 + n / 4096 % 64 ∧ 0x80 + n / 4096 % 64 ≤ hi := by
  unfold lead
  rw [if_neg (by omega), if_neg (by omega), if_neg (by omega), if_neg (by omega)]
  by_cases hfirst : n / 262144 = 0
  · exact ⟨0x90, 0xBF, by rw [hfirst]; rfl, by omega, by omega⟩
  by_cases hlast : n / 262144 = 4
  · exact ⟨0x80, 0x8F, by rw [hlast]; rfl, by omega, by omega⟩
  · refine ⟨0x80, 0xBF, ?_, by omega, by omega⟩
    rw [if_neg (by omega), if_neg (by omega), if_pos (by omega), Nat.add_sub_cancel_left]

/-- Reading the bytes of a character between two characters gives the character. -/
theorem decode_utf8Bytes (c : Char) (bs : List Nat) :
    Utf8State.between.decode (utf8Bytes c ++ bs) = c :: Utf8State.between.decode bs := by
  have hvalid := toNat_valid c
  have hchar : ∀ n, n = c.toNat → Char.ofNat n = c := by
    intro n hn
    rw [hn, Char.ofNat_toNat]
  unfold utf8Bytes
  dsimp only
  -- One case for each number of bytes, which the size of the character decides.
  split
  next hone =>
    rw [List.singleton_append]
    simp only [Utf8State.decode, Utf8State.step, Utf8State.start, if_pos hone, Char.ofNat_toNat]
    rfl
  next hone =>
  split
  next htwo =>
    have hlead : lead (0xC0 + c.toNat / 64) = some (1, c.toNat / 64, 0x80, 0xBF) := by
      unfold lead
      rw [if_pos (by omega), Nat.add_sub_cancel_left]
    rw [List.cons_append, List.singleton_append, decode_of_lead (by omega) hlead,
      decode_last (by omega), hchar _ (by omega)]
  next htwo =>
  split
  next hthree =>
    obtain ⟨lo, hi, hlead, hlo, hhi⟩ := lead_of_three (n := c.toNat) (by omega) hthree (by omega)
    rw [List.cons_append, List.cons_append, List.singleton_append,
      decode_of_lead (by omega) hlead, decode_next ⟨hlo, hhi⟩, decode_last (by omega),
      hchar _ (by omega)]
  next hthree =>
    obtain ⟨lo, hi, hlead, hlo, hhi⟩ := lead_of_four (n := c.toNat) (by omega) (by omega)
    rw [List.cons_append, List.cons_append, List.cons_append, List.singleton_append,
      decode_of_lead (by omega) hlead, decode_next ⟨hlo, hhi⟩, decode_next (by omega),
      decode_last (by omega), hchar _ (by omega)]

/-- The bytes of a text are read back as the text. -/
theorem decodeUtf8_bytes (cs : List Char) : decodeUtf8 (bytes cs) = String.ofList cs := by
  have hdecode : Utf8State.between.decode (bytes cs) = cs := by
    induction cs with
    | nil => rfl
    | cons c cs ih => rw [bytes_cons, decode_utf8Bytes, ih]
  rw [decodeUtf8, hdecode]

/-- Texts with the same bytes are the same. -/
theorem bytes_injective {cs ds : List Char} (h : bytes cs = bytes ds) : cs = ds := by
  have hlists := congrArg decodeUtf8 h
  rw [decodeUtf8_bytes, decodeUtf8_bytes] at hlists
  simpa using congrArg String.toList hlists

end BrokerQuery.Text
