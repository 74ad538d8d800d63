/-
  Cutting text at separators.

  `cut?` splits once, at the first separator; `pieces` splits at all of them.  Both are exact:
  putting the separator back between the parts gives the text again (`append_of_cut?`,
  `join_pieces`).  `lastPiece` is the name at the end of a slash-separated source.
-/

namespace BrokerQuery.Text

/-- The text before and the text after the first `sep`, or `none` where it does not occur. -/
def cut? (sep : Char) : List Char → Option (List Char × List Char)
  | [] => none
  | c :: cs => if c = sep then some ([], cs) else (cut? sep cs).map fun p => (c :: p.1, p.2)

/-- A cut loses only the separator, and the part before it has none. -/
theorem append_of_cut? {sep : Char} {cs a b : List Char} (h : cut? sep cs = some (a, b)) :
    cs = a ++ sep :: b ∧ sep ∉ a := by
  induction cs generalizing a with
  | nil => simp [cut?] at h
  | cons c cs ih =>
    by_cases hc : c = sep
    · simp [cut?, hc] at h
      obtain ⟨rfl, rfl⟩ := h
      simp [hc]
    · simp only [cut?, hc, if_false, Option.map_eq_some_iff, Prod.exists, Prod.mk.injEq] at h
      obtain ⟨a', b', h', rfl, rfl⟩ := h
      obtain ⟨rfl, hn⟩ := ih h'
      exact ⟨rfl, by simp [hn, Ne.symm hc]⟩

/-- The parts between the separators, blank ones included: n separators make n + 1 parts. -/
def pieces (sep : Char) : List Char → List (List Char)
  | [] => [[]]
  | c :: cs =>
    if c = sep then [] :: pieces sep cs
    else match pieces sep cs with
      | [] => [[c]]
      | p :: ps => (c :: p) :: ps

/-- Even the empty text has a piece, which is empty. -/
theorem pieces_ne_nil (sep : Char) (cs : List Char) : pieces sep cs ≠ [] := by
  cases cs with
  | nil => simp [pieces]
  | cons c cs =>
    simp only [pieces]
    split
    · simp
    · split <;> simp

/-- Joining the parts with the separator gives the text back. -/
theorem join_pieces (sep : Char) (cs : List Char) : [sep].intercalate (pieces sep cs) = cs := by
  induction cs with
  | nil => rfl
  | cons c cs ih =>
    have hne := pieces_ne_nil sep cs
    simp only [pieces]
    split
    · next hc =>
      subst hc
      cases hp : pieces c cs with
      | nil => exact absurd hp hne
      | cons p ps => rw [hp] at ih; rw [← ih]; rfl
    · cases hp : pieces sep cs with
      | nil => exact absurd hp hne
      | cons p ps =>
        rw [hp] at ih
        rw [← ih]
        cases ps <;> rfl

/-- The text after the last `sep`, all of it where there is none. -/
def lastPiece (sep : Char) (s : String) : String :=
  String.ofList (s.toList.reverse.takeWhile (· ≠ sep)).reverse

/-- Whether `needle` stands somewhere in `hay`. -/
def contains (needle : List Char) : List Char → Bool
  | [] => needle.isEmpty
  | c :: cs => needle.isPrefixOf (c :: cs) || contains needle cs

/-- Several strings as one, with `sep` between them. -/
def join (sep : String) (parts : List String) : String := sep.intercalate parts

end BrokerQuery.Text
