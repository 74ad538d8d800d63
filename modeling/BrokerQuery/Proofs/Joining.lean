/-
  Things joined from the left.

  A query joins its filters with "and", and its having clauses too: the first stands for itself, and
  each further one is joined to what there is.  `joined` says this for any operation.

    1. Joining what was joined already with more is joining all of it (`joined_joined_append`), so
       what a run of steps leaves can be read off the things that it adds, in order.
    2. A truth that the operation turns into "and" is that of all things together (`all_joined`).
    3. An operation that extends its left operand where it can makes one node: the parts of the first
       thing, and then the others as they are (`joined_cons`).
-/

namespace BrokerQuery

universe u

variable {α : Type u}

/-- Things joined from the left; nothing for none at all. -/
def joined (op : α → α → α) : List α → Option α
  | [] => none
  | a :: as => some (as.foldl op a)

variable {op : α → α → α}

theorem joined_toList (a? : Option α) : joined op a?.toList = a? := by
  cases a? <;> rfl

theorem joined_eq_none_iff (as : List α) : joined op as = none ↔ as = [] := by
  cases as with
  | nil => exact iff_of_true rfl rfl
  | cons a as => exact iff_of_false (Option.some_ne_none _) (List.cons_ne_nil a as)

/-- What was joined before can be joined on. -/
theorem joined_joined_append (as bs : List α) :
    joined op ((joined op as).toList ++ bs) = joined op (as ++ bs) := by
  cases as with
  | nil => rfl
  | cons a as =>
    show some (bs.foldl op (as.foldl op a)) = some ((as ++ bs).foldl op a)
    rw [List.foldl_append]

/-- Induction on what is joined: from one thing, by a further thing at a time. -/
theorem joined_induction {P : List α → α → Prop} (one : ∀ a, P [a] a)
    (more : ∀ as a b, P as a → P (as ++ [b]) (op a b)) {as : List α} {a : α}
    (h : joined op as = some a) : P as a := by
  have hfold : ∀ (bs as : List α) (a : α), P as a → P (as ++ bs) (bs.foldl op a) := by
    intro bs
    induction bs with
    | nil =>
      intro as a ha
      rw [List.append_nil]; exact ha
    | cons b bs ih =>
      intro as a ha
      have hb := ih (as ++ [b]) (op a b) (more as a b ha)
      rwa [List.append_assoc] at hb
  cases as with
  | nil => exact absurd h (Option.some_ne_none a).symm
  | cons b bs =>
    rw [← Option.some.inj h]
    exact hfold bs [b] b (one b)

/-- The joined things are true together, each on its own. -/
theorem all_joined {truth : α → Bool} (hop : ∀ a b, truth (op a b) = (truth a && truth b))
    {as : List α} {a : α} (h : joined op as = some a) : truth a = as.all truth := by
  refine joined_induction (P := fun as a => truth a = as.all truth) ?_ ?_ h
  · intro a
    simp
  · intro as a b ih
    rw [hop, ih, List.all_append]
    simp

/-- From two things on, joining makes one node: the parts of the first, then the others, none of them
taken apart. -/
theorem joined_cons {node : List α → α} {parts : α → List α}
    (hop : ∀ a b, op a b = node (parts a ++ [b])) (hparts : ∀ as, parts (node as) = as)
    (first : α) {others : List α} (h : others ≠ []) :
    joined op (first :: others) = some (node (parts first ++ others)) := by
  refine congrArg some ?_
  induction others generalizing first with
  | nil => exact absurd rfl h
  | cons b bs ih =>
    rw [List.foldl_cons, hop]
    rcases List.eq_nil_or_concat bs with hbs | ⟨_, _, hbs⟩
    · rw [hbs, List.foldl_nil]
    · rw [ih _ (by rw [hbs]; simp), hparts, List.append_assoc, List.singleton_append]

end BrokerQuery
