import BrokerQuery.Having
import BrokerQuery.Proofs.Joining
/-
  What a having clause means.

  A `Comparing` settles the truth of every comparison, and `holds` carries it through the clause.  An
  "and" of nothing holds and an "or" of nothing does not, so every tree has a truth, also one that was
  put together by hand.

    1. `and` and `or` extend or wrap their left operand.  Either way the result is one node over what
       the operand brings along (`conjuncts`, `disjuncts`) and the right operand, and what it brings
       along is together as true as the operand.  So they are the boolean operations (`holds_and`,
       `holds_or`).
    2. `not` looks at the root alone: it is the negation of every tree (`holds_not`), but negating
       twice is the identity only where no "not" stands on a "not" (`not_not_eq_iff`).
-/

namespace BrokerQuery.Having

/-- The truth of each comparison. -/
abbrev Comparing := Relation → String → Binary64 → Bool

mutual
/-- Whether a clause holds. -/
def holds (truth : Comparing) : Having → Bool
  | .compare relation aggregation value => truth relation aggregation value
  | .conj children => allHold truth children
  | .disj children => someHolds truth children
  | .neg child => !holds truth child

/-- Whether all clauses hold. -/
def allHold (truth : Comparing) : List Having → Bool
  | [] => true
  | h :: hs => holds truth h && allHold truth hs

/-- Whether one of the clauses holds. -/
def someHolds (truth : Comparing) : List Having → Bool
  | [] => false
  | h :: hs => holds truth h || someHolds truth hs
end

theorem allHold_eq (truth : Comparing) : ∀ hs : List Having, allHold truth hs = hs.all (holds truth)
  | [] => rfl
  | h :: hs => by rw [allHold, List.all_cons, allHold_eq truth hs]

theorem someHolds_eq (truth : Comparing) :
    ∀ hs : List Having, someHolds truth hs = hs.any (holds truth)
  | [] => rfl
  | h :: hs => by rw [someHolds, List.any_cons, someHolds_eq truth hs]

theorem holds_conj (truth : Comparing) (children : List Having) :
    (conj children).holds truth = children.all (holds truth) := by
  rw [holds, allHold_eq]

theorem holds_disj (truth : Comparing) (children : List Having) :
    (disj children).holds truth = children.any (holds truth) := by
  rw [holds, someHolds_eq]

theorem holds_neg (truth : Comparing) (child : Having) :
    (neg child).holds truth = !child.holds truth := by
  rw [holds]

/-! ## Junctions -/

/-- What a clause brings to an "and" on its right. -/
def conjuncts : Having → List Having
  | .conj children => children
  | h => [h]

/-- What a clause brings to an "or" on its right. -/
def disjuncts : Having → List Having
  | .disj children => children
  | h => [h]

theorem and_eq (a b : Having) : a.and b = .conj (a.conjuncts ++ [b]) := by
  cases a <;> rfl

theorem or_eq (a b : Having) : a.or b = .disj (a.disjuncts ++ [b]) := by
  cases a <;> rfl

/-- A clause holds iff all its conjuncts do. -/
theorem all_conjuncts (truth : Comparing) (h : Having) :
    h.conjuncts.all (holds truth) = h.holds truth := by
  cases h with
  | conj children => rw [conjuncts, holds_conj]
  | _ => exact Bool.and_true _

theorem any_disjuncts (truth : Comparing) (h : Having) :
    h.disjuncts.any (holds truth) = h.holds truth := by
  cases h with
  | disj children => rw [disjuncts, holds_disj]
  | _ => exact Bool.or_false _

/-- Appending to a conjunction is "and". -/
theorem holds_and (truth : Comparing) (a b : Having) :
    (a.and b).holds truth = (a.holds truth && b.holds truth) := by
  rw [and_eq, holds_conj, List.all_append, all_conjuncts, List.all_cons, List.all_nil, Bool.and_true]

theorem holds_or (truth : Comparing) (a b : Having) :
    (a.or b).holds truth = (a.holds truth || b.holds truth) := by
  rw [or_eq, holds_disj, List.any_append, any_disjuncts, List.any_cons, List.any_nil, Bool.or_false]

/-! ## Negations -/

/-- Negating a negation takes it off. -/
theorem not_neg (child : Having) : (neg child).not = child := rfl

theorem not_of_ne {a : Having} (h : ∀ child, a ≠ .neg child) : a.not = .neg a := by
  cases a with
  | neg child => exact absurd rfl (h child)
  | _ => rfl

/-- Either way the truth is the opposite. -/
theorem holds_not (truth : Comparing) (a : Having) : a.not.holds truth = !a.holds truth := by
  by_cases h : ∃ child, a = .neg child
  · obtain ⟨child, rfl⟩ := h
    rw [not_neg, holds_neg, Bool.not_not]
  · rw [not_of_ne fun child hchild => h ⟨child, hchild⟩, holds_neg]

/-- Negating twice takes two negations away where there are two, and changes nothing elsewhere. -/
theorem not_not_eq_iff (a : Having) : a.not.not = a ↔ ∀ c, a ≠ .neg (.neg c) := by
  by_cases h : ∃ child, a = .neg child
  · obtain ⟨child, rfl⟩ := h
    rw [not_neg]
    constructor
    · rintro heq c hc
      -- A child that is a "not" would lose it, so the tree would be smaller than itself.
      have hchild : child = .neg c := neg.inj hc
      rw [hchild, not_neg] at heq
      have hsize := congrArg sizeOf heq
      simp at hsize
      omega
    · intro hne
      exact not_of_ne fun c hc => hne c (congrArg neg hc)
  · have hne : ∀ child, a ≠ .neg child := fun child hchild => h ⟨child, hchild⟩
    refine iff_of_true ?_ fun c => hne (.neg c)
    rw [not_of_ne hne, not_neg]

end BrokerQuery.Having
