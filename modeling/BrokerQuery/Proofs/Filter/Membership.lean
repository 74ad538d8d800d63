import BrokerQuery.Proofs.Fallible
import BrokerQuery.Proofs.Filter.Meaning
/-
  Tests of a dimension against an operand.

  Of an operand only the leaves matter, and of those only how many there are and whether one is a
  filter.  An operand is `Usable` if it has leaves and all of them are scalars; its `texts` are these
  scalars from left to right.

    1. A leaf is its own only leaf (`leaves_operand`).  So `equals` and `isIn` agree on what is no
       list, and on a list the one is the other (`equals_eq_isIn`).
    2. `isIn` succeeds iff the operand is usable, and then it is `oneOf` of the texts: a test of a
       single value, or the "or" of several tests.  It fails in one of two ways (`decides_isIn`).
    3. `oneOf` keeps the rows that have one of the values (`holds_oneOf`).

  The two tests pass their operands to each other: `equals` leaves lists to `isIn`, and `isIn` leaves
  a single leaf to `equals`.  Because no leaf is a list, this stops after two turns
  (`next?_next?_next?`).
-/

namespace BrokerQuery

/-! ## Leaves -/

namespace Operand

/-- The scalars of an operand from left to right. -/
def texts (v : Operand) : List String := v.leaves.filterMap Leaf.scalar?

/-- An operand with leaves, none of them a filter. -/
def Usable (v : Operand) : Prop := v.leaves ≠ [] ∧ ∀ f, .expression f ∉ v.leaves

theorem leavesAll_eq_flatMap : ∀ vs : List Operand, leavesAll vs = vs.flatMap leaves
  | [] => rfl
  | v :: vs => by rw [leavesAll, List.flatMap_cons, leavesAll_eq_flatMap vs]

theorem leaves_list (items : List Operand) : (list items).leaves = items.flatMap leaves := by
  rw [leaves, leavesAll_eq_flatMap]

theorem leaves_operand (leaf : Leaf) : leaf.operand.leaves = [leaf] := by
  cases leaf <;> rfl

/-- Flattening an operand does not change its leaves. -/
theorem leaves_list_operand (leaves : List Leaf) :
    (list (leaves.map Leaf.operand)).leaves = leaves := by
  rw [leaves_list, List.flatMap_map]
  simp only [leaves_operand, List.flatMap_singleton']

theorem leaves_ofStrings (values : List String) :
    (ofStrings values).leaves = values.map .scalar := by
  rw [ofStrings, leaves_list, List.flatMap_map]
  exact (List.map_eq_flatMap).symm

/-- Leaves that are no filters are scalars: nothing is lost by reading their texts. -/
theorem leaves_eq_map_texts {v : Operand} (h : ∀ f, .expression f ∉ v.leaves) :
    v.leaves = v.texts.map .scalar := by
  have hall : ∀ leaves : List Leaf, (∀ f, .expression f ∉ leaves) →
      leaves = (leaves.filterMap Leaf.scalar?).map .scalar := by
    intro leaves
    induction leaves with
    | nil => exact fun _ => rfl
    | cons leaf leaves ih =>
      intro hno
      cases leaf with
      | expression f => exact absurd List.mem_cons_self (hno f)
      | scalar s =>
        show _ = Leaf.scalar s :: (leaves.filterMap Leaf.scalar?).map .scalar
        rw [← ih fun f hf => hno f (List.mem_cons_of_mem _ hf)]
  exact hall v.leaves h

/-- Where all leaves are values the texts are these values. -/
theorem texts_of_leaves {v : Operand} {values : List String} (h : v.leaves = values.map .scalar) :
    v.texts = values := by
  rw [texts, h, List.filterMap_map]
  exact List.filterMap_some

/-- The usable operands are those whose leaves are scalars, at least one. -/
theorem usable_iff {v : Operand} :
    v.Usable ↔ ∃ values : List String, values ≠ [] ∧ v.leaves = values.map .scalar := by
  constructor
  · rintro ⟨hne, hno⟩
    have hleaves := leaves_eq_map_texts hno
    exact ⟨v.texts, fun hnil => hne (by rw [hleaves, hnil]; rfl), hleaves⟩
  · rintro ⟨values, hne, h⟩
    refine ⟨fun hnil => hne (List.map_eq_nil_iff.mp (h.symm.trans hnil)), fun f hf => ?_⟩
    rw [h] at hf
    obtain ⟨_, _, hscalar⟩ := List.mem_map.mp hf
    exact nomatch hscalar

/-- An operand that can be used has a value. -/
theorem Usable.texts_ne_nil {v : Operand} (h : v.Usable) : v.texts ≠ [] := by
  obtain ⟨values, hne, hleaves⟩ := usable_iff.mp h
  rw [texts_of_leaves hleaves]; exact hne

/-- An operand is usable, or it has no leaf, or a leaf of it is a filter. -/
theorem usable_or (v : Operand) :
    v.Usable ∨ v.leaves = [] ∨ ∃ f, .expression f ∈ v.leaves := by
  by_cases hnil : v.leaves = []
  · exact .inr (.inl hnil)
  · by_cases hf : ∃ f, .expression f ∈ v.leaves
    · exact .inr (.inr hf)
    · exact .inl ⟨hnil, fun f h => hf ⟨f, h⟩⟩

end Operand

/-! ## Membership -/

namespace Predicate

open Fallible (Decides)

/-- The test against a single value, and the "or" of the tests against several. -/
def oneOf (p : Predicate) : List String → Filter
  | [value] => p.bind value
  | values => .node .or (values.map p.bind)

/-- One value makes a test, any other number a disjunction. -/
theorem oneOf_eq (p : Predicate) (values : List String) :
    (∃ value, values = [value] ∧ p.oneOf values = p.bind value) ∨
      p.oneOf values = .node .or (values.map p.bind) := by
  unfold oneOf
  split
  · next value => exact .inl ⟨value, rfl, rfl⟩
  · exact .inr rfl

theorem oneOf_of_two_le (p : Predicate) {values : List String} (h : 2 ≤ values.length) :
    p.oneOf values = .node .or (values.map p.bind) := by
  rcases p.oneOf_eq values with ⟨value, hvalues, _⟩ | hor
  · rw [hvalues] at h
    exact absurd h (by simp)
  · exact hor

/-- Only the leaves of the operand matter. -/
theorem isIn_congr (p : Predicate) {v w : Operand} (h : w.leaves = v.leaves) :
    p.isIn w = p.isIn v := by
  rw [isIn, isIn, h]

/-- A test against no values is refused. -/
theorem isIn_of_nil (p : Predicate) {v : Operand} (h : v.leaves = []) :
    p.isIn v = .error (.emptyOperand p.dimension) := by
  unfold isIn
  rw [h]

/-- A test against a filter is refused, wherever in the operand the filter is. -/
theorem isIn_of_expression (p : Predicate) {v : Operand} {f : Filter}
    (h : .expression f ∈ v.leaves) : p.isIn v = .error (.nestedExpression p.dimension) := by
  unfold isIn
  split
  · next hnil =>
    rw [hnil] at h
    exact absurd h List.not_mem_nil
  · next leaf hleaf =>
    rw [hleaf] at h
    rw [← List.mem_singleton.mp h]
    rfl
  · have hany : v.leaves.any Leaf.isExpression = true :=
      List.any_eq_true.mpr ⟨.expression f, h, rfl⟩
    rw [hany, if_pos rfl]

/-- No scalar is dropped on the way to the tests. -/
theorem isIn_of_scalars (p : Predicate) {v : Operand} {values : List String} (hne : values ≠ [])
    (h : v.leaves = values.map .scalar) : p.isIn v = .ok (p.oneOf values) := by
  unfold isIn
  rw [h]
  match values with
  | [] => exact absurd rfl hne
  | [value] => rfl
  | first :: second :: rest =>
    have hscalars : ((first :: second :: rest).map Leaf.scalar).any Leaf.isExpression = false := by
      simp [Leaf.isExpression]
    have htests : ((first :: second :: rest).map Leaf.scalar).filterMap
        (fun leaf => leaf.scalar?.map p.bind) = (first :: second :: rest).map p.bind := by
      rw [List.filterMap_map]
      exact congrFun List.filterMap_eq_map _
    show (if ((first :: second :: rest).map Leaf.scalar).any Leaf.isExpression = true then _ else
      Except.ok (Filter.node .or (((first :: second :: rest).map Leaf.scalar).filterMap _))) = _
    rw [hscalars, if_neg Bool.false_ne_true, htests]
    rfl

/-- Membership is `oneOf` of the texts of a usable operand, and otherwise one of two errors. -/
theorem decides_isIn (p : Predicate) (v : Operand) :
    Decides (p.isIn v) (fun f => v.Usable ∧ f = p.oneOf v.texts)
      (fun e => v.leaves = [] ∧ e = .emptyOperand p.dimension ∨
        (∃ f, .expression f ∈ v.leaves) ∧ e = .nestedExpression p.dimension) := by
  refine .of_total ?_ ?_ ?_
  · rintro f ⟨husable, hf⟩
    obtain ⟨values, hne, hleaves⟩ := Operand.usable_iff.mp husable
    rw [hf, Operand.texts_of_leaves hleaves]
    exact p.isIn_of_scalars hne hleaves
  · rintro e (⟨hnil, he⟩ | ⟨⟨f, hf⟩, he⟩)
    · rw [he]; exact p.isIn_of_nil hnil
    · rw [he]; exact p.isIn_of_expression hf
  · rcases v.usable_or with h | h | h
    · exact .inl ⟨_, h, rfl⟩
    · exact .inr ⟨_, .inl ⟨h, rfl⟩⟩
    · exact .inr ⟨_, .inr ⟨h, rfl⟩⟩

/-- A test succeeds iff its operand can be used, and then with its values. -/
theorem isIn_eq_ok_iff (p : Predicate) (v : Operand) (f : Filter) :
    p.isIn v = .ok f ↔ v.Usable ∧ f = p.oneOf v.texts :=
  (p.decides_isIn v).ok_iff f

/-- Membership in a list of strings fails for an empty list and is `oneOf` of any other. -/
theorem isIn_ofStrings_eq_ok_iff (p : Predicate) (values : List String) (f : Filter) :
    p.isIn (.ofStrings values) = .ok f ↔ values ≠ [] ∧ f = p.oneOf values := by
  have hleaves := Operand.leaves_ofStrings values
  rw [isIn_eq_ok_iff, Operand.texts_of_leaves hleaves]
  refine and_congr_left fun _ => ⟨fun husable hnil => husable.1 ?_, fun hne => ?_⟩
  · rw [hleaves, hnil]; rfl
  · exact Operand.usable_iff.mpr ⟨values, hne, hleaves⟩

/-! ## What `oneOf` means -/

/-- A test against values is no conjunction and no negation. -/
theorem connective?_oneOf (p : Predicate) (values : List String) {op : Connective} (hop : op ≠ .or) :
    (p.oneOf values).connective? ≠ some op := by
  rcases p.oneOf_eq values with ⟨value, _, h⟩ | h
  · rw [h]; exact (Option.some_ne_none op).symm
  · rw [h]; exact fun hor => hop (Option.some.inj hor).symm

theorem holds_bind (row : String → String) (p : Predicate) (value : String) :
    (p.bind value).holds row = true ↔ row p.dimension = value := by
  rw [bind, Filter.holds_test, beq_iff_eq, Option.some_inj]
  exact eq_comm

/-- `oneOf` keeps the rows that have one of the values. -/
theorem holds_oneOf (row : String → String) (p : Predicate) (values : List String) :
    (p.oneOf values).holds row = true ↔ row p.dimension ∈ values := by
  rcases p.oneOf_eq values with ⟨value, hvalues, h⟩ | h
  · rw [h, holds_bind, hvalues, List.mem_singleton]
  · rw [h, Filter.holds_node]
    simp [Connective.join, holds_bind]

/-- Every test of `oneOf` has a value. -/
theorem bound_oneOf (p : Predicate) (values : List String) :
    ∀ test ∈ (p.oneOf values).predicates, test.value.isSome := by
  have hbind : ∀ value, ∀ test ∈ (p.bind value).predicates, test.value.isSome := by
    intro value test htest
    rw [bind, Filter.predicates_test, List.mem_singleton] at htest
    rw [htest]; rfl
  rcases p.oneOf_eq values with ⟨value, _, h⟩ | h
  · rw [h]; exact hbind value
  · rw [h, Filter.predicates_node]
    intro test htest
    obtain ⟨f, hf, htest⟩ := List.mem_flatMap.mp htest
    obtain ⟨value, _, hvalue⟩ := List.mem_map.mp hf
    rw [← hvalue] at htest
    exact hbind value test htest

/-! ## Two tests that call each other -/

theorem equalsLeaf_eq (p : Predicate) (leaf : Leaf) : p.equalsLeaf leaf = p.equals leaf.operand := by
  cases leaf <;> rfl

/-- Equality is membership: a scalar and a filter are their own only leaves. -/
theorem equals_eq_isIn (p : Predicate) (v : Operand) : p.equals v = p.isIn v := by
  cases v <;> rfl

/-- A call of one of the two tests. -/
inductive Call
  | equals (v : Operand)
  | isIn (v : Operand)

namespace Call

/-- What a call answers. -/
def answer (p : Predicate) : Call → Except FilterError Filter
  | .equals v => p.equals v
  | .isIn v => p.isIn v

/-- The call that a call leaves the answer to, if it does not answer on its own: of `isIn` for a list,
and of `equals` for a single leaf. -/
def next? : Call → Option Call
  | .equals (.list items) => some (.isIn (.list items))
  | .equals _ => none
  | .isIn v =>
    match v.leaves with
    | [leaf] => some (.equals leaf.operand)
    | _ => none

/-- A call that passes on to another one answers what that one does. -/
theorem answer_of_next? (p : Predicate) {call inner : Call} (h : call.next? = some inner) :
    call.answer p = inner.answer p := by
  match call with
  | .equals (.list items) => rw [← Option.some.inj h]; rfl
  | .equals (.scalar s) => exact nomatch h
  | .equals (.expression f) => exact nomatch h
  | .isIn v =>
    rw [next?] at h
    split at h
    · next leaf hleaf =>
      rw [← Option.some.inj h]
      show p.isIn v = p.equals leaf.operand
      rw [← equalsLeaf_eq, Predicate.isIn, hleaf]
    · exact nomatch h

/-- A leaf is not handed on: it is no list. -/
theorem next?_equals_leaf (leaf : Leaf) : (equals leaf.operand).next? = none := by
  cases leaf <;> rfl

theorem next?_next?_isIn (v : Operand) : (isIn v).next?.bind next? = none := by
  rw [next?]
  split
  · next leaf _ => exact next?_equals_leaf leaf
  · rfl

/-- The tests call each other twice at most. -/
theorem next?_next?_next? (call : Call) : (call.next?.bind next?).bind next? = none := by
  match call with
  | .equals (.list items) => exact next?_next?_isIn (.list items)
  | .equals (.scalar _) | .equals (.expression _) => rfl
  | .isIn v => rw [next?_next?_isIn]; rfl

end Call

/-- **Tests follow the leaves.**  `equals` and `isIn` give the same for every operand.  They pass it
to each other at most twice, and what the last call answers is what all of them answer.  Neither a
value that the test had before nor the nesting of the operand matters: the dimension and the leaves
from left to right decide.  Without a leaf there is an error, and another one if a leaf is a filter;
a single scalar gives its test, and several give the "or" of theirs, in order, with their repeats.
`notEquals` fails in the same way, and otherwise it is the "not" of the result. -/
theorem tests_follow_leaves (p : Predicate) (v : Operand) :
    p.equals v = p.isIn v ∧
    (∀ call : Call, (call.next?.bind Call.next?).bind Call.next? = none ∧
      ∀ inner, call.next? = some inner → call.answer p = inner.answer p) ∧
    (∀ (q : Predicate) (w : Operand), q.dimension = p.dimension → w.leaves = v.leaves →
      q.isIn w = p.isIn v) ∧
    (v.leaves = [] → p.isIn v = .error (.emptyOperand p.dimension)) ∧
    (∀ f, .expression f ∈ v.leaves → p.isIn v = .error (.nestedExpression p.dimension)) ∧
    (∀ s, v.leaves = [.scalar s] → p.isIn v = .ok (.test ⟨p.dimension, some s⟩)) ∧
    (∀ values : List String, 2 ≤ values.length → v.leaves = values.map .scalar →
      p.isIn v = .ok (.node .or (values.map fun s => .test ⟨p.dimension, some s⟩))) ∧
    (∀ e, p.notEquals v = .error e ↔ p.isIn v = .error e) ∧
    (∀ f, p.isIn v = .ok f → p.notEquals v = .ok (.node .not [f])) := by
  have hnot : p.notEquals v = (p.isIn v).map Filter.not := by rw [notEquals, equals_eq_isIn]
  refine ⟨p.equals_eq_isIn v, fun call => ⟨call.next?_next?_next?, fun _ => call.answer_of_next? p⟩,
    ?_, p.isIn_of_nil, fun _ => p.isIn_of_expression, ?_, ?_, ?_, ?_⟩
  · intro q w hdimension hleaves
    -- The old value is overwritten, so predicates on one dimension make the same tests.
    obtain ⟨d, value⟩ := p
    obtain ⟨d', value'⟩ := q
    have hd : d' = d := hdimension
    rw [hd, isIn_congr _ hleaves]
    rfl
  · intro s hleaves
    exact p.isIn_of_scalars (List.cons_ne_nil s []) hleaves
  · intro values htwo hleaves
    have hne : values ≠ [] := List.ne_nil_of_length_pos (by omega)
    rw [p.isIn_of_scalars hne hleaves, p.oneOf_of_two_le htwo]
    rfl
  · intro e
    rw [hnot, Fallible.map_eq_error_iff]
  · intro f hf
    obtain ⟨_, hone⟩ := (p.isIn_eq_ok_iff v f).mp hf
    have hconnective : f.connective? ≠ some .not := by
      rw [hone]; exact p.connective?_oneOf _ (by decide)
    rw [hnot, hf, ← Filter.not_of_ne hconnective]
    rfl

/-- Two countries below several lists, some of them empty. -/
def nestedCountries : Operand :=
  .list [.list [], .list [.list [.scalar "DE"], .list [.list []]], .scalar "AT"]

/-- A test that had a value is asked to exclude `nestedCountries`. -/
theorem nestedCountries_excluded :
    nestedCountries.leaves = ["DE", "AT"].map .scalar ∧
    (Predicate.mk "country" (some "CH")).notEquals nestedCountries = .ok (.node .not
      [.node .or [.test ⟨"country", some "DE"⟩, .test ⟨"country", some "AT"⟩]]) := by
  have hleaves : nestedCountries.leaves = ["DE", "AT"].map .scalar := rfl
  obtain ⟨_, _, _, _, _, _, hseveral, _, hnot⟩ :=
    tests_follow_leaves ⟨"country", some "CH"⟩ nestedCountries
  exact ⟨hleaves, hnot _ (hseveral ["DE", "AT"] (Nat.le_refl 2) hleaves)⟩

end Predicate
end BrokerQuery
