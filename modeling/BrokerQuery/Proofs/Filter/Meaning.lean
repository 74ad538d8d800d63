import BrokerQuery.Filter.Build
import BrokerQuery.Proofs.Joining
/-
  What a filter means.

  A row gives each dimension a value.  `holds` is the truth of a filter on a row: a test holds iff
  the row has its value, and an operator does with the truth of its children what its connective
  says.  `predicates` is the other reading of a tree, its tests from left to right; it says which
  tests stand there, whatever the operators above them.

  Both readings see through `combine` in the same way.  Whether `combine` extends its left operand
  or makes a new operator, the result is one operator over `parts`, the children that the left
  operand brings along, and the right operand (`combine_eq`).  The two readings of the parts
  together are those of the operand (`join_parts`, `predicates_parts`), so no later proof has to
  tell the two cases apart.
-/

namespace BrokerQuery

/-- The truth of an operator from the truth of its children; a "not" looks at the first alone. -/
def Connective.join : Connective → List Bool → Bool
  | .and, truths => truths.all id
  | .or, truths => truths.any id
  | .not, truths => !truths.headD false

namespace Filter

/-! ## Truth on a row -/

mutual
/-- Whether a filter keeps a row, given as the value of each dimension.  A test that was never given
a value keeps none. -/
def holds (row : String → String) : Filter → Bool
  | .test p => p.value == some (row p.dimension)
  | .node op children => op.join (holdsEach row children)

/-- The truth of several filters, in order. -/
def holdsEach (row : String → String) : List Filter → List Bool
  | [] => []
  | f :: fs => holds row f :: holdsEach row fs
end

theorem holdsEach_eq_map (row : String → String) :
    ∀ fs : List Filter, holdsEach row fs = fs.map (holds row)
  | [] => rfl
  | f :: fs => by rw [holdsEach, List.map_cons, holdsEach_eq_map row fs]

/-- A test holds where the dimension has its value; without a value it holds nowhere. -/
theorem holds_test (row : String → String) (p : Predicate) :
    holds row (.test p) = (p.value == some (row p.dimension)) := by
  rw [holds]

/-- The truth of a node is that of its children, joined by its operator. -/
theorem holds_node (row : String → String) (op : Connective) (children : List Filter) :
    holds row (.node op children) = op.join (children.map (holds row)) := by
  rw [holds, holdsEach_eq_map]

/-! ## Tests from left to right -/

mutual
/-- The tests of a filter from left to right, repeats kept. -/
def predicates : Filter → List Predicate
  | .test p => [p]
  | .node _ children => predicatesAll children

/-- The tests of several filters, one filter after the other. -/
def predicatesAll : List Filter → List Predicate
  | [] => []
  | f :: fs => predicates f ++ predicatesAll fs
end

theorem predicatesAll_eq_flatMap : ∀ fs : List Filter, predicatesAll fs = fs.flatMap predicates
  | [] => rfl
  | f :: fs => by rw [predicatesAll, List.flatMap_cons, predicatesAll_eq_flatMap fs]

theorem predicates_test (p : Predicate) : predicates (.test p) = [p] := by
  rw [predicates]

theorem predicates_node (op : Connective) (children : List Filter) :
    predicates (.node op children) = children.flatMap predicates := by
  rw [predicates, predicatesAll_eq_flatMap]

/-! ## The parts of a left operand -/

/-- What a filter brings to an operator as its left operand: its children if it is an operator of
that kind already, and otherwise itself. -/
def parts (op : Connective) (f : Filter) : List Filter :=
  if f.connective? = some op then f.children else [f]

theorem parts_node (op : Connective) (children : List Filter) :
    parts op (.node op children) = children :=
  if_pos rfl

theorem parts_of_ne {op : Connective} {f : Filter} (h : f.connective? ≠ some op) :
    parts op f = [f] :=
  if_neg h

/-- A filter with a connective is an operator over its children. -/
theorem eq_node_of_connective? {op : Connective} {f : Filter} (h : f.connective? = some op) :
    f = .node op f.children := by
  cases f with
  | test p => exact absurd h (by simp [connective?])
  | node op' children =>
    have hop : op' = op := Option.some.inj h
    rw [hop]; rfl

/-- Extending and wrapping are one thing: the right operand after the parts of the left one. -/
theorem combine_eq (op : Connective) (a b : Filter) :
    combine op a b = .node op (parts op a ++ [b]) := by
  unfold combine parts
  split <;> rfl

/-- A connective other than "not" may be taken of the first truths, and then of the rest. -/
theorem join_append {op : Connective} (hop : op ≠ .not) (truths : List Bool) (t : Bool) :
    op.join (truths ++ [t]) = op.join [op.join truths, t] := by
  cases op with
  | and => simp [Connective.join]
  | or => simp [Connective.join]
  | not => exact absurd rfl hop

/-- Under its own connective, a filter is as true as its parts together. -/
theorem join_parts {op : Connective} (hop : op ≠ .not) (row : String → String) (f : Filter) :
    op.join ((parts op f).map (holds row)) = holds row f := by
  by_cases h : f.connective? = some op
  · rw [eq_node_of_connective? h, parts_node, holds_node]
  · rw [parts_of_ne h]
    cases op with
    | and => simp [Connective.join]
    | or => simp [Connective.join]
    | not => exact absurd rfl hop

/-- The tests of the parts are those of the filter. -/
theorem predicates_parts (op : Connective) (f : Filter) :
    (parts op f).flatMap predicates = predicates f := by
  by_cases h : f.connective? = some op
  · rw [eq_node_of_connective? h, parts_node, predicates_node]
  · rw [parts_of_ne h, List.flatMap_cons, List.flatMap_nil, List.append_nil]

/-! ## What the combinators mean -/

/-- Opening an operand changes nothing in the truth of the whole. -/
theorem holds_combine {op : Connective} (hop : op ≠ .not) (row : String → String) (a b : Filter) :
    holds row (combine op a b) = op.join [holds row a, holds row b] := by
  rw [combine_eq, holds_node, List.map_append, List.map_cons, List.map_nil, join_append hop,
    join_parts hop]

theorem holds_and (row : String → String) (a b : Filter) :
    holds row (a.and b) = (holds row a && holds row b) := by
  rw [and, holds_combine (by decide)]
  simp [Connective.join]

theorem holds_or (row : String → String) (a b : Filter) :
    holds row (a.or b) = (holds row a || holds row b) := by
  rw [or, holds_combine (by decide)]
  simp [Connective.join]

/-- A filter that is no "not" is negated by a "not" over it. -/
theorem not_of_ne {a : Filter} (h : a.connective? ≠ some .not) : a.not = .node .not [a] := by
  unfold not
  split
  · exact absurd rfl h
  · rfl

/-- Truth looks at the first child of a "not" alone, and that is the one which `not` gives back. -/
theorem holds_not (row : String → String) (a : Filter) : holds row a.not = !holds row a := by
  unfold not
  split
  · rw [holds_node, List.map_cons]
    simp [Connective.join]
  · rw [holds_node, List.map_cons, List.map_nil]
    simp [Connective.join]

/-- Combining keeps every test and the order of the tests. -/
theorem predicates_combine (op : Connective) (a b : Filter) :
    predicates (combine op a b) = predicates a ++ predicates b := by
  rw [combine_eq, predicates_node, List.flatMap_append, predicates_parts, List.flatMap_cons,
    List.flatMap_nil, List.append_nil]

/-- A negation has the tests of its operand; a "not" has to have a single child for that. -/
theorem predicates_not {a : Filter}
    (h : a.connective? = some .not → ∃ operand, a = .node .not [operand]) :
    predicates a.not = predicates a := by
  by_cases hop : a.connective? = some .not
  · obtain ⟨operand, ha⟩ := h hop
    rw [ha, predicates_node, List.flatMap_cons, List.flatMap_nil, List.append_nil]
    rfl
  · rw [not_of_ne hop, predicates_node, List.flatMap_cons, List.flatMap_nil, List.append_nil]

/-! ## Several filters joined from the left -/

/-- Joining all filters is joining them from the left. -/
theorem all?_eq_joined : ∀ fs : List Filter, all? fs = joined and fs
  | [] => rfl
  | _ :: _ => rfl

theorem all?_toList (f? : Option Filter) : all? f?.toList = f? := by
  rw [all?_eq_joined, joined_toList]

theorem all?_eq_none_iff (fs : List Filter) : all? fs = none ↔ fs = [] := by
  rw [all?_eq_joined, joined_eq_none_iff]

/-- Joining what is joined already with more is joining all of it. -/
theorem all?_all?_append (fs gs : List Filter) :
    all? ((all? fs).toList ++ gs) = all? (fs ++ gs) := by
  simp only [all?_eq_joined, joined_joined_append]

/-- Induction on what is joined: from one filter, by a further filter at a time. -/
theorem all?_induction {P : List Filter → Filter → Prop} (one : ∀ f, P [f] f)
    (more : ∀ fs f g, P fs f → P (fs ++ [g]) (f.and g)) {fs : List Filter} {f : Filter}
    (h : all? fs = some f) : P fs f :=
  joined_induction one more ((all?_eq_joined fs).symm.trans h)

/-- The joined filters hold together, each on its own. -/
theorem holds_all? {fs : List Filter} {f : Filter} (row : String → String) (h : all? fs = some f) :
    holds row f = fs.all (holds row) :=
  all_joined (holds_and row) ((all?_eq_joined fs).symm.trans h)

/-- The joined filters bring their tests, one filter after the other. -/
theorem predicates_all? {fs : List Filter} {f : Filter} (h : all? fs = some f) :
    predicates f = fs.flatMap predicates := by
  refine all?_induction (P := fun fs f => predicates f = fs.flatMap predicates) ?_ ?_ h
  · intro f
    rw [List.flatMap_cons, List.flatMap_nil, List.append_nil]
  · intro fs f g ih
    rw [and, predicates_combine, ih, List.flatMap_append, List.flatMap_cons, List.flatMap_nil,
      List.append_nil]

/-- From two filters on, joining gives one conjunction: the parts of the first, then the others. -/
theorem all?_cons (first : Filter) {others : List Filter} (h : others ≠ []) :
    all? (first :: others) = some (.node .and (parts .and first ++ others)) := by
  rw [all?_eq_joined]
  exact joined_cons (combine_eq .and) (parts_node .and) first h

/-- Filters that are no conjunctions stay as they are when they are joined. -/
theorem all?_flat {fs : List Filter} (hflat : ∀ f ∈ fs, f.connective? ≠ some .and)
    (hmany : 2 ≤ fs.length) : all? fs = some (.node .and fs) := by
  match fs with
  | [] | [_] => exact absurd hmany (by simp)
  | first :: second :: rest =>
    rw [all?_cons first (List.cons_ne_nil second rest),
      parts_of_ne (hflat first List.mem_cons_self), List.singleton_append]

/-- A junction that was extended is another filter: it has more children than before. -/
theorem node_parts_append_ne {op : Connective} {f : Filter} {others : List Filter}
    (h : others ≠ []) : .node op (parts op f ++ others) ≠ f := by
  intro he
  have hop : f.connective? = some op := by rw [← he]; rfl
  have hchildren : f.children ++ others = f.children := by
    have := congrArg children he
    rwa [parts, if_pos hop] at this
  exact h (List.append_right_eq_self.mp hchildren)

end Filter
end BrokerQuery
