import BrokerQuery.Proofs.Filter.Membership
/-
  The form that the combinators keep.

  The type of filters admits operators that mean nothing, such as a "not" of nothing.  `Canonical`
  excludes them, at every node:

    * a "not" has a single child, and that is no "not";
    * an "and" or "or" has two children or more, and the first is not of its own kind.

  The second half of each line is more than it takes to give a tree a meaning.  It is what makes
  negating twice the identity (`Canonical.not_not`), which is false of a "not" over a "not".

  One lemma for each way to make a filter says that it keeps the form: the combinators
  (`Canonical.combine`, `Canonical.not`), the tests of a dimension (`canonical_of_isIn` and those
  that rest on it) and mappings (`canonical_of_ofEntries`).  Builders make nothing; they pass on what
  they were given (`build_eq_ok`).
-/

namespace BrokerQuery

namespace Filter

/-- The form of a filter that was put together by the combinators. -/
inductive Canonical : Filter → Prop
  | test (p : Predicate) : Canonical (.test p)
  | negation {operand : Filter} (h : Canonical operand) (hop : operand.connective? ≠ some .not) :
      Canonical (.node .not [operand])
  | junction {op : Connective} {first second : Filter} {rest : List Filter} (hop : op ≠ .not)
      (hfirst : first.connective? ≠ some op) (h : ∀ c ∈ first :: second :: rest, Canonical c) :
      Canonical (.node op (first :: second :: rest))

namespace Canonical

/-- The children of a canonical operator are canonical. -/
theorem child {op : Connective} {children : List Filter} (h : Canonical (.node op children)) :
    ∀ c ∈ children, Canonical c := by
  cases h with
  | negation h _ =>
    intro c hc
    rw [List.mem_singleton.mp hc]; exact h
  | junction _ _ h => exact h

/-- A canonical "not" has a single child, and that is canonical and no "not". -/
theorem operand {f : Filter} (h : Canonical f) (hop : f.connective? = some .not) :
    ∃ c, f = .node .not [c] ∧ Canonical c ∧ c.connective? ≠ some .not := by
  cases h with
  | test p => exact absurd hop (by simp [connective?])
  | @negation c h hc => exact ⟨c, rfl, h, hc⟩
  | junction hne _ _ => exact absurd (Option.some.inj hop) hne

/-! ## The combinators -/

/-- Extending a junction keeps its first child. -/
theorem append {op : Connective} (hop : op ≠ .not) {children : List Filter} {b : Filter}
    (h : Canonical (.node op children)) (hb : Canonical b) :
    Canonical (.node op (children ++ [b])) := by
  have hall : ∀ c ∈ children ++ [b], Canonical c := by
    rw [List.forall_mem_append, List.forall_mem_singleton]
    exact ⟨h.child, hb⟩
  cases h with
  | negation _ _ => exact absurd rfl hop
  | junction _ hfirst _ => exact junction hop hfirst hall

/-- A junction is extended, and around anything else a new one is made, of two children. -/
theorem combine {op : Connective} (hop : op ≠ .not) {a b : Filter} (ha : Canonical a)
    (hb : Canonical b) : Canonical (combine op a b) := by
  unfold Filter.combine
  split
  · next h =>
    rw [eq_node_of_connective? h] at ha
    exact ha.append hop hb
  · next h =>
    refine junction hop h ?_
    rw [List.forall_mem_cons, List.forall_mem_singleton]
    exact ⟨ha, hb⟩

theorem and {a b : Filter} (ha : Canonical a) (hb : Canonical b) : Canonical (a.and b) :=
  ha.combine (by decide) hb

theorem or {a b : Filter} (ha : Canonical a) (hb : Canonical b) : Canonical (a.or b) :=
  ha.combine (by decide) hb

/-- `not` takes a "not" off or puts one on, and never puts one on another. -/
theorem not {a : Filter} (ha : Canonical a) : Canonical a.not := by
  by_cases hop : a.connective? = some .not
  · obtain ⟨c, hac, hc, _⟩ := ha.operand hop
    rw [hac]; exact hc
  · rw [not_of_ne hop]; exact negation ha hop

/-- Negating a canonical filter twice gives it back. -/
theorem not_not {a : Filter} (ha : Canonical a) : a.not.not = a := by
  by_cases hop : a.connective? = some .not
  · obtain ⟨c, hac, _, hne⟩ := ha.operand hop
    rw [hac]
    show c.not = _
    rw [not_of_ne hne]
  · rw [not_of_ne hop]; rfl

/-- Canonical filters joined from the left are canonical. -/
theorem all? {fs : List Filter} (h : ∀ g ∈ fs, Canonical g) {f : Filter}
    (hf : Filter.all? fs = some f) : Canonical f := by
  refine all?_induction (P := fun fs f => (∀ g ∈ fs, Canonical g) → Canonical f) ?_ ?_ hf h
  · intro f h
    exact h f List.mem_cons_self
  · intro fs f g ih h
    rw [List.forall_mem_append] at h
    exact (ih h.1).and (h.2 g List.mem_cons_self)

end Canonical
end Filter

/-! ## Tests of a dimension -/

namespace Predicate

theorem canonical_bind (p : Predicate) (value : String) : (p.bind value).Canonical :=
  .test _

/-- A test, or an "or" of as many tests as there are values. -/
theorem canonical_oneOf (p : Predicate) {values : List String} (h : values ≠ []) :
    (p.oneOf values).Canonical := by
  match values with
  | [] => exact absurd rfl h
  | [value] => exact p.canonical_bind value
  | first :: second :: rest =>
    refine .junction (by decide) (by simp [bind, Filter.connective?]) ?_
    intro c hc
    have hmem : c ∈ (first :: second :: rest).map p.bind := hc
    obtain ⟨value, _, hvalue⟩ := List.mem_map.mp hmem
    rw [← hvalue]; exact p.canonical_bind value

/-- Tests against values are canonical: one test, or a disjunction of tests. -/
theorem canonical_of_isIn {p : Predicate} {v : Operand} {f : Filter} (h : p.isIn v = .ok f) :
    f.Canonical := by
  obtain ⟨husable, hf⟩ := (p.isIn_eq_ok_iff v f).mp h
  rw [hf]; exact p.canonical_oneOf husable.texts_ne_nil

theorem canonical_of_equals {p : Predicate} {v : Operand} {f : Filter} (h : p.equals v = .ok f) :
    f.Canonical := by
  rw [equals_eq_isIn] at h
  exact canonical_of_isIn h

/-- So are exclusions: what they negate is no negation. -/
theorem canonical_of_notEquals {p : Predicate} {v : Operand} {f : Filter}
    (h : p.notEquals v = .ok f) : f.Canonical := by
  unfold notEquals at h
  obtain ⟨g, hg, hf⟩ := Fallible.of_map_eq_ok h
  rw [← hf]; exact (canonical_of_equals hg).not

end Predicate

/-! ## Mappings and builders -/

namespace Filter

/-- So are mappings, which are such tests joined by "and". -/
theorem canonical_of_ofEntries {entries : List (String × Operand)} {f : Filter}
    (h : ofEntries entries = .ok (some f)) : f.Canonical := by
  unfold ofEntries at h
  obtain ⟨fs, hfs, hf⟩ := Fallible.of_map_eq_ok h
  refine Canonical.all? ?_ hf
  intro g hg
  obtain ⟨entry, _, hentry⟩ := Fallible.mem_of_mapM_eq_ok hfs g hg
  unfold ofEntry at hentry
  split at hentry
  · exact absurd hentry (by simp)
  · exact Predicate.canonical_of_isIn hentry

/-- A builder gives back the filter that was put into it. -/
theorem build_eq_ok {built : Except FilterError Operand} {f : Filter} (h : build built = .ok f) :
    built = .ok (.expression f) := by
  cases built with
  | error e => exact nomatch h
  | ok v =>
    cases v with
    | scalar s => exact nomatch h
    | expression g => rw [Except.ok.inj h]
    | list items => exact nomatch h

end Filter
end BrokerQuery
