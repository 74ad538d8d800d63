import BrokerQuery.Proofs.Filter.Lowering
import BrokerQuery.Proofs.Query.Attachment
/-
  Which filters can be built, and what they are like.

  `Filter.Built` lists every way to obtain a filter: a predicate as it stands, the combinators, the
  three tests of a dimension, builders and mappings, the filter of a query after any run of steps,
  and any child of an operator that was obtained before.  The operators `&&&`, `|||` and `~~~` are
  the combinators under another name.  A filter that goes into a builder or a step was built, too.

    1. Every built filter is canonical (`Built.canonical`), by induction on how it was built.  Only a
       run of steps needs more than the lemma of one operation: what a run leaves is what its steps
       attach, joined from the left (`Step.run_filter_of_none`).
    2. Hence what `not` and writing take apart is there, and negating twice is the identity
       (`built_form`).
    3. The combinators are the boolean operations, and lose, double or move no test
       (`combinators_mean`).
-/

namespace BrokerQuery

/-- The filters inside an operand, from left to right. -/
def Operand.filters (v : Operand) : List Filter :=
  v.leaves.filterMap fun
    | .scalar _ => none
    | .expression f => some f

/-- The filters that are handed to a step. -/
def Step.filters : Step → List Filter
  | .filter entries => entries.flatMap fun entry => entry.2.filters
  | .filterWith (.ok built) => built.filters
  | .andFilter f => [f]
  | _ => []

namespace Filter

/-- The filters that can be obtained, one constructor for each way. -/
inductive Built : Filter → Prop
  | test (p : Predicate) : Built (.test p)
  | child {op : Connective} {children : List Filter} {c : Filter}
      (h : Built (.node op children)) (hc : c ∈ children) : Built c
  | and {a b : Filter} (ha : Built a) (hb : Built b) : Built (a.and b)
  | or {a b : Filter} (ha : Built a) (hb : Built b) : Built (a.or b)
  | not {a : Filter} (ha : Built a) : Built a.not
  | equals {p : Predicate} {v : Operand} {f : Filter} (h : p.equals v = .ok f) : Built f
  | notEquals {p : Predicate} {v : Operand} {f : Filter} (h : p.notEquals v = .ok f) : Built f
  | isIn {p : Predicate} {v : Operand} {f : Filter} (h : p.isIn v = .ok f) : Built f
  | build {v : Operand} {f : Filter} (hv : ∀ g ∈ v.filters, Built g) (h : build (.ok v) = .ok f) :
      Built f
  | ofEntries {entries : List (String × Operand)} {f : Filter}
      (h : ofEntries entries = .ok (some f)) : Built f
  | ofQuery {clock : Clock} {source : String} {steps : List (Clock × Step)} {f : Filter}
      (hs : ∀ call ∈ steps, ∀ g ∈ call.2.filters, Built g)
      (h : (Step.run (Query.new clock source) steps).filter = some f) : Built f

end Filter

/-- A run whose steps are handed built filters only. -/
def Step.Supplied (steps : List (Clock × Step)) : Prop :=
  ∀ call ∈ steps, ∀ f ∈ call.2.filters, f.Built

namespace Filter

/-! ## Built filters are canonical -/

/-- A builder makes no filter of its own: it gives one that was put into it. -/
theorem canonical_of_build {v : Operand} {f : Filter} (hv : ∀ g ∈ v.filters, Canonical g)
    (h : build (.ok v) = .ok f) : Canonical f := by
  rw [Except.ok.inj (build_eq_ok h)] at hv
  exact hv f List.mem_cons_self

/-- What a step attaches is canonical if what it was handed is. -/
theorem canonical_of_attached? {s : Step} {f : Filter} (hs : ∀ g ∈ s.filters, Canonical g)
    (h : s.attached? = some f) : Canonical f := by
  unfold Step.attached? at h
  split at h
  · next entries =>
    split at h
    · next f? hentries =>
      rw [h] at hentries
      exact canonical_of_ofEntries hentries
    · exact absurd h (Option.some_ne_none f).symm
  · next built =>
    split at h
    · next g hg =>
      have hbuilt : built = .ok (.expression g) := build_eq_ok hg
      subst hbuilt
      rw [← Option.some.inj h]
      exact canonical_of_build hs hg
    · exact absurd h (Option.some_ne_none f).symm
  · next g =>
    rw [← Option.some.inj h]
    exact hs g List.mem_cons_self
  · exact absurd h (Option.some_ne_none f).symm

/-- What a run leaves is canonical if what its steps were handed is. -/
theorem canonical_of_run {clock : Clock} {source : String} {steps : List (Clock × Step)}
    {f : Filter} (hs : ∀ call ∈ steps, ∀ g ∈ call.2.filters, Canonical g)
    (h : (Step.run (Query.new clock source) steps).filter = some f) : Canonical f := by
  rw [Step.run_filter_of_none rfl] at h
  refine Canonical.all? ?_ h
  intro g hg
  obtain ⟨call, hcall, hattached⟩ := List.mem_filterMap.mp hg
  exact canonical_of_attached? (hs call hcall) hattached

/-- Every filter that can be built is canonical. -/
theorem Built.canonical {f : Filter} (h : Built f) : Canonical f := by
  induction h with
  | test p => exact .test p
  | child _ hc ih => exact ih.child _ hc
  | and _ _ iha ihb => exact iha.and ihb
  | or _ _ iha ihb => exact iha.or ihb
  | not _ ih => exact ih.not
  | equals h => exact Predicate.canonical_of_equals h
  | notEquals h => exact Predicate.canonical_of_notEquals h
  | isIn h => exact Predicate.canonical_of_isIn h
  | build _ h ih => exact canonical_of_build ih h
  | ofEntries h => exact canonical_of_ofEntries h
  | ofQuery _ h ih => exact canonical_of_run ih h

/-- **The form of built filters.**  Every built filter is canonical at every node.  So the operand
that `not` takes from a "not" is there, and is all that is there; writing never finds a "not"
without operand; and negating twice is the identity. -/
theorem built_form {f : Filter} (h : f.Built) :
    f.Canonical ∧
    (f.connective? = some .not → ∃ operand, f.children = [operand]) ∧
    f.toJson ≠ .error (.notAFilter .noOperand) ∧
    f.not.not = f := by
  have hf := h.canonical
  refine ⟨hf, ?_, ?_, hf.not_not⟩
  · intro hop
    obtain ⟨c, hc, _⟩ := hf.operand hop
    exact ⟨c, by rw [hc]; rfl⟩
  · intro herror
    obtain ⟨p, _, hp⟩ := (hf.writes.error_iff _).mp herror
    exact absurd hp (by simp)

/-- The rows from outside two countries. -/
def abroad : Filter :=
  .node .not [.node .or [.test ⟨"country", some "DE"⟩, .test ⟨"country", some "AT"⟩]]

theorem abroad_built : abroad.Built :=
  .notEquals (p := .on "country") (v := .ofStrings ["DE", "AT"]) rfl

/-- A run that attaches a test, an exclusion, and the negation of a test without a value. -/
def abroadRun : List (Clock × Step) :=
  [(.ofSeconds 0, .filter [("city", .scalar "Basel")]),
    (.ofSeconds 1, .filterWith (Operand.expression abroad)),
    (.ofSeconds 2, .andFilter (.node .not [.test ⟨"device", none⟩]))]

theorem abroadRun_supplied : Step.Supplied abroadRun := by
  unfold Step.Supplied abroadRun
  rw [List.forall_mem_cons, List.forall_mem_cons, List.forall_mem_singleton]
  refine ⟨fun f hf => absurd hf List.not_mem_nil, ?_, ?_⟩
  · intro f hf
    rw [List.mem_singleton.mp hf]; exact abroad_built
  · intro f hf
    rw [List.mem_singleton.mp hf]; exact .not (.test _)

/-- The filter of a query, with a negation as its last child, is canonical. -/
theorem abroadRun_form :
    (node .and [.test ⟨"city", some "Basel"⟩, abroad, .node .not [.test ⟨"device", none⟩]]).Built ∧
    (node .and [.test ⟨"city", some "Basel"⟩, abroad,
      .node .not [.test ⟨"device", none⟩]]).Canonical := by
  have h : (node .and [.test ⟨"city", some "Basel"⟩, abroad,
      .node .not [.test ⟨"device", none⟩]]).Built :=
    @Built.ofQuery (.ofSeconds 0) "shop/orders" _ _ abroadRun_supplied rfl
  exact ⟨h, (built_form h).1⟩

/-! ## The combinators as boolean operations -/

/-- **What the combinators mean.**  On every row `and`, `or` and `not` are the boolean operations;
the operators are the same functions; and the tests of the result are those of the operands from
left to right.  Only the last line needs to know how the operand came about: `not` would drop what
stands after the first child of a "not". -/
theorem combinators_mean {a : Filter} (ha : a.Built) (b : Filter) :
    (∀ row, (a.and b).holds row = (a.holds row && b.holds row) ∧
      (a.or b).holds row = (a.holds row || b.holds row) ∧
      a.not.holds row = !a.holds row) ∧
    (a &&& b = a.and b ∧ a ||| b = a.or b ∧ ~~~a = a.not) ∧
    (a.and b).predicates = a.predicates ++ b.predicates ∧
    (a.or b).predicates = a.predicates ++ b.predicates ∧
    a.not.predicates = a.predicates := by
  refine ⟨fun row => ⟨holds_and row a b, holds_or row a b, holds_not row a⟩, ⟨rfl, rfl, rfl⟩,
    predicates_combine .and a b, predicates_combine .or a b, predicates_not ?_⟩
  intro hop
  obtain ⟨c, hc, _⟩ := ha.canonical.operand hop
  exact ⟨c, hc⟩

/-- Negating an exclusion gives the tests back, a test without a value among those joined to it. -/
theorem abroad_combined :
    abroad.Built ∧
    abroad.not.holds (fun _ => "AT") = true ∧
    (abroad.and (.test ⟨"device", none⟩)).predicates =
      [⟨"country", some "DE"⟩, ⟨"country", some "AT"⟩, ⟨"device", none⟩] := by
  obtain ⟨hmeans, _, hand, _, _⟩ := combinators_mean abroad_built (.test ⟨"device", none⟩)
  refine ⟨abroad_built, ?_, ?_⟩
  · rw [(hmeans fun _ => "AT").2.2]; decide
  · rw [hand]; rfl

end Filter
end BrokerQuery
