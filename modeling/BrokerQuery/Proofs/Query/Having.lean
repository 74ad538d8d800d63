import BrokerQuery.Proofs.Having
import BrokerQuery.Proofs.Query.Interleaving
/-
  The having clause that a run of steps leaves behind.

  Only `having` touches the clause of a query, and it always succeeds, so the clauses of a run are
  simply those that it passes, in order (`clauses`).

    1. The step: the clause afterwards is the one before, joined by "and" with what the step passes;
       that the steps of other groups leave it alone is known from what these can change
       (`applyOrKeep_having`).
    2. The run: all clauses joined from the left (`run_having`).  Only the first is ever opened, and
       only if it is a conjunction.
    3. Together with what the combinators mean, that is the theorem on clauses
       (`clauses_hold_together`).
-/

namespace BrokerQuery.Step

/-- The clause that a step passes to a query. -/
def clause? : Step → Option Having
  | .having h => some h
  | _ => none

/-- The clauses that the steps of a run pass, in order. -/
def clauses (steps : List (Clock × Step)) : List Having :=
  steps.filterMap fun call => call.2.clause?

/-- Steps of other groups leave the clause alone, whether they fail or not. -/
theorem applyOrKeep_having_of_ne {s : Step} (h : s.group ≠ .having) (clock : Clock) (q : Query) :
    (s.applyOrKeep clock q).having = q.having := by
  rcases applyOrKeep_cases clock s with hkeep | ⟨f, hf, happly⟩
  · rw [hkeep]
  · rw [happly]
    generalize s.group = g at h hf
    cases hf with
    | having join => exact absurd rfl h
    | _ => rfl

/-- The clause after a step: what was there, joined with what the step passes. -/
theorem applyOrKeep_having (clock : Clock) (q : Query) (s : Step) :
    (s.applyOrKeep clock q).having = joined Having.and (q.having.toList ++ s.clause?.toList) := by
  cases s with
  | having h =>
    show (q.addHaving h).having = _
    unfold Query.addHaving
    cases q.having <;> rfl
  | _ =>
    rw [applyOrKeep_having_of_ne (by simp [group])]
    show _ = joined Having.and (q.having.toList ++ [])
    rw [List.append_nil, joined_toList]

/-- The clause after a run that starts without one. -/
theorem run_having {q : Query} (h : q.having = none) (steps : List (Clock × Step)) :
    (run q steps).having = joined Having.and (clauses steps) := by
  rw [run_joined applyOrKeep_having, h]
  rfl

/-- **Having clauses.**  Whatever the trees, `and`, `or` and `not` are the boolean operations under
every truth of the comparisons, and negating twice gives the clause back unless it is a "not" on a
"not"; the meaning is the same even then.  Let a run on a query without a clause pass some clauses,
with any other steps between them.  Afterwards the clause is the first if that is the only one, and
otherwise one "and" of what the first brings along and of the others as they are; it holds iff all
clauses of the run do. -/
theorem clauses_hold_together :
    (∀ (truth : Having.Comparing) (a b : Having),
      (a.and b).holds truth = (a.holds truth && b.holds truth) ∧
      (a.or b).holds truth = (a.holds truth || b.holds truth) ∧
      a.not.holds truth = (!a.holds truth) ∧
      a.not.not.holds truth = a.holds truth) ∧
    (∀ a : Having, a.not.not = a ↔ ∀ c, a ≠ .neg (.neg c)) ∧
    (∀ q : Query, q.having = none → ∀ (steps : List (Clock × Step)) (first : Having)
      (others : List Having), clauses steps = first :: others →
      ∃ h, (run q steps).having = some h ∧
        (others = [] → h = first) ∧
        (others ≠ [] → h = .conj (first.conjuncts ++ others)) ∧
        ∀ truth, h.holds truth = (first :: others).all (Having.holds truth)) := by
  refine ⟨fun truth a b => ⟨Having.holds_and truth a b, Having.holds_or truth a b,
    Having.holds_not truth a, ?_⟩, Having.not_not_eq_iff, ?_⟩
  · rw [Having.holds_not, Having.holds_not, Bool.not_not]
  · intro q hq steps first others hclauses
    have hjoined : joined Having.and (first :: others) = some (others.foldl Having.and first) := rfl
    have hrun : (run q steps).having = some (others.foldl Having.and first) := by
      rw [run_having hq, hclauses, hjoined]
    refine ⟨_, hrun, ?_, ?_, fun truth => all_joined (Having.holds_and truth) hjoined⟩
    · intro hnil
      rw [hnil]; rfl
    · intro hne
      exact Option.some.inj (joined_cons Having.and_eq (fun _ => rfl) first hne)

/-- A run with a negated empty "or", a conjunction after it, and steps that fail or set something
else between them. -/
def strictRun : List (Clock × Step) :=
  [(.ofSeconds 0, .having (.conj [.neg (.disj []), .compare .greaterThan "clicks" (.ofInt 10)])),
    (.ofSeconds 1, .granularity "day" (some "nowhere")),
    (.ofSeconds 2, .aggregate .longSum ["clicks"]),
    (.ofSeconds 3, .having (.conj [])),
    (.ofSeconds 4, .filter [("city", .list [])]),
    (.ofSeconds 5, .having (.neg (.neg (.disj []))))]

/-- Of `strictRun` the first clause is opened and the others are not. -/
theorem strictRun_clause :
    (Query.new (.ofSeconds 0) "shop/orders").having = none ∧
    (run (Query.new (.ofSeconds 0) "shop/orders") strictRun).having =
      some (.conj [.neg (.disj []), .compare .greaterThan "clicks" (.ofInt 10), .conj [],
        .neg (.neg (.disj []))]) := by
  obtain ⟨_, _, hclauses⟩ := clauses_hold_together
  obtain ⟨h, hrun, _, hseveral, _⟩ := hclauses (Query.new (.ofSeconds 0) "shop/orders") rfl
    strictRun (.conj [.neg (.disj []), .compare .greaterThan "clicks" (.ofInt 10)])
    [.conj [], .neg (.neg (.disj []))] rfl
  exact ⟨rfl, by rw [hrun, hseveral (List.cons_ne_nil _ _)]; rfl⟩

end BrokerQuery.Step
