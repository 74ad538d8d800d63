import BrokerQuery.Proofs.Filter.Meaning
import BrokerQuery.Query.Step
/-
  The filter that a run of steps leaves behind.

  Three steps attach a filter: a mapping with entries, a builder that gives a filter, and `andFilter`.
  `attached?` is what a single step attaches, and it depends neither on the query nor on the clock;
  an empty mapping, a filter step that fails and every other setter attach nothing.

    1. The step: the filter afterwards is the one before joined by "and" with what the step attaches
       (`applyOrKeep_filter`).
    2. The run: by induction on the steps, the filter afterwards is all that was there and all that
       was attached, joined from the left (`run_filter`).
    3. The shape: joining from the left opens the first filter, if that is a conjunction, and none of
       the later ones (`filter_shape_of_run`).
-/

namespace BrokerQuery

namespace Step

/-- The filter that a step attaches to a query. -/
def attached? : Step → Option Filter
  | .filter entries =>
    match Filter.ofEntries entries with
    | .ok f? => f?
    | .error _ => none
  | .filterWith built =>
    match Filter.build built with
    | .ok f => some f
    | .error _ => none
  | .andFilter f => some f
  | _ => none

/-- The filters that the steps of a run attach, in order. -/
def attached (steps : List (Clock × Step)) : List Filter :=
  steps.filterMap fun call => call.2.attached?

theorem attached_append (steps more : List (Clock × Step)) :
    attached (steps ++ more) = attached steps ++ attached more :=
  List.filterMap_append

/-! ## One step -/

/-- A mapping either attaches its filter or leaves the query as it is. -/
theorem applyOrKeep_filterEntries (clock : Clock) (q : Query) (entries : List (String × Operand)) :
    (Step.filter entries).applyOrKeep clock q =
      (Step.filter entries).attached?.elim q q.andFilter := by
  simp only [applyOrKeep, apply, attached?, Query.filterEntries]
  cases Filter.ofEntries entries with
  | error e => rfl
  | ok f? => cases f? <;> rfl

/-- A builder either attaches its filter or leaves the query as it is. -/
theorem applyOrKeep_filterWith (clock : Clock) (q : Query) (built : Except FilterError Operand) :
    (Step.filterWith built).applyOrKeep clock q =
      (Step.filterWith built).attached?.elim q q.andFilter := by
  simp only [applyOrKeep, apply, attached?, Query.filterWith]
  cases Filter.build built <;> rfl

/-- A setter that reads its argument either fails or leaves alone the part that it does not set. -/
theorem applyOrKeep_frame (part : Query → β) {clock : Clock} {q : Query} {s : Step}
    {read : Except QueryError α} {set : α → Query} (h : s.apply clock q = read.bind (.ok <| set ·))
    (hset : ∀ a, part (set a) = part q) : part (s.applyOrKeep clock q) = part q := by
  unfold applyOrKeep
  rw [h]
  cases read with
  | error e => rfl
  | ok a => exact hset a

/-- Attaching a filter joins it to the one that is there. -/
theorem elim_andFilter_filter (q : Query) (f? : Option Filter) :
    (f?.elim q q.andFilter).filter = Filter.all? (q.filter.toList ++ f?.toList) := by
  cases f? with
  | none => rw [Option.toList_none, List.append_nil, Filter.all?_toList]; rfl
  | some f =>
    show (q.andFilter f).filter = _
    unfold Query.andFilter
    cases q.filter <;> rfl

/-- The filter after a step: what was there, joined with what the step attaches. -/
theorem applyOrKeep_filter (clock : Clock) (q : Query) (s : Step) :
    (s.applyOrKeep clock q).filter = Filter.all? (q.filter.toList ++ s.attached?.toList) := by
  -- Of a setter that attaches nothing it is enough that it leaves the filter alone.
  have frame : s.attached? = none → (s.applyOrKeep clock q).filter = q.filter →
      (s.applyOrKeep clock q).filter = Filter.all? (q.filter.toList ++ s.attached?.toList) := by
    intro hs hq
    rw [hs, hq]
    exact elim_andFilter_filter q none
  cases s with
  | filter entries => rw [applyOrKeep_filterEntries, elim_andFilter_filter]
  | filterWith built => rw [applyOrKeep_filterWith, elim_andFilter_filter]
  | andFilter f => exact elim_andFilter_filter q (some f)
  | interval start stop => exact frame rfl (applyOrKeep_frame Query.filter rfl fun _ => rfl)
  | since start => exact frame rfl (applyOrKeep_frame Query.filter rfl fun _ => rfl)
  | intervals ranges => exact frame rfl (applyOrKeep_frame Query.filter rfl fun _ => rfl)
  | granularity text zone => exact frame rfl (applyOrKeep_frame Query.filter rfl fun _ => rfl)
  | duration milliseconds zone => exact frame rfl (applyOrKeep_frame Query.filter rfl fun _ => rfl)
  | _ => exact frame rfl rfl

/-! ## A run -/

theorem run_cons (q : Query) (call : Clock × Step) (steps : List (Clock × Step)) :
    run q (call :: steps) = run (call.2.applyOrKeep call.1 q) steps := rfl

theorem run_append (q : Query) (steps more : List (Clock × Step)) :
    run q (steps ++ more) = run (run q steps) more :=
  List.foldl_append

/-- A part of a query that every step joins to what there is: after a run it is all that was there
and all that was added, joined from the left. -/
theorem run_joined {op : α → α → α} {part : Query → Option α} {added? : Step → Option α}
    (hstep : ∀ clock q s,
      part (applyOrKeep clock q s) = joined op ((part q).toList ++ (added? s).toList))
    (q : Query) (steps : List (Clock × Step)) :
    part (run q steps) =
      joined op ((part q).toList ++ steps.filterMap fun call => added? call.2) := by
  induction steps generalizing q with
  | nil =>
    show part q = joined op ((part q).toList ++ [])
    rw [List.append_nil, joined_toList]
  | cons call steps ih =>
    rw [run_cons, ih, hstep, joined_joined_append, List.append_assoc, List.filterMap_cons]
    cases added? call.2 <;> rfl

/-- The filter after a run: what was there, joined with everything that the steps attach. -/
theorem run_filter (q : Query) (steps : List (Clock × Step)) :
    (run q steps).filter = Filter.all? (q.filter.toList ++ attached steps) := by
  have hstep : ∀ clock q s, (applyOrKeep clock q s).filter =
      joined Filter.and (q.filter.toList ++ s.attached?.toList) := by
    intro clock q s
    rw [applyOrKeep_filter, Filter.all?_eq_joined]
  rw [run_joined hstep, Filter.all?_eq_joined]
  rfl

/-- Starting without a filter, a run leaves the filters that it attaches, joined from the left. -/
theorem run_filter_of_none {q : Query} (h : q.filter = none) (steps : List (Clock × Step)) :
    (run q steps).filter = Filter.all? (attached steps) := by
  rw [run_filter, h, Option.toList_none, List.nil_append]

/-- **The filter of a run.**  Let a run start without a filter, and let its steps attach some
filters; mappings without entries, filter steps that fail and all other setters may stand between
them.  There is a filter afterwards iff something was attached.  It is the first attached filter
iff that was the only one.  Otherwise it is one conjunction of the children of the first, if the
first is a conjunction, or else of the first, and of the others as they are.  It keeps a row iff
each attached filter does. -/
theorem filter_shape_of_run {q : Query} (h : q.filter = none) (steps : List (Clock × Step)) :
    ((run q steps).filter = none ↔ attached steps = []) ∧
    (∀ first others, attached steps = first :: others →
      ((run q steps).filter = some first ↔ others = []) ∧
      (others ≠ [] →
        (run q steps).filter = some (.node .and
          ((if first.connective? = some .and then first.children else [first]) ++ others)))) ∧
    (∀ f, (run q steps).filter = some f →
      ∀ row, f.holds row = (attached steps).all (Filter.holds row)) := by
  rw [run_filter_of_none h]
  refine ⟨Filter.all?_eq_none_iff _, ?_, fun f hf row => Filter.holds_all? row hf⟩
  intro first others hs
  rw [hs]
  refine ⟨?_, fun hne => Filter.all?_cons first hne⟩
  constructor
  · intro hfirst
    -- With more than one filter the result is a conjunction that the first cannot be.
    apply Decidable.byContradiction
    intro hne
    rw [Filter.all?_cons first hne] at hfirst
    exact Filter.node_parts_append_ne hne (Option.some.inj hfirst)
  · intro hnil
    rw [hnil]; rfl

/-- A run of everything at once: attaching steps with other setters, an empty mapping and failing
steps between them. -/
def mixedRun : List (Clock × Step) :=
  [(.ofSeconds 0, .andFilter (.node .and [.test ⟨"device", some "tv"⟩, .test ⟨"city", none⟩])),
    (.ofSeconds 1, .useCache false),
    (.ofSeconds 2, .filter []),
    (.ofSeconds 3, .filter [("city", .list [])]),
    (.ofSeconds 4, .filterWith (Operand.scalar "Berlin")),
    (.ofSeconds 4, .filterWith (((Predicate.on "age").isIn (.list [])).map .expression)),
    (.ofSeconds 5, .interval (.text "never") (.text "always")),
    (.ofSeconds 6, .filter [("plan", .scalar "free")]),
    (.ofSeconds 7, .andFilter (.node .and [.test ⟨"os", some "bsd"⟩, .test ⟨"lang", some "de"⟩]))]

/-- Of `mixedRun` three steps attach; the first is opened and the third is not. -/
theorem mixedRun_filter :
    (Query.new (.ofSeconds 0) "shop/orders").filter = none ∧
    (run (Query.new (.ofSeconds 0) "shop/orders") mixedRun).filter =
      some (.node .and [.test ⟨"device", some "tv"⟩, .test ⟨"city", none⟩,
        .test ⟨"plan", some "free"⟩,
        .node .and [.test ⟨"os", some "bsd"⟩, .test ⟨"lang", some "de"⟩]]) := by
  refine ⟨rfl, ?_⟩
  have hattached : attached mixedRun =
      [.node .and [.test ⟨"device", some "tv"⟩, .test ⟨"city", none⟩],
        .test ⟨"plan", some "free"⟩,
        .node .and [.test ⟨"os", some "bsd"⟩, .test ⟨"lang", some "de"⟩]] := rfl
  exact ((filter_shape_of_run rfl mixedRun).2.1 _ _ hattached).2 (List.cons_ne_nil _ _)

end Step
end BrokerQuery
