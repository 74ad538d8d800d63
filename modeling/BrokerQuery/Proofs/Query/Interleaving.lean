import BrokerQuery.Json.Writer
import BrokerQuery.Proofs.Fallible
import BrokerQuery.Proofs.Query.Attachment
/-
  Steps in another order.

  Each step belongs to a group, which is what it sets.  Steps of one group build on each other, so
  their order counts; how the groups are interleaved does not.

    1. Whether a step fails is settled without the query: a step is a change of queries, or an error
       (`apply_eq_change`).
    2. `Changes` lists what the changes of each group can be; a step makes one of these or none
       (`applyOrKeep_cases`).  Changes of two groups commute (`Changes.comm`), and only one pair of
       groups has a field in common: both the shape and the aggregations settle the type of the query.
       It commutes because a shape overwrites the type and an aggregation leaves a type alone that is
       there.
    3. A fold of items that commute across groups is determined by the items of each group
       (`foldl_eq_of_groups`): the first item of one list is the first of its group in the other, and
       can be brought to the front.
    4. The type of a query is therefore that of its last shape, wherever the aggregations stand
       (`queryType_run`).
-/

namespace BrokerQuery

/-! ## Folds of items that commute across groups -/

section Fold

variable {σ α κ : Type} (act : σ → α → σ) (group : α → κ)

/-- An item is brought to the front of items of other groups. -/
theorem foldl_middle_of_ne
    (hcomm : ∀ s a b, group a ≠ group b → act (act s a) b = act (act s b) a) {before : List α}
    {a : α} (h : ∀ b ∈ before, group b ≠ group a) (after : List α) (s : σ) :
    (before ++ a :: after).foldl act s = (before ++ after).foldl act (act s a) := by
  induction before generalizing s with
  | nil => rfl
  | cons b before ih =>
    obtain ⟨hb, hbefore⟩ := List.forall_mem_cons.mp h
    show (before ++ a :: after).foldl act (act s b) = (before ++ after).foldl act (act (act s a) b)
    rw [ih hbefore, hcomm s b a hb]

/-- Two lists with the same items of each group, in the same order, have the same fold. -/
theorem foldl_eq_of_groups [DecidableEq κ]
    (hcomm : ∀ s a b, group a ≠ group b → act (act s a) b = act (act s b) a) {xs ys : List α}
    (h : ∀ k, xs.filter (group · = k) = ys.filter (group · = k)) (s : σ) :
    xs.foldl act s = ys.foldl act s := by
  induction xs generalizing ys s with
  | nil =>
    have hys : ys = [] := by
      refine List.eq_nil_iff_forall_not_mem.mpr fun y hy => ?_
      have hmem : y ∈ ys.filter (group · = group y) := List.mem_filter.mpr ⟨hy, by simp⟩
      rw [← h] at hmem
      exact absurd hmem List.not_mem_nil
    rw [hys]
  | cons a xs ih =>
    -- In the other list, nothing of its group stands before `a`.
    have hgroup := h (group a)
    rw [List.filter_cons_of_pos (by simp)] at hgroup
    obtain ⟨before, after, hys, hbefore, _, hafter⟩ := List.filter_eq_cons_iff.mp hgroup.symm
    have hne : ∀ b ∈ before, group b ≠ group a := fun b hb => by simpa using hbefore b hb
    rw [hys, foldl_middle_of_ne act group hcomm hne, List.foldl_cons]
    refine ih (fun k => ?_) (act s a)
    by_cases hk : group a = k
    · rw [← hk, List.filter_append, hafter, List.filter_eq_nil_iff.mpr hbefore, List.nil_append]
    · have hrest := h k
      rw [hys, List.filter_cons_of_neg (by simpa using hk), List.filter_append,
        List.filter_cons_of_neg (by simpa using hk)] at hrest
      rw [hrest, List.filter_append]

end Fold

namespace Step

/-! ## Groups of steps -/

/-- What a step sets. -/
inductive Group
  | source
  | shape
  | aggregation
  | having
  | limit
  | timeRange
  | granularity
  | cache
  | filter
deriving DecidableEq

/-- The group that a step belongs to. -/
def group : Step → Group
  | .source _ => .source
  | .queryType _ => .shape
  | .groupBy _ => .shape
  | .topN .. => .shape
  | .timeSeries => .shape
  | .select .. => .shape
  | .aggregate .. => .aggregation
  | .distinctCount _ => .aggregation
  | .postAggregation _ => .aggregation
  | .postAggregationDouble _ => .aggregation
  | .having _ => .having
  | .limit .. => .limit
  | .interval .. => .timeRange
  | .since _ => .timeRange
  | .intervals _ => .timeRange
  | .granularity .. => .granularity
  | .duration .. => .granularity
  | .useCache _ => .cache
  | .filter _ => .filter
  | .filterWith _ => .filter
  | .andFilter _ => .filter

/-- The calls of a run that belong to a group, in order. -/
def ofGroup (g : Group) (steps : List (Clock × Step)) : List (Clock × Step) :=
  steps.filter fun call => call.2.group = g

/-! ## Steps as changes -/

/-- The texts of some time ranges. -/
def rangeTexts (clock : Clock) (ranges : List (Bound × Bound)) : Except QueryError (List String) :=
  ranges.mapM fun (a, b) => Interval.format clock.today a b

/-- What a step does to every query, or why it fails. -/
def change (clock : Clock) : Step → Except QueryError (Query → Query)
  | .source s => .ok fun q => q.onSource s
  | .queryType t => .ok fun q => q.ofType t
  | .groupBy dimensions => .ok fun q => q.groupBy dimensions
  | .topN dimension metric threshold => .ok fun q => q.topN dimension metric threshold
  | .timeSeries => .ok fun q => q.timeSeries
  | .select dimensions metrics rows segments =>
    .ok fun q => q.select dimensions metrics rows segments
  | .aggregate kind fields => .ok fun q => q.aggregate kind fields
  | .distinctCount dimensions => .ok fun q => q.distinctCount dimensions
  | .postAggregation p => .ok fun q => q.postAggregation p
  | .postAggregationDouble p => .ok fun q => q.postAggregationDouble p
  | .having h => .ok fun q => q.addHaving h
  | .limit rows columns => .ok fun q => q.limitTo rows columns
  | .interval start stop =>
    (rangeTexts clock [(start, stop)]).map fun intervals q => { q with intervals }
  | .since start =>
    (rangeTexts clock [(start, .at clock.now)]).map fun intervals q => { q with intervals }
  | .intervals ranges => (rangeTexts clock ranges).map fun intervals q => { q with intervals }
  | .granularity text zone =>
    (Granularity.ofText text zone).map fun granularity q => { q with granularity }
  | .duration milliseconds zone =>
    (Granularity.ofDuration milliseconds zone).map fun granularity q => { q with granularity }
  | .useCache enabled => .ok fun q => q.cached enabled
  | .filter entries =>
    ((Filter.ofEntries entries).mapError .filter).map fun f? q => f?.elim q q.andFilter
  | .filterWith built => ((Filter.build built).mapError .filter).map fun f q => q.andFilter f
  | .andFilter f => .ok fun q => q.andFilter f

/-- A setter that first reads its argument, as a change. -/
theorem bind_set_eq_map {α : Type} (read : Except QueryError α) (set : α → Query → Query)
    (q : Query) : (read >>= fun a => .ok (set a q)) = (read.map set).map fun f => f q := by
  cases read <;> rfl

/-- A step changes queries or fails, and which of both does not depend on the query. -/
theorem apply_eq_change (clock : Clock) (q : Query) (s : Step) :
    s.apply clock q = (s.change clock).map fun f => f q := by
  have hranges := fun ranges =>
    bind_set_eq_map (rangeTexts clock ranges) (fun intervals q => { q with intervals }) q
  have hgranularity := fun read =>
    bind_set_eq_map read (fun granularity q => { q with granularity }) q
  cases s with
  | interval start stop => exact hranges [(start, stop)]
  | since start => exact hranges [(start, .at clock.now)]
  | intervals ranges => exact hranges ranges
  | granularity text zone => exact hgranularity (Granularity.ofText text zone)
  | duration milliseconds zone => exact hgranularity (Granularity.ofDuration milliseconds zone)
  | filter entries =>
    simp only [apply, change, Query.filterEntries]
    cases Filter.ofEntries entries with
    | error e => rfl
    | ok f? => cases f? <;> rfl
  | filterWith built =>
    simp only [apply, change, Query.filterWith]
    cases Filter.build built <;> rfl
  | _ => rfl

/-- The errors of a step are the same on all queries. -/
theorem apply_eq_error_iff (clock : Clock) (q : Query) (s : Step) (e : QueryError) :
    s.apply clock q = .error e ↔ s.change clock = .error e := by
  rw [apply_eq_change, Fallible.map_eq_error_iff]

/-- A step that does not fail is its change. -/
theorem applyOrKeep_of_change {clock : Clock} {s : Step} {f : Query → Query}
    (h : s.change clock = .ok f) (q : Query) : s.applyOrKeep clock q = f q := by
  rw [applyOrKeep, apply_eq_change, h]
  rfl

/-- A step that fails on one query changes none. -/
theorem applyOrKeep_of_error {clock : Clock} {s : Step} {e : QueryError}
    (h : s.change clock = .error e) (q : Query) : s.applyOrKeep clock q = q := by
  rw [applyOrKeep, apply_eq_change, h]
  rfl

/-! ## What the steps of a group can change -/

/-- What the steps of each group can do to a query.  A shape sets the type and some of the fields
that go with it; an aggregation leaves a type alone that is there. -/
inductive Changes : Group → (Query → Query) → Prop
  | source (service dataSource : String) :
      Changes .source fun q => { q with service, dataSource }
  | shape (t : QueryType) (dimensions metrics : Option (List String))
      (dimension metric : Option String) (threshold : Option Nat) (paging : Option PagingSpec) :
      Changes .shape fun q => { q with
        queryType := some t
        dimensions := dimensions.or q.dimensions
        metrics := metrics.or q.metrics
        dimension := dimension.or q.dimension
        metric := metric.or q.metric
        threshold := threshold.or q.threshold
        paging := paging.or q.paging }
  | aggregation (settle : Option QueryType → Option QueryType)
      (hsettle : ∀ t, settle (some t) = some t)
      (extend : Option (List Aggregation) → Option (List Aggregation))
      (compute : Option (List PostAggregation) → Option (List PostAggregation)) :
      Changes .aggregation fun q => { q with
        queryType := settle q.queryType
        aggregations := extend q.aggregations
        postAggregations := compute q.postAggregations }
  | having (join : Option Having → Option Having) :
      Changes .having fun q => { q with having := join q.having }
  | limit (limitSpec : Option LimitSpec) : Changes .limit fun q => { q with limitSpec }
  | timeRange (intervals : List String) : Changes .timeRange fun q => { q with intervals }
  | granularity (granularity : Granularity) : Changes .granularity fun q => { q with granularity }
  | cache (useCache : Option Bool) : Changes .cache fun q => { q with useCache }
  | filter (join : Option Filter → Option Filter) :
      Changes .filter fun q => { q with filter := join q.filter }

/-- Sums, counts and extremes settle the type and extend the aggregations; with them may come a
computation. -/
theorem changes_aggregate (kind : AggregationKind) (fields : List String)
    (compute : Option (List PostAggregation) → Option (List PostAggregation)) :
    Changes .aggregation fun q =>
      { q with postAggregations := compute q.postAggregations }.aggregate kind fields :=
  .aggregation (fun t => some (t.getD .groupBy)) (fun _ => rfl)
    (fun list => some (fields.foldl (Aggregation.addUnless kind) (list.getD []))) compute

theorem changes_andFilter (f : Filter) : Changes .filter fun q => q.andFilter f := by
  have hjoin (q : Query) :
      q.andFilter f = { q with filter := some (q.filter.elim f (·.and f)) } := by
    cases h : q.filter <;> simp only [Query.andFilter, h, Option.elim]
  simp only [hjoin]
  exact .filter fun existing => some (existing.elim f (·.and f))

theorem changes_addHaving (clause : Having) : Changes .having fun q => q.addHaving clause := by
  have hjoin (q : Query) :
      q.addHaving clause = { q with having := some (q.having.elim clause (·.and clause)) } := by
    cases h : q.having <;> simp only [Query.addHaving, h, Option.elim]
  simp only [hjoin]
  exact .having fun existing => some (existing.elim clause (·.and clause))

/-- A setter that first reads its argument can change what it can change for each argument. -/
theorem changes_of_map {α ε : Type} {g : Group} {read : Except ε α} {set : α → Query → Query}
    {f : Query → Query} (hset : ∀ a, Changes g (set a)) (h : read.map set = .ok f) :
    Changes g f := by
  obtain ⟨a, _, rfl⟩ := Fallible.of_map_eq_ok h
  exact hset a

/-- A step that does not fail changes what steps of its group can change. -/
theorem changes_of_change {clock : Clock} {s : Step} {f : Query → Query}
    (h : s.change clock = .ok f) : Changes s.group f := by
  -- A setter that reads no argument is its change; the others are, once the argument was read.
  cases s with
  | source s => cases h; exact .source _ _
  | queryType t => cases h; exact .shape t none none none none none none
  | groupBy dimensions => cases h; exact .shape _ (some dimensions) none none none none none
  | topN dimension metric threshold =>
    cases h; exact .shape _ none none (some dimension) (some metric) (some threshold) none
  | timeSeries => cases h; exact .shape _ none none none none none none
  | select dimensions metrics rows segments =>
    cases h; exact .shape _ (some dimensions) (some metrics) none none none (some _)
  | aggregate kind fields => cases h; exact changes_aggregate kind fields id
  | distinctCount dimensions =>
    cases h
    exact .aggregation id (fun _ => rfl)
      (fun list => some (list.getD [] ++ dimensions.map (Aggregation.of .hyperUnique))) id
  | postAggregation p =>
    cases h; exact changes_aggregate .longSum p.fieldNames fun ps => some (ps.getD [] ++ [p])
  | postAggregationDouble p =>
    cases h; exact changes_aggregate .doubleSum p.fieldNames fun ps => some (ps.getD [] ++ [p])
  | having clause => cases h; exact changes_addHaving clause
  | limit rows columns => cases h; exact .limit _
  | interval start stop => exact changes_of_map .timeRange h
  | since start => exact changes_of_map .timeRange h
  | intervals ranges => exact changes_of_map .timeRange h
  | granularity text zone => exact changes_of_map .granularity h
  | duration milliseconds zone => exact changes_of_map .granularity h
  | useCache enabled => cases h; exact .cache _
  | filter entries =>
    refine changes_of_map (fun f? => ?_) h
    cases f? with
    | none => exact .filter id
    | some g => exact changes_andFilter g
  | filterWith built => exact changes_of_map changes_andFilter h
  | andFilter g => cases h; exact changes_andFilter g

/-- A step leaves every query alone, or changes what the steps of its group can change. -/
theorem applyOrKeep_cases (clock : Clock) (s : Step) :
    (∀ q, s.applyOrKeep clock q = q) ∨
      ∃ f, Changes s.group f ∧ ∀ q, s.applyOrKeep clock q = f q := by
  cases h : s.change clock with
  | error e => exact .inl fun q => applyOrKeep_of_error h q
  | ok f => exact .inr ⟨f, changes_of_change h, fun q => applyOrKeep_of_change h q⟩

/-- Changes of two groups commute. -/
theorem Changes.comm {g g' : Group} {f f' : Query → Query} (h : Changes g f) (h' : Changes g' f')
    (hne : g ≠ g') (q : Query) : f' (f q) = f (f' q) := by
  cases h with
  | shape t dimensions metrics dimension metric threshold paging =>
    cases h' with
    | aggregation settle hsettle extend compute => simp only [hsettle]
    | shape => exact absurd rfl hne
    | _ => rfl
  | aggregation settle hsettle extend compute =>
    cases h' with
    | shape t dimensions metrics dimension metric threshold paging => simp only [hsettle]
    | aggregation => exact absurd rfl hne
    | _ => rfl
  | _ => cases h' <;> first | rfl | exact absurd rfl hne

/-! ## Two steps -/

/-- Steps of two groups commute, also where one of them fails. -/
theorem applyOrKeep_comm {s s' : Step} (hne : s.group ≠ s'.group) (clock clock' : Clock)
    (q : Query) :
    s'.applyOrKeep clock' (s.applyOrKeep clock q) =
      s.applyOrKeep clock (s'.applyOrKeep clock' q) := by
  cases h : s.change clock with
  | error e => rw [applyOrKeep_of_error h, applyOrKeep_of_error h]
  | ok f =>
    cases h' : s'.change clock' with
    | error e => rw [applyOrKeep_of_error h', applyOrKeep_of_error h']
    | ok f' =>
      rw [applyOrKeep_of_change h, applyOrKeep_of_change h', applyOrKeep_of_change h,
        applyOrKeep_of_change h']
      exact (changes_of_change h).comm (changes_of_change h') hne q

/-- The query after a step that does not fail. -/
theorem applyOrKeep_of_apply {clock : Clock} {q q' : Query} {s : Step}
    (h : s.apply clock q = .ok q') : s.applyOrKeep clock q = q' := by
  rw [applyOrKeep, h]

/-- A step that succeeds on one query succeeds on every other. -/
theorem apply_of_apply {clock : Clock} {q₀ q₁ : Query} {s : Step} (h : s.apply clock q₀ = .ok q₁)
    (q : Query) : s.apply clock q = .ok (s.applyOrKeep clock q) := by
  rw [apply_eq_change] at h
  obtain ⟨f, hf, _⟩ := Fallible.of_map_eq_ok h
  rw [apply_eq_change, applyOrKeep_of_change hf, hf]
  rfl

/-! ## The type of a query -/

/-- The type that a shape sets. -/
def shapeType? : Step → Option QueryType
  | .queryType t => some t
  | .groupBy _ => some .groupBy
  | .topN .. => some .topN
  | .timeSeries => some .timeSeries
  | .select .. => some .select
  | _ => none

/-- Whether a step settles the type of a query that is open. -/
def settles : Step → Bool
  | .aggregate .. => true
  | .postAggregation _ => true
  | .postAggregationDouble _ => true
  | _ => false

/-- The type that the last shape of a run sets. -/
def lastShape? (steps : List (Clock × Step)) : Option QueryType :=
  (steps.filterMap fun call => call.2.shapeType?).getLast?

/-- The last shape of a run is that of its last step that has one. -/
theorem lastShape?_cons (call : Clock × Step) (steps : List (Clock × Step)) :
    lastShape? (call :: steps) = (lastShape? steps).or call.2.shapeType? := by
  unfold lastShape?
  rw [List.filterMap_cons]
  cases call.2.shapeType? with
  | none => exact Option.or_none.symm
  | some t =>
    rw [List.getLast?_cons, Option.or_some]

/-- The type after a step: that of a shape; else the one before, which an aggregation settles. -/
theorem queryType_applyOrKeep (clock : Clock) (q : Query) (s : Step) :
    (s.applyOrKeep clock q).queryType = s.shapeType?.or
      (if s.settles then some q.effectiveType else q.queryType) := by
  -- A step of another group changes the query, if at all, by a change that leaves the type alone.
  have frame : s.group ≠ .shape → s.group ≠ .aggregation →
      (s.applyOrKeep clock q).queryType = q.queryType := by
    intro hshape haggregation
    rcases applyOrKeep_cases clock s with hkeep | ⟨f, hchanges, happly⟩
    · rw [hkeep]
    · rw [happly]
      generalize s.group = g at hchanges hshape haggregation
      cases hchanges with
      | shape => exact absurd rfl hshape
      | aggregation => exact absurd rfl haggregation
      | _ => rfl
  cases s with
  | source s => rfl
  | queryType t => rfl
  | groupBy dimensions => rfl
  | topN dimension metric threshold => rfl
  | timeSeries => rfl
  | select dimensions metrics rows segments => rfl
  | aggregate kind fields => rfl
  | distinctCount dimensions => rfl
  | postAggregation p => rfl
  | postAggregationDouble p => rfl
  | _ => exact frame nofun nofun

/-- The type after a run: that of its last shape; without one, the type before the run, which an
aggregation settles. -/
theorem queryType_run (q : Query) (steps : List (Clock × Step)) :
    (run q steps).queryType = (lastShape? steps).or
      (if steps.any (·.2.settles) then some q.effectiveType else q.queryType) := by
  induction steps generalizing q with
  | nil => rfl
  | cons call steps ih =>
    have hstep := queryType_applyOrKeep call.1 q call.2
    have heffective : (call.2.applyOrKeep call.1 q).effectiveType =
        call.2.shapeType?.getD q.effectiveType := by
      unfold Query.effectiveType
      rw [hstep]
      cases call.2.shapeType? with
      | some t => rfl
      | none => cases call.2.settles <;> rfl
    rw [run_cons, ih, heffective, hstep, lastShape?_cons, List.any_cons, Option.or_assoc]
    congr 1
    cases call.2.shapeType? with
    | some t => cases steps.any (·.2.settles) <;> rfl
    | none => cases call.2.settles <;> cases steps.any (·.2.settles) <;> rfl

/-- **The order of the groups does not count.**  Let two steps belong to different groups.  Whether
each of them fails, and why, is the same before and after the other; if both succeed, both orders
give the same query, and so the same document.  So two runs give the same query if, group by
group, they have the same calls in the same order.  The type of a new query after a run is that of
its last shape, wherever the aggregations stand; without a shape it is `groupBy` if some aggregation
other than a distinct count occurs, and else it stays open. -/
theorem groups_do_not_interfere (q : Query) :
    (∀ s s' : Step, s.group ≠ s'.group → ∀ clock clock' : Clock,
      (∀ e, s.apply clock (s'.applyOrKeep clock' q) = .error e ↔ s.apply clock q = .error e) ∧
      ∀ q₁ q₂, s.apply clock q = .ok q₁ → s'.apply clock' q = .ok q₂ →
        ∃ both, s'.apply clock' q₁ = .ok both ∧ s.apply clock q₂ = .ok both) ∧
    (∀ steps steps', (∀ g, ofGroup g steps = ofGroup g steps') →
      run q steps = run q steps' ∧
      (run q steps).toJson.map Json.compact = (run q steps').toJson.map Json.compact) ∧
    ∀ clock source steps, (run (Query.new clock source) steps).queryType =
      (lastShape? steps).or (if steps.any (·.2.settles) then some .groupBy else none) := by
  refine ⟨fun s s' hne clock clock' => ⟨fun e => ?_, fun q₁ q₂ h h' => ?_⟩,
    fun steps steps' hgroups => ?_, fun clock source steps => queryType_run _ steps⟩
  · rw [apply_eq_error_iff, apply_eq_error_iff]
  · refine ⟨s'.applyOrKeep clock' q₁, apply_of_apply h' q₁, ?_⟩
    rw [apply_of_apply h q₂, ← applyOrKeep_of_apply h, ← applyOrKeep_of_apply h',
      applyOrKeep_comm hne]
  · have hrun : run q steps = run q steps' :=
      foldl_eq_of_groups _ (fun call : Clock × Step => call.2.group)
        (fun q call call' hne => applyOrKeep_comm hne call.1 call'.1 q) hgroups q
    exact ⟨hrun, by rw [hrun]⟩

/-- A ranking by a share, over a time range that is given twice, the first time with an end that is
no moment. -/
def shareRun : List (Clock × Step) :=
  [(.ofSeconds 0, .aggregate .count ["clicks"]),
    (.ofSeconds 1, .interval (.text "2013-04-04") (.text "soon")),
    (.ofSeconds 2, .topN "city" "share" 10),
    (.ofSeconds 3, .postAggregation (.arithmetic "share" .divide [.field "clicks", .field "views"])),
    (.ofSeconds 4, .since (.offset (-3600))),
    (.ofSeconds 5, .andFilter (.test ⟨"device", some "tv"⟩))]

/-- The calls of `shareRun` with the shape first and the time ranges last. -/
def shareRunSorted : List (Clock × Step) :=
  [(.ofSeconds 2, .topN "city" "share" 10),
    (.ofSeconds 5, .andFilter (.test ⟨"device", some "tv"⟩)),
    (.ofSeconds 0, .aggregate .count ["clicks"]),
    (.ofSeconds 3, .postAggregation (.arithmetic "share" .divide [.field "clicks", .field "views"])),
    (.ofSeconds 1, .interval (.text "2013-04-04") (.text "soon")),
    (.ofSeconds 4, .since (.offset (-3600)))]

/-- Sorted by groups, the calls give the same query, a ranking; and of a shape and an aggregation
either can come first. -/
theorem shareRun_sorted :
    (∀ g, ofGroup g shareRun = ofGroup g shareRunSorted) ∧
    run (Query.new (.ofSeconds 0) "shop/orders") shareRun =
      run (Query.new (.ofSeconds 0) "shop/orders") shareRunSorted ∧
    (run (Query.new (.ofSeconds 0) "shop/orders") shareRun).queryType = some .topN ∧
    group .timeSeries ≠ group (.aggregate .max ["price"]) ∧
    ∃ both, (Query.new (.ofSeconds 0) "shop/orders").timeSeries.aggregate .max ["price"] = both ∧
      ((Query.new (.ofSeconds 0) "shop/orders").aggregate .max ["price"]).timeSeries = both := by
  have hgroups : ∀ g, ofGroup g shareRun = ofGroup g shareRunSorted := by
    intro g
    cases g <;> rfl
  have hne : group .timeSeries ≠ group (.aggregate .max ["price"]) := nofun
  obtain ⟨htwo, hruns, htype⟩ := groups_do_not_interfere (Query.new (.ofSeconds 0) "shop/orders")
  obtain ⟨both, hfirst, hsecond⟩ :=
    (htwo .timeSeries (.aggregate .max ["price"]) hne (.ofSeconds 0) (.ofSeconds 0)).2 _ _ rfl rfl
  exact ⟨hgroups, (hruns _ _ hgroups).1, htype _ _ shareRun, hne,
    both, Except.ok.inj hfirst, Except.ok.inj hsecond⟩

end Step
end BrokerQuery
