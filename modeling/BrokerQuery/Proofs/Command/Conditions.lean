import BrokerQuery.Command.Build
import BrokerQuery.Proofs.Query.Entries
/-
  The filter that a command line asks for.

  Each condition of a command line, kept or excluded, comes down to one expression: `oneOf` of its
  values.  The way there differs.  The conditions that keep rows are one mapping, which joins their
  expressions; each of the others is negated and attached on its own, and the joining goes on where
  it stopped.  So the filter is all `conditions`, joined from the left (`addConditions_eq_ok_iff`).
  An expression is never a conjunction, which is why the joined filter has one child for each
  condition and not more (`conditions_flat`).

  Neither the setters before the conditions nor those after them touch the filter
  (`of_build_eq_ok`).
-/

namespace BrokerQuery

/-! ## The expression of a condition -/

namespace FilterArg

/-- The test of membership that a condition asks for. -/
def membership (a : FilterArg) : Except FilterError Filter :=
  (Predicate.on a.dimension).isIn (.ofStrings a.values)

/-- The expression of a condition. -/
def expression (a : FilterArg) : Filter := (Predicate.on a.dimension).oneOf a.values

theorem membership_eq_ok_iff (a : FilterArg) (f : Filter) :
    a.membership = .ok f ↔ a.values ≠ [] ∧ f = a.expression :=
  Predicate.isIn_ofStrings_eq_ok_iff _ _ _

/-- A condition holds where the dimension has one of its values. -/
theorem holds_expression (row : String → String) (a : FilterArg) :
    a.expression.holds row = true ↔ row a.dimension ∈ a.values :=
  Predicate.holds_oneOf row _ _

theorem not_expression (a : FilterArg) : a.expression.not = .node .not [a.expression] :=
  Filter.not_of_ne (Predicate.connective?_oneOf _ _ (by decide))

/-- An excluded condition holds where the dimension has none of the values. -/
theorem holds_not_expression (row : String → String) (a : FilterArg) :
    a.expression.not.holds row = true ↔ row a.dimension ∉ a.values := by
  rw [Filter.holds_not, ← a.holds_expression row]
  simp

end FilterArg

namespace QueryArgs

/-! ## The conditions of a command line -/

/-- Every condition has a value. -/
def Filled (args : QueryArgs) : Prop :=
  (∀ a ∈ args.filter, a.values ≠ []) ∧ ∀ a ∈ args.exclude, a.values ≠ []

/-- What the conditions of a command line ask for, one filter for each. -/
def conditions (args : QueryArgs) : List Filter :=
  args.filter.map (·.expression) ++ args.exclude.map (·.expression.not)

theorem length_conditions (args : QueryArgs) :
    args.conditions.length = args.filter.length + args.exclude.length := by
  rw [conditions, List.length_append, List.length_map, List.length_map]

theorem conditions_eq (args : QueryArgs) :
    args.conditions = args.filter.map (·.expression) ++
      (args.exclude.map (·.expression)).map fun f => .node .not [f] := by
  unfold conditions
  simp only [FilterArg.not_expression, List.map_map, Function.comp_def]

/-- No condition is a conjunction. -/
theorem conditions_flat (args : QueryArgs) : ∀ f ∈ args.conditions, f.connective? ≠ some .and := by
  rw [conditions_eq, List.forall_mem_append, List.forall_mem_map, List.forall_mem_map]
  exact ⟨fun a _ => Predicate.connective?_oneOf _ _ (by decide),
    fun f _ => by simp [Filter.connective?]⟩

/-- All conditions hold iff the row has a value of each included one and of no excluded one. -/
theorem holds_conditions (row : String → String) (args : QueryArgs) :
    (∀ f ∈ args.conditions, f.holds row = true) ↔
      (∀ a ∈ args.filter, row a.dimension ∈ a.values) ∧
      ∀ a ∈ args.exclude, row a.dimension ∉ a.values := by
  rw [conditions, List.forall_mem_append, List.forall_mem_map, List.forall_mem_map]
  simp only [FilterArg.holds_expression, FilterArg.holds_not_expression]

/-- As an entry of a mapping, a condition is the test of membership. -/
theorem ofEntry_entry_eq_ok_iff (a : FilterArg) (f : Filter) :
    Filter.ofEntry (entry a) = .ok f ↔ a.values ≠ [] ∧ f = a.expression := by
  have hleaves := Operand.leaves_ofStrings a.values
  by_cases hnil : a.values = []
  · have hempty : (entry a).2.leaves = [] := hleaves.trans (by rw [hnil]; rfl)
    rw [Filter.ofEntry_of_nil hempty]
    exact iff_of_false nofun fun h => h.1 hnil
  · have hsome : (entry a).2.leaves ≠ [] := by
      show (Operand.ofStrings a.values).leaves ≠ []
      rw [hleaves]
      exact fun h => hnil (List.map_eq_nil_iff.mp h)
    rw [Filter.ofEntry_of_ne hsome]
    exact Predicate.isIn_ofStrings_eq_ok_iff _ _ _

/-- The mapping of all conditions that keep rows. -/
theorem ofEntries_eq_ok_iff (conditions : List FilterArg) (f? : Option Filter) :
    Filter.ofEntries (conditions.map entry) = .ok f? ↔
      (∀ a ∈ conditions, a.values ≠ []) ∧ f? = Filter.all? (conditions.map (·.expression)) := by
  unfold Filter.ofEntries
  rw [List.mapM_map]
  have hmap := Fallible.mapM_eq_ok_iff ofEntry_entry_eq_ok_iff conditions
  constructor
  · intro h
    obtain ⟨fs, hfs, hf⟩ := Fallible.of_map_eq_ok h
    obtain ⟨hvalues, hexpressions⟩ := (hmap fs).mp hfs
    exact ⟨hvalues, by rw [← hf, hexpressions]⟩
  · rintro ⟨hvalues, hf⟩
    show Except.map Filter.all? (conditions.mapM fun a => Filter.ofEntry (entry a)) = _
    rw [(hmap _).mpr ⟨hvalues, rfl⟩, hf]
    rfl

/-- Excluding the rows of one condition. -/
theorem addExclude_eq_ok_iff (q : Query) (a : FilterArg) (q' : Query) :
    addExclude q a = .ok q' ↔ a.values ≠ [] ∧ q' = q.andFilters [a.expression.not] := by
  have hmap : addExclude q a = (a.membership.map Filter.not).map q.andFilter := rfl
  rw [hmap, ← Query.andFilter_eq]
  constructor
  · intro h
    obtain ⟨g, hg, hq⟩ := Fallible.of_map_eq_ok h
    obtain ⟨f, hf, hnot⟩ := Fallible.of_map_eq_ok hg
    obtain ⟨hvalues, hexpression⟩ := (a.membership_eq_ok_iff f).mp hf
    exact ⟨hvalues, by rw [← hq, ← hnot, hexpression]⟩
  · rintro ⟨hvalues, hq⟩
    rw [(a.membership_eq_ok_iff _).mpr ⟨hvalues, rfl⟩, hq]
    rfl

/-- Excluding the rows of several conditions, by induction on them. -/
theorem foldlM_addExclude_eq_ok_iff (excludes : List FilterArg) (q q' : Query) :
    excludes.foldlM addExclude q = .ok q' ↔
      (∀ a ∈ excludes, a.values ≠ []) ∧
      q' = q.andFilters (excludes.map (·.expression.not)) := by
  induction excludes generalizing q with
  | nil =>
    rw [List.map_nil, Query.andFilters_nil]
    constructor
    · intro h
      exact ⟨fun a ha => absurd ha List.not_mem_nil, (Except.ok.inj h).symm⟩
    · rintro ⟨_, hq⟩
      rw [hq]; rfl
  | cons a excludes ih =>
    rw [List.foldlM_cons, List.forall_mem_cons, List.map_cons, ← List.singleton_append,
      ← Query.andFilters_andFilters]
    constructor
    · intro h
      -- The rest is excluded from the query that the first exclusion leaves.
      obtain ⟨q₁, hfirst, hrest⟩ := Fallible.of_bind_eq_ok h
      obtain ⟨hvalues, hq₁⟩ := (addExclude_eq_ok_iff q a q₁).mp hfirst
      obtain ⟨hall, hq'⟩ := (ih q₁).mp hrest
      exact ⟨⟨hvalues, hall⟩, by rw [hq', hq₁]⟩
    · rintro ⟨⟨hvalues, hall⟩, hq'⟩
      rw [(addExclude_eq_ok_iff q a _).mpr ⟨hvalues, rfl⟩]
      exact (ih _).mpr ⟨hall, hq'⟩

/-- All conditions: they can be added iff each has a value, and then they are the filter. -/
theorem addConditions_eq_ok_iff (args : QueryArgs) {q : Query} (hq : q.filter = none) (q' : Query) :
    args.addConditions q = .ok q' ↔
      args.Filled ∧ q' = { q with filter := Filter.all? args.conditions } := by
  -- The exclusions go on where the mapping stopped: joining twice is joining everything once.
  have hjoined : Query.andFilters
      { q with filter := Filter.all? (args.filter.map (·.expression)) }
      (args.exclude.map (·.expression.not)) =
      { q with filter := Filter.all? args.conditions } := by
    rw [← Query.andFilters_of_none hq, Query.andFilters_andFilters, Query.andFilters_of_none hq]
    rfl
  unfold addConditions
  rw [Query.filterEntries_of_none hq]
  constructor
  · intro h
    obtain ⟨q₁, hkept, hdropped⟩ := Fallible.of_bind_eq_ok h
    obtain ⟨f?, hentries, hq₁⟩ := Fallible.of_map_eq_ok hkept
    obtain ⟨hfilter, hf⟩ := (ofEntries_eq_ok_iff _ _).mp hentries
    obtain ⟨hexclude, hq'⟩ := (foldlM_addExclude_eq_ok_iff _ _ _).mp hdropped
    exact ⟨⟨hfilter, hexclude⟩, by rw [hq', ← hq₁, hf, hjoined]⟩
  · rintro ⟨⟨hfilter, hexclude⟩, hq'⟩
    rw [(ofEntries_eq_ok_iff _ _).mpr ⟨hfilter, rfl⟩, hq', ← hjoined]
    exact (foldlM_addExclude_eq_ok_iff _ _ _).mpr ⟨hexclude, rfl⟩

/-! ## The query of a command line -/

section Frame

variable {α : Type} (part : Query → α)

/-- What a setter leaves alone stays as it is where the setter is not used, too. -/
theorem unlessEmpty_frame (setter : Query → List String → Query)
    (h : ∀ q names, part (setter q names) = part q) (names : List String) (q : Query) :
    part (unlessEmpty names setter q) = part q := by
  unfold unlessEmpty
  split
  · rfl
  · exact h q names

/-- What neither grouping nor aggregations touch is as in a new query. -/
theorem start_frame (hgroup : ∀ q names, part (Query.groupBy q names) = part q)
    (haggregate : ∀ q kind fields, part (Query.aggregate q kind fields) = part q)
    (clock : Clock) (args : QueryArgs) :
    part (args.start clock) = part (Query.new clock args.source) := by
  unfold start
  rw [unlessEmpty_frame part Query.count (haggregate · .count),
    unlessEmpty_frame part Query.doubleSum (haggregate · .doubleSum),
    unlessEmpty_frame part Query.longSum (haggregate · .longSum),
    unlessEmpty_frame part Query.groupBy hgroup]

end Frame

theorem filter_start (clock : Clock) (args : QueryArgs) : (args.start clock).filter = none :=
  start_frame Query.filter (fun _ _ => rfl) (fun _ _ _ => rfl) clock args

theorem paging_start (clock : Clock) (args : QueryArgs) : (args.start clock).paging = none :=
  start_frame Query.paging (fun _ _ => rfl) (fun _ _ _ => rfl) clock args

/-- A time range replaces those of the query. -/
theorem of_addInterval_eq_ok {clock : Clock} {args : QueryArgs} {q q' : Query}
    (h : args.addInterval clock q = .ok q') : ∃ intervals, q' = { q with intervals } := by
  unfold addInterval at h
  split at h
  · exact ⟨q.intervals, (Except.ok.inj h).symm⟩
  · obtain ⟨texts, _, hq⟩ := Fallible.of_bind_eq_ok (Fallible.of_mapError_eq_ok h)
    exact ⟨texts, (Except.ok.inj hq).symm⟩

/-- A query that is built has all conditions as its filter; the setters after them give it time
ranges, a granularity and a cache setting, and nothing else. -/
theorem of_build_eq_ok {clock : Clock} {defaults : QueryDefaults} {args : QueryArgs} {q : Query}
    (h : args.build clock defaults = .ok q) :
    args.Filled ∧ ∃ intervals granularity useCache,
      Granularity.ofText (args.granularity.getD defaults.granularity) defaults.timeZone =
        .ok granularity ∧
      q = { args.start clock with
        filter := Filter.all? args.conditions, intervals, granularity, useCache } := by
  unfold build at h
  obtain ⟨q₁, hconditions, h⟩ := Fallible.of_bind_eq_ok h
  obtain ⟨q₂, hinterval, h⟩ := Fallible.of_bind_eq_ok h
  obtain ⟨q₃, hgranularity, h⟩ := Fallible.of_bind_eq_ok h
  obtain ⟨hfilled, hq₁⟩ := (addConditions_eq_ok_iff args (filter_start clock args) q₁).mp
    (Fallible.of_mapError_eq_ok hconditions)
  obtain ⟨intervals, hq₂⟩ := of_addInterval_eq_ok hinterval
  obtain ⟨granularity, hg, hq₃⟩ :=
    Fallible.of_map_eq_ok (Fallible.of_mapError_eq_ok hgranularity)
  refine ⟨hfilled, intervals, granularity,
    if args.noCache then some false else (args.start clock).useCache, hg, ?_⟩
  rw [← Except.ok.inj h, ← hq₃, hq₂, hq₁]
  split <;> rfl

/-- **The filter of a command line.**  A query that is built has a filter iff there is a condition.
The filter keeps a row iff the row has, for each condition that keeps rows, one of its values, and
for each condition that excludes rows, none of them.  From two conditions on it is one conjunction,
with one child for each: the tests of membership in the order of the arguments, and after them
those of the excluding conditions, each under a "not". -/
theorem filter_of_build {clock : Clock} {defaults : QueryDefaults} {args : QueryArgs}
    {q : Query} (h : args.build clock defaults = .ok q) :
    (q.filter = none ↔ args.filter.length + args.exclude.length = 0) ∧
    (∀ f, q.filter = some f → ∀ row : String → String, f.holds row = true ↔
      (∀ a ∈ args.filter, row a.dimension ∈ a.values) ∧
      ∀ a ∈ args.exclude, row a.dimension ∉ a.values) ∧
    (2 ≤ args.filter.length + args.exclude.length →
      ∃ kept dropped, args.filter.mapM FilterArg.membership = .ok kept ∧
        args.exclude.mapM FilterArg.membership = .ok dropped ∧
        q.filter = some (.node .and (kept ++ dropped.map fun f => .node .not [f])) ∧
        (kept ++ dropped.map fun f => Filter.node .not [f]).length =
          args.filter.length + args.exclude.length) := by
  obtain ⟨hfilled, intervals, granularity, useCache, _, hq⟩ := of_build_eq_ok h
  have hfilter : q.filter = Filter.all? args.conditions := by rw [hq]
  rw [hfilter]
  refine ⟨?_, ?_, ?_⟩
  · rw [Filter.all?_eq_none_iff, ← List.length_eq_zero_iff, length_conditions]
  · intro f hf row
    rw [Filter.holds_all? row hf, List.all_eq_true, holds_conditions]
  · intro hmany
    obtain ⟨hkept, hdropped⟩ := hfilled
    have hmembership := Fallible.mapM_eq_ok_iff FilterArg.membership_eq_ok_iff
    have hform := args.conditions_eq
    refine ⟨_, _, (hmembership _ _).mpr ⟨hkept, rfl⟩, (hmembership _ _).mpr ⟨hdropped, rfl⟩, ?_, ?_⟩
    · -- No condition is a conjunction, so joining opens none of them.
      rw [← hform, Filter.all?_flat args.conditions_flat (by rwa [length_conditions])]
    · rw [← hform, length_conditions]

/-- Two cities to keep, and a country that is excluded twice. -/
def twoCities : QueryArgs where
  source := "shop/orders"
  filter := [⟨"city", ["Basel", "Bern"]⟩]
  exclude := [⟨"country", ["DE"]⟩, ⟨"country", ["AT", "DE"]⟩]

/-- The query that `twoCities` asks for. -/
def twoCitiesQuery : Query :=
  { Query.new (.ofSeconds 0) "shop/orders" with
    filter := some (.node .and
      [.node .or [.test ⟨"city", some "Basel"⟩, .test ⟨"city", some "Bern"⟩],
        .node .not [.test ⟨"country", some "DE"⟩],
        .node .not [.node .or [.test ⟨"country", some "AT"⟩, .test ⟨"country", some "DE"⟩]]]) }

/-- The filter of `twoCities` has three children, and drops a row for its country alone. -/
theorem twoCities_conditions :
    twoCities.build (.ofSeconds 0) ⟨"all", none⟩ = .ok twoCitiesQuery ∧
    twoCitiesQuery.filter ≠ none ∧
    (∀ f, twoCitiesQuery.filter = some f → f.holds (fun _ => "Bern") = true ∧
      ¬ f.holds (fun dimension => if dimension = "city" then "Bern" else "AT") = true) ∧
    ∃ kept dropped, twoCities.filter.mapM FilterArg.membership = .ok kept ∧
      twoCities.exclude.mapM FilterArg.membership = .ok dropped ∧
      twoCitiesQuery.filter = some (.node .and (kept ++ dropped.map fun f => .node .not [f])) := by
  have hbuild : twoCities.build (.ofSeconds 0) ⟨"all", none⟩ = .ok twoCitiesQuery := rfl
  obtain ⟨hnone, hholds, hmany⟩ := filter_of_build hbuild
  obtain ⟨kept, dropped, hkept, hdropped, hfilter, _⟩ := hmany (by decide)
  refine ⟨hbuild, fun h => absurd (hnone.mp h) (by decide), fun f hf => ⟨?_, ?_⟩,
    kept, dropped, hkept, hdropped, hfilter⟩
  · exact (hholds f hf _).mpr (by decide)
  · rw [hholds f hf]; decide

end QueryArgs
end BrokerQuery
