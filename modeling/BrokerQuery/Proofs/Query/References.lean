import BrokerQuery.Proofs.Query.Aggregations
/-
  References from post-aggregations to aggregations.

  A post-aggregation reads fields, and the broker finds each of them among the aggregations of the
  query, by name.  `WellReferenced` says that it does.  It names no single query, only the two
  lists, because a step changes them in different ways:

    1. what a step attaches it also aggregates, every field of it (`mem_aggregateOn`);
    2. no step takes an aggregation away (`exists_aggregateOn_eq`), so the references of earlier
       trees stay (`wellReferenced_aggregateOn`), and a run keeps them by induction;
    3. what is added for a tree are its fields without an aggregation (`attach_aggregationList`).
-/

namespace BrokerQuery

/-- Each access in a tree finds an aggregation under the name of the field that it reads. -/
structure WellReferenced (list : List Aggregation) (trees : List PostAggregation) : Prop where
  named : ∀ a ∈ list, a.name = a.fieldName
  found : ∀ p ∈ trees, ∀ field, p.Reads field → field ∈ list.map Aggregation.fieldName

namespace Step

/-- A step that attaches a tree aggregates all fields that the tree reads. -/
theorem mem_aggregateOn {s : Step} {p : PostAggregation} (h : s.computation? = some p)
    (list : List Aggregation) {field : String} (hfield : p.Reads field) :
    field ∈ (s.aggregateOn list).map Aggregation.fieldName := by
  have hmem := (PostAggregation.mem_fieldNames_iff p field).mpr hfield
  cases s with
  | postAggregation p' =>
    cases h
    exact Aggregation.mem_fieldName_foldl_addUnless hmem
  | postAggregationDouble p' =>
    cases h
    exact Aggregation.mem_fieldName_foldl_addUnless hmem
  | _ => exact nomatch h

/-- A step keeps the references of earlier trees, since it only adds, and makes those of its own. -/
theorem wellReferenced_aggregateOn {list : List Aggregation} {trees : List PostAggregation}
    (h : WellReferenced list trees) (s : Step) :
    WellReferenced (s.aggregateOn list) (trees ++ s.computation?.toList) := by
  obtain ⟨added, hadded⟩ := exists_aggregateOn_eq s list
  constructor
  · rw [hadded, List.forall_mem_append]
    refine ⟨h.named, fun a ha => ?_⟩
    obtain ⟨request, _, hrequest⟩ := List.mem_map.mp ha
    rw [← hrequest]; rfl
  · rw [List.forall_mem_append]
    constructor
    · intro p hp field hfield
      rw [hadded, List.map_append]
      exact List.mem_append_left _ (h.found p hp field hfield)
    · intro p hp field hfield
      exact mem_aggregateOn (Option.mem_toList.mp hp) list hfield

/-- The run: no step takes an aggregation away. -/
theorem wellReferenced_run {q : Query}
    (h : WellReferenced q.aggregationList q.postAggregationList) (steps : List (Clock × Step)) :
    WellReferenced (run q steps).aggregationList (run q steps).postAggregationList := by
  induction steps generalizing q with
  | nil => exact h
  | cons call steps ih =>
    refine ih ?_
    rw [applyOrKeep_aggregationList, applyOrKeep_postAggregationList]
    exact wellReferenced_aggregateOn h call.2

end Step

namespace Query

/-- The fields of a tree for which a query has no aggregation, in the order of their first
occurrence in the tree. -/
def missingFields (q : Query) (p : PostAggregation) : List String :=
  p.accesses.eraseDups.filter (· ∉ q.aggregationList.map Aggregation.name)

/-- Attaching a tree adds the fields that are missing, and no others. -/
theorem attach_aggregationList {q : Query} (hq : ∀ a ∈ q.aggregationList, a.name = a.fieldName)
    (kind : AggregationKind) (p : PostAggregation) :
    (q.attach kind p).aggregationList =
      q.aggregationList ++ (q.missingFields p).map (Aggregation.of kind) := by
  have hnames : q.aggregationList.map Aggregation.name =
      q.aggregationList.map Aggregation.fieldName := List.map_congr_left hq
  have hattach : (q.attach kind p).aggregationList =
      p.fieldNames.foldl (Aggregation.addUnless kind) q.aggregationList := rfl
  rw [hattach, Aggregation.foldl_addUnless, PostAggregation.fieldNames_eq,
    FirstOccurrence.eraseDups_eraseDups, missingFields, hnames]

end Query

namespace Step

/-- **Every access finds its aggregation.**  In a query that a run builds, each field that a
post-aggregation reads, at whatever depth and under whatever name, has an aggregation of that name.
The post-aggregations are the trees that the steps attach, in order.  Attaching one more adds an
aggregation for each of its fields that has none, in the order of their first occurrence, and no
other. -/
theorem accesses_find_aggregations {q : Query} {clock : Clock} {source : String}
    {steps : List (Clock × Step)} (hq : q = run (Query.new clock source) steps) :
    (∀ p ∈ q.postAggregationList, ∀ field, p.Reads field →
      ∃ a ∈ q.aggregationList, a.name = field) ∧
    q.postAggregationList = computations steps ∧
    ∀ p, (q.postAggregation p).aggregationList =
        q.aggregationList ++ (q.missingFields p).map (Aggregation.of .longSum) ∧
      (q.postAggregationDouble p).aggregationList =
        q.aggregationList ++ (q.missingFields p).map (Aggregation.of .doubleSum) := by
  have hnew : WellReferenced (Query.new clock source).aggregationList
      (Query.new clock source).postAggregationList := ⟨nofun, nofun⟩
  have hrun : WellReferenced q.aggregationList q.postAggregationList := by
    rw [hq]; exact wellReferenced_run hnew steps
  refine ⟨?_, ?_, fun p => ⟨?_, ?_⟩⟩
  · intro p hp field hfield
    obtain ⟨a, ha, hname⟩ := List.mem_map.mp (hrun.found p hp field hfield)
    exact ⟨a, ha, (hrun.named a ha).trans hname⟩
  · rw [hq, run_postAggregationList]; rfl
  · exact Query.attach_aggregationList hrun.named .longSum p
  · exact Query.attach_aggregationList hrun.named .doubleSum p

/-- The query that `overlappingRun` builds. -/
def overlapping : Query := run (Query.new (.ofSeconds 0) "shop/orders") overlappingRun

/-- The price that `margin` reads two levels down, under the name of an income, is aggregated; a
further tree on prices and taxes adds the taxes alone. -/
theorem overlapping_referenced :
    overlapping = run (Query.new (.ofSeconds 0) "shop/orders") overlappingRun ∧
    margin ∈ overlapping.postAggregationList ∧ margin.Reads "price" ∧
    (∃ a ∈ overlapping.aggregationList, a.name = "price") ∧
    (overlapping.postAggregation
        (.arithmetic "net" .add [.field "tax", .field "price", .field "tax"])).aggregationList =
      overlapping.aggregationList ++ [.of .longSum "tax"] := by
  obtain ⟨hfound, hlist, hattach⟩ := accesses_find_aggregations (q := overlapping) rfl
  have hmem : margin ∈ overlapping.postAggregationList := by
    rw [hlist]; exact List.mem_singleton_self margin
  have hreads : margin.Reads "price" :=
    .under List.mem_cons_self (.under List.mem_cons_self (.access "income"))
  refine ⟨rfl, hmem, hreads, hfound _ hmem _ hreads, ?_⟩
  rw [(hattach _).1]
  rfl

end Step
end BrokerQuery
