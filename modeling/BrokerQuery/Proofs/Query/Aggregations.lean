import BrokerQuery.Proofs.PostAggregation
import BrokerQuery.Proofs.Query.Attachment
/-
  The aggregations that a run of steps leaves behind.

  A step asks for aggregations, each a kind and a field (`requests`).  `serve` answers one request:
  a distinct count is always added, anything else only if its field has no aggregation yet.

    1. The step: `aggregateOn` is what a step makes of the list, and nothing else about the query
       plays a part (`applyOrKeep_computed`).  A step for which there is a setter serves its
       requests (`aggregateOn_eq`).
    2. The run: the list afterwards is the left fold of `serve` over all requests, however they are
       grouped into steps (`run_aggregationList`).
    3. The list: whatever is no distinct count is the first entry of its field.  This is not
       symmetric, since a distinct count may follow anything, so the invariant of the fold is a
       `Pairwise` in the order of the list (`Serves.serve`).
-/

namespace BrokerQuery

/-! ## Requests and how they are served -/

namespace Aggregation

/-- Answers a request for an aggregation: it is left out if its field has an aggregation already,
unless it counts distinct values. -/
def serve (list : List Aggregation) (request : AggregationKind × String) : List Aggregation :=
  if request.1 ≠ .hyperUnique ∧ request.2 ∈ list.map fieldName then list
  else list ++ [of request.1 request.2]

/-- An aggregation is added unless its field has one of any kind. -/
theorem addUnless_eq (kind : AggregationKind) (list : List Aggregation) (field : String) :
    addUnless kind list field =
      if field ∈ list.map fieldName then list else list ++ [of kind field] := by
  have hany : (list.any (·.fieldName = field)) = true ↔ field ∈ list.map fieldName := by
    rw [List.any_eq_true, List.mem_map]
    exact exists_congr fun a => and_congr_right fun _ => decide_eq_true_iff
  simp only [addUnless, hany]

/-- Several fields are aggregated: each one that has no aggregation gets one, at its first
occurrence. -/
theorem foldl_addUnless (kind : AggregationKind) (list : List Aggregation) (fields : List String) :
    fields.foldl (addUnless kind) list =
      list ++ (fields.eraseDups.filter (· ∉ list.map fieldName)).map (of kind) :=
  FirstOccurrence.foldl_add (fun _ => rfl) (addUnless_eq kind) list fields

/-- After the request every field that it names has an aggregation. -/
theorem mem_fieldName_foldl_addUnless {kind : AggregationKind} {list : List Aggregation}
    {fields : List String} {field : String} (h : field ∈ fields) :
    field ∈ (fields.foldl (addUnless kind) list).map fieldName := by
  rw [foldl_addUnless, List.map_append, List.mem_append, List.map_map]
  by_cases hlist : field ∈ list.map fieldName
  · exact .inl hlist
  · refine .inr (List.mem_map.mpr ⟨field, ?_, rfl⟩)
    exact List.mem_filter.mpr ⟨List.mem_eraseDups.mpr h, decide_eq_true hlist⟩

/-- Sums, counts and extremes are requests for their kind. -/
theorem foldl_serve_of_ne {kind : AggregationKind} (h : kind ≠ .hyperUnique)
    (list : List Aggregation) (fields : List String) :
    (fields.map (kind, ·)).foldl serve list = fields.foldl (addUnless kind) list := by
  rw [List.foldl_map]
  congr 1
  funext list field
  rw [addUnless_eq]
  simp [serve, h]

/-- Distinct counts are added, all of them. -/
theorem foldl_serve_hyperUnique (list : List Aggregation) (fields : List String) :
    (fields.map (AggregationKind.hyperUnique, ·)).foldl serve list =
      list ++ fields.map (of .hyperUnique) := by
  induction fields generalizing list with
  | nil => exact (List.append_nil list).symm
  | cons field fields ih =>
    have hserve : serve list (.hyperUnique, field) = list ++ [of .hyperUnique field] :=
      if_neg fun h => h.1 rfl
    rw [List.map_cons, List.foldl_cons, hserve, ih, List.append_assoc]
    rfl

end Aggregation

namespace Step

open Aggregation (of addUnless serve)

/-- The aggregations that a step asks for, in order. -/
def requests : Step → List (AggregationKind × String)
  | .aggregate kind fields => fields.map (kind, ·)
  | .distinctCount dimensions => dimensions.map (.hyperUnique, ·)
  | .postAggregation p => p.fieldNames.map (.longSum, ·)
  | .postAggregationDouble p => p.fieldNames.map (.doubleSum, ·)
  | _ => []

/-- The aggregations that the steps of a run ask for, in order. -/
def requested (steps : List (Clock × Step)) : List (AggregationKind × String) :=
  steps.flatMap fun call => call.2.requests

/-- Whether there is a setter for a step: sums, counts and extremes have one each, and distinct
values are counted by `distinctCount` alone. -/
def Offered : Step → Prop
  | .aggregate kind _ => kind ≠ .hyperUnique
  | _ => True

/-- The post-aggregation that a step attaches. -/
def computation? : Step → Option PostAggregation
  | .postAggregation p => some p
  | .postAggregationDouble p => some p
  | _ => none

/-- The post-aggregations that the steps of a run attach, in order. -/
def computations (steps : List (Clock × Step)) : List PostAggregation :=
  steps.filterMap fun call => call.2.computation?

/-- What a step makes of the aggregations of a query. -/
def aggregateOn (list : List Aggregation) : Step → List Aggregation
  | .aggregate kind fields => fields.foldl (addUnless kind) list
  | .distinctCount dimensions => list ++ dimensions.map (of .hyperUnique)
  | .postAggregation p => p.fieldNames.foldl (addUnless .longSum) list
  | .postAggregationDouble p => p.fieldNames.foldl (addUnless .doubleSum) list
  | _ => list

/-- A step for which there is a setter serves its requests. -/
theorem aggregateOn_eq {s : Step} (h : s.Offered) (list : List Aggregation) :
    s.aggregateOn list = s.requests.foldl serve list := by
  cases s with
  | aggregate kind fields => exact (Aggregation.foldl_serve_of_ne h list fields).symm
  | distinctCount dimensions => exact (Aggregation.foldl_serve_hyperUnique list dimensions).symm
  | postAggregation p => exact (Aggregation.foldl_serve_of_ne (by decide) list _).symm
  | postAggregationDouble p => exact (Aggregation.foldl_serve_of_ne (by decide) list _).symm
  | _ => rfl

/-- Whatever a step is, it only adds aggregations, each under the name of its field. -/
theorem exists_aggregateOn_eq (s : Step) (list : List Aggregation) :
    ∃ added : List (AggregationKind × String),
      s.aggregateOn list = list ++ added.map fun request => of request.1 request.2 := by
  have hfold : ∀ kind (fields : List String), ∃ added : List (AggregationKind × String),
      fields.foldl (addUnless kind) list =
        list ++ added.map fun request => of request.1 request.2 := by
    intro kind fields
    refine ⟨(fields.eraseDups.filter (· ∉ list.map Aggregation.fieldName)).map (kind, ·), ?_⟩
    rw [Aggregation.foldl_addUnless, List.map_map]
    rfl
  cases s with
  | aggregate kind fields => exact hfold kind fields
  | distinctCount dimensions =>
    exact ⟨dimensions.map (.hyperUnique, ·), by rw [List.map_map]; rfl⟩
  | postAggregation p => exact hfold .longSum p.fieldNames
  | postAggregationDouble p => exact hfold .doubleSum p.fieldNames
  | _ => exact ⟨[], (List.append_nil list).symm⟩

end Step

/-! ## One step and a run -/

/-- The aggregations and the post-aggregations of a query. -/
def Query.computed (q : Query) : List Aggregation × List PostAggregation :=
  (q.aggregationList, q.postAggregationList)

namespace Step

open Aggregation (of addUnless serve)

/-- What a query computes after a step depends on what it computed before, and on nothing else. -/
theorem applyOrKeep_computed (clock : Clock) (q : Query) (s : Step) :
    (s.applyOrKeep clock q).computed =
      (s.aggregateOn q.aggregationList, q.postAggregationList ++ s.computation?.toList) := by
  -- Of a setter that computes nothing it is enough that it leaves both lists alone.
  have frame : s.computation? = none → s.aggregateOn q.aggregationList = q.aggregationList →
      (s.applyOrKeep clock q).computed = q.computed →
      (s.applyOrKeep clock q).computed =
        (s.aggregateOn q.aggregationList, q.postAggregationList ++ s.computation?.toList) := by
    intro hnone hkeep hq
    rw [hq, hnone, hkeep, Option.toList_none, List.append_nil]
    rfl
  have helim : ∀ f? : Option Filter, (f?.elim q q.andFilter).computed = q.computed := by
    intro f?
    cases f? <;> rfl
  cases s with
  | aggregate kind fields => exact Prod.ext rfl (List.append_nil _).symm
  | distinctCount dimensions => exact Prod.ext rfl (List.append_nil _).symm
  | postAggregation p => rfl
  | postAggregationDouble p => rfl
  | filter entries => exact frame rfl rfl (by rw [applyOrKeep_filterEntries, helim])
  | filterWith built => exact frame rfl rfl (by rw [applyOrKeep_filterWith, helim])
  | interval start stop => exact frame rfl rfl (applyOrKeep_frame Query.computed rfl fun _ => rfl)
  | since start => exact frame rfl rfl (applyOrKeep_frame Query.computed rfl fun _ => rfl)
  | intervals ranges => exact frame rfl rfl (applyOrKeep_frame Query.computed rfl fun _ => rfl)
  | granularity text zone =>
    exact frame rfl rfl (applyOrKeep_frame Query.computed rfl fun _ => rfl)
  | duration milliseconds zone =>
    exact frame rfl rfl (applyOrKeep_frame Query.computed rfl fun _ => rfl)
  | _ => exact frame rfl rfl rfl

/-- What a step does to the aggregations depends on them alone. -/
theorem applyOrKeep_aggregationList (clock : Clock) (q : Query) (s : Step) :
    (s.applyOrKeep clock q).aggregationList = s.aggregateOn q.aggregationList :=
  congrArg Prod.fst (applyOrKeep_computed clock q s)

theorem applyOrKeep_postAggregationList (clock : Clock) (q : Query) (s : Step) :
    (s.applyOrKeep clock q).postAggregationList =
      q.postAggregationList ++ s.computation?.toList :=
  congrArg Prod.snd (applyOrKeep_computed clock q s)

/-- The aggregations after a run: all requests, served one after the other. -/
theorem run_aggregationList (q : Query) {steps : List (Clock × Step)}
    (h : ∀ call ∈ steps, call.2.Offered) :
    (run q steps).aggregationList = (requested steps).foldl serve q.aggregationList := by
  induction steps generalizing q with
  | nil => rfl
  | cons call steps ih =>
    obtain ⟨hcall, hsteps⟩ := List.forall_mem_cons.mp h
    have hcons : requested (call :: steps) = call.2.requests ++ requested steps :=
      List.flatMap_cons
    rw [run_cons, ih _ hsteps, applyOrKeep_aggregationList, aggregateOn_eq hcall, hcons,
      List.foldl_append]

/-- The post-aggregations after a run: those before it and those that it attaches, in order. -/
theorem run_postAggregationList (q : Query) (steps : List (Clock × Step)) :
    (run q steps).postAggregationList = q.postAggregationList ++ computations steps := by
  induction steps generalizing q with
  | nil => exact (List.append_nil _).symm
  | cons call steps ih =>
    have hcons : computations (call :: steps) =
        call.2.computation?.toList ++ computations steps := by
      unfold computations
      rw [List.filterMap_cons]
      cases call.2.computation? <;> rfl
    rw [run_cons, ih, applyOrKeep_postAggregationList, hcons, List.append_assoc]

/-- A run only adds aggregations, after those that are there. -/
theorem aggregationList_prefix_run (q : Query) (steps : List (Clock × Step)) :
    q.aggregationList <+: (run q steps).aggregationList := by
  induction steps generalizing q with
  | nil => exact List.prefix_refl _
  | cons call steps ih =>
    obtain ⟨added, hadded⟩ := exists_aggregateOn_eq call.2 q.aggregationList
    have hstep : q.aggregationList <+: (call.2.applyOrKeep call.1 q).aggregationList := by
      rw [applyOrKeep_aggregationList, hadded]
      exact List.prefix_append _ _
    exact hstep.trans (ih _)

end Step

/-! ## What a list owes to its requests -/

namespace Aggregation

/-- What a list of aggregations owes to the requests that it serves. -/
structure Serves (list : List Aggregation) (requests : List (AggregationKind × String)) : Prop where
  /-- An aggregation is named after its field. -/
  named : ∀ a ∈ list, a.name = a.fieldName
  /-- Each field that was asked for is there, and no other is. -/
  fields : ∀ field, field ∈ list.map fieldName ↔ field ∈ requests.map Prod.snd
  /-- Whatever is no distinct count comes before everything else of its field. -/
  first : list.Pairwise fun a b => b.kind ≠ .hyperUnique → a.fieldName ≠ b.fieldName
  /-- Whatever is no distinct count is of the kind that its field was first asked for. -/
  kinds : ∀ a ∈ list, a.kind ≠ .hyperUnique →
    requests.find? (·.2 = a.fieldName) = some (a.kind, a.fieldName)

/-- Serving one more request keeps what the list owes. -/
theorem Serves.serve {list : List Aggregation} {requests : List (AggregationKind × String)}
    (h : Serves list requests) (request : AggregationKind × String) :
    Serves (serve list request) (requests ++ [request]) := by
  obtain ⟨kind, field⟩ := request
  have hkinds : ∀ a ∈ list, a.kind ≠ .hyperUnique →
      (requests ++ [(kind, field)]).find? (·.2 = a.fieldName) = some (a.kind, a.fieldName) := by
    intro a ha hne
    rw [List.find?_append, h.kinds a ha hne]
    rfl
  unfold Aggregation.serve
  split
  next hskip =>
    refine ⟨h.named, fun f => ?_, h.first, hkinds⟩
    rw [h.fields, List.map_append, List.mem_append, List.map_singleton, List.mem_singleton]
    refine ⟨.inl, fun hf => hf.elim id fun hf => ?_⟩
    rw [hf, ← h.fields]
    exact hskip.2
  next hadd =>
    refine ⟨?_, fun f => ?_, ?_, ?_⟩
    · rw [List.forall_mem_append, List.forall_mem_singleton]
      exact ⟨h.named, rfl⟩
    · rw [List.map_append, List.mem_append, List.map_append, List.mem_append, h.fields]
      rfl
    · rw [List.pairwise_append]
      refine ⟨h.first, List.pairwise_singleton _ _, fun a ha b hb hne hfield => hadd ⟨?_, ?_⟩⟩
      · rwa [List.mem_singleton.mp hb] at hne
      · rw [List.mem_singleton.mp hb] at hfield
        exact List.mem_map.mpr ⟨a, ha, hfield⟩
    · rw [List.forall_mem_append, List.forall_mem_singleton]
      refine ⟨hkinds, fun hne => ?_⟩
      -- The field is new to the list, so it was not asked for before.
      have hnew : field ∉ requests.map Prod.snd := fun hf => hadd ⟨hne, (h.fields field).mpr hf⟩
      have hnone : requests.find? (·.2 = field) = none := by
        refine List.find?_eq_none.mpr fun r hr hfield => hnew ?_
        rw [← of_decide_eq_true hfield]
        exact List.mem_map_of_mem hr
      show (requests ++ [(kind, field)]).find? (·.2 = field) = some (kind, field)
      rw [List.find?_append, hnone, Option.none_or, List.find?_singleton]
      simp

/-- Requests that are served from nothing: what is owed holds of each prefix of them. -/
theorem serves_foldl (requests : List (AggregationKind × String)) :
    Serves (requests.foldl serve []) requests := by
  induction requests using List.reverseRecOn with
  | nil => exact ⟨nofun, fun _ => iff_of_false nofun nofun, .nil, nofun⟩
  | append_singleton requests request ih =>
    rw [List.foldl_append]
    exact ih.serve request

/-- Of the aggregations that are no distinct counts, no two are of one field. -/
theorem Serves.nodup {list : List Aggregation} {requests : List (AggregationKind × String)}
    (h : Serves list requests) :
    ((list.filter fun a => a.kind ≠ .hyperUnique).map fieldName).Nodup := by
  rw [List.Nodup, List.pairwise_map, List.pairwise_filter]
  refine h.first.imp fun hne _ hb => hne ?_
  exact of_decide_eq_true hb

end Aggregation

namespace Query

/-- Aggregating some fields and then others is aggregating all of them. -/
theorem aggregate_append (q : Query) (kind : AggregationKind) (xs ys : List String) :
    q.aggregate kind (xs ++ ys) = (q.aggregate kind xs).aggregate kind ys := by
  simp only [aggregate, aggregationList, List.foldl_append]
  rfl

/-- Counting dimensions at once or one call after the other is the same. -/
theorem distinctCount_append (q : Query) (xs ys : List String) :
    q.distinctCount (xs ++ ys) = (q.distinctCount xs).distinctCount ys := by
  simp only [distinctCount, aggregationList, List.map_append, ← List.append_assoc]
  rfl

end Query

namespace Step

open Aggregation (serve Serves)

/-- **The aggregations of a run.**  Let a run start without aggregations.  What it leaves is the
left fold of `serve` over its requests.  So each requested field is there, under its own name; no
two sums, counts or extremes are of one field, and one of them is always the first aggregation of
its field and of the kind that was asked for first.  A run that goes on appends.  Only the requests
count, and not how they are grouped into steps. -/
theorem aggregations_of_run {q : Query} (hq : q.aggregationList = []) {steps : List (Clock × Step)}
    (hs : ∀ call ∈ steps, call.2.Offered) :
    (run q steps).aggregationList = (requested steps).foldl serve [] ∧
    Serves (run q steps).aggregationList (requested steps) ∧
    (((run q steps).aggregationList.filter fun a => a.kind ≠ .hyperUnique).map
      (·.fieldName)).Nodup ∧
    (∀ more, (run q steps).aggregationList <+: (run (run q steps) more).aggregationList) ∧
    (∀ q' steps', q'.aggregationList = [] → (∀ call ∈ steps', call.2.Offered) →
      requested steps' = requested steps →
      (run q' steps').aggregationList = (run q steps).aggregationList) ∧
    (∀ kind xs ys, (run q steps).aggregate kind (xs ++ ys) =
      ((run q steps).aggregate kind xs).aggregate kind ys) ∧
    ∀ xs ys, (run q steps).distinctCount (xs ++ ys) =
      ((run q steps).distinctCount xs).distinctCount ys := by
  have hrun := run_aggregationList q hs
  rw [hq] at hrun
  have hserves : Serves (run q steps).aggregationList (requested steps) := by
    rw [hrun]; exact Aggregation.serves_foldl _
  refine ⟨hrun, hserves, hserves.nodup, aggregationList_prefix_run _, ?_,
    Query.aggregate_append _, Query.distinctCount_append _⟩
  intro q' steps' hq' hs' hsame
  rw [run_aggregationList q' hs', hq', hsame, hrun]

/-- A computation on four fields, two of them read under the name of another value, and one of them
twice. -/
def margin : PostAggregation :=
  .arithmetic "margin" .divide
    [.arithmetic "profit" .subtract [.fieldAccess "income" "price", .field "cost", .field "price"],
      .arithmetic "reach" .add [.field "user", .fieldAccess "hits" "views"]]

/-- Requests of several kinds for overlapping fields. -/
def overlappingRun : List (Clock × Step) :=
  [(.ofSeconds 0, .aggregate .longSum ["clicks", "views", "clicks"]),
    (.ofSeconds 1, .distinctCount ["clicks", "user"]),
    (.ofSeconds 2, .aggregate .max ["user", "clicks", "price"]),
    (.ofSeconds 3, .filter [("city", .list [])]),
    (.ofSeconds 4, .postAggregationDouble margin)]

theorem overlappingRun_offered : ∀ call ∈ overlappingRun, call.2.Offered := by
  simp [overlappingRun, Offered]

/-- The distinct count of `clicks` follows its sum; that of `user` leaves no room for its maximum;
and `margin` adds the one field that is missing. -/
theorem overlappingRun_aggregations :
    (Query.new (.ofSeconds 0) "shop/orders").aggregationList = [] ∧
    (∀ call ∈ overlappingRun, call.2.Offered) ∧
    (run (Query.new (.ofSeconds 0) "shop/orders") overlappingRun).aggregationList =
      [.of .longSum "clicks", .of .longSum "views", .of .hyperUnique "clicks",
        .of .hyperUnique "user", .of .max "price", .of .doubleSum "cost"] := by
  refine ⟨rfl, overlappingRun_offered, ?_⟩
  rw [(aggregations_of_run (q := Query.new (.ofSeconds 0) "shop/orders") rfl
    overlappingRun_offered).1]
  rfl

end Step

end BrokerQuery
