import BrokerQuery.Proofs.Fallible
import BrokerQuery.Query.Wire
/-
  The document that a query is written as.

  Each field that a query may have is a slot: a name, and a value where the query has one.  The
  slots of a query stand in one order, whatever was set first, and the document consists of those
  with a value (`toJson_eq`).  Three things follow from that form alone:

    1. the names of a document are some of the slots' names, in order (`names_present_sublist`);
    2. a field is looked up by looking at its slot (`lookup_present`);
    3. two documents agree but for some fields if their slots do (`filter_present`).
-/

namespace BrokerQuery

namespace Json

/-- The fields of the slots that have a value. -/
def present (slots : List (String × Option Json)) : List (String × Json) :=
  slots.filterMap fun slot => slot.2.map (slot.1, ·)

theorem present_append (slots more : List (String × Option Json)) :
    present (slots ++ more) = present slots ++ present more :=
  List.filterMap_append

theorem present_cons (name : String) (value? : Option Json) (slots : List (String × Option Json)) :
    present ((name, value?) :: slots) = (value?.map (name, ·)).toList ++ present slots := by
  cases value? <;> rfl

/-- Leaving out slots keeps the order of the others. -/
theorem names_present_sublist (slots : List (String × Option Json)) :
    ((present slots).map Prod.fst).Sublist (slots.map Prod.fst) := by
  induction slots with
  | nil => exact List.Sublist.refl []
  | cons slot slots ih =>
    obtain ⟨name, value?⟩ := slot
    cases value? with
    | none => exact ih.cons name
    | some v => exact ih.cons_cons name

/-- A name that is not there is not found. -/
theorem lookup_eq_none {name : String} {fields : List (String × Json)}
    (h : name ∉ fields.map Prod.fst) : lookup name fields = none := by
  induction fields with
  | nil => rfl
  | cons field fields ih =>
    obtain ⟨k, v⟩ := field
    rw [List.map_cons, List.mem_cons, not_or] at h
    rw [lookup, if_neg (Ne.symm h.1), ih h.2]

/-- Where no two slots have the same name, a name finds what is in its slot. -/
theorem lookup_present {slots : List (String × Option Json)} (hnames : (slots.map Prod.fst).Nodup)
    {name : String} {value? : Option Json} (hslot : (name, value?) ∈ slots) :
    lookup name (present slots) = value? := by
  induction slots with
  | nil => exact absurd hslot List.not_mem_nil
  | cons slot slots ih =>
    obtain ⟨k, w?⟩ := slot
    rw [List.map_cons, List.nodup_cons] at hnames
    rw [present_cons]
    rcases List.mem_cons.mp hslot with hhead | htail
    · cases hhead
      cases value? with
      | none => exact lookup_eq_none fun hmem => hnames.1 ((names_present_sublist slots).subset hmem)
      | some v => exact if_pos rfl
    · have hmem : name ∈ slots.map Prod.fst := List.mem_map.mpr ⟨_, htail, rfl⟩
      have hne : k ≠ name := fun hk => hnames.1 (hk ▸ hmem)
      cases w? with
      | none => exact ih hnames.2 htail
      | some w =>
        show (if k = name then some w else lookup name (present slots)) = value?
        rw [if_neg hne, ih hnames.2 htail]

/-- Dropping fields by their names is dropping their slots. -/
theorem filter_present (keep : String → Bool) (slots : List (String × Option Json)) :
    (present slots).filter (fun field => keep field.1) =
      present (slots.filter fun slot => keep slot.1) := by
  induction slots with
  | nil => rfl
  | cons slot slots ih =>
    obtain ⟨name, value?⟩ := slot
    rw [present_cons, List.filter_append, ih, List.filter_cons]
    cases hkeep : keep name with
    | true =>
      rw [if_pos rfl, present_cons]
      cases value? with
      | none => rfl
      | some v =>
        rw [Option.map_some, Option.toList_some, List.filter_cons, if_pos hkeep, List.filter_nil]
    | false =>
      rw [if_neg (Bool.false_ne_true)]
      cases value? with
      | none => rfl
      | some v =>
        rw [Option.map_some, Option.toList_some, List.filter_cons, hkeep, List.filter_nil]
        rfl

end Json

namespace Query

open Json (present)

/-- Every field that a query may have, in the order of the document; the filter is given as it is
written. -/
def slots (q : Query) (filter? : Option Json) : List (String × Option Json) :=
  [("dataSource", some (.string q.dataSource)),
    ("granularity", some q.granularity.toJson),
    ("intervals", some (.ofStrings q.intervals)),
    ("queryType", q.queryType.map (.string ·.name)),
    ("dimensions", q.dimensions.map .ofStrings),
    ("dimension", q.dimension.map .string),
    ("metric", q.metric.map .string),
    ("threshold", q.threshold.map fun (n : Nat) => .int n),
    ("metrics", q.metrics.map .ofStrings),
    ("pagingSpec", q.paging.map PagingSpec.toJson),
    ("aggregations", q.aggregations.map (.array <| ·.map Aggregation.toJson)),
    ("postAggregations", q.postAggregations.map (.array <| PostAggregation.toJsonAll ·)),
    ("having", q.having.map Having.toJson),
    ("limitSpec", q.limitSpec.map LimitSpec.toJson),
    ("context", q.useCache.map fun b => .object [("useCache", .bool b)]),
    ("filter", filter?)]

/-- The names of the fields, in the order of the document. -/
def fieldOrder : List String :=
  ["dataSource", "granularity", "intervals", "queryType", "dimensions", "dimension", "metric",
    "threshold", "metrics", "pagingSpec", "aggregations", "postAggregations", "having",
    "limitSpec", "context", "filter"]

/-- The slots of a query have one order, whatever is in them. -/
theorem names_slots (q : Query) (filter? : Option Json) :
    (q.slots filter?).map Prod.fst = fieldOrder := rfl

theorem nodup_fieldOrder : fieldOrder.Nodup := by decide

theorem nodup_slots (q : Query) (filter? : Option Json) :
    ((q.slots filter?).map Prod.fst).Nodup := by
  rw [names_slots]; exact nodup_fieldOrder

theorem optional_eq_present (name : String) (write : α → Json) (value? : Option α) :
    optional name write value? = present [(name, value?.map write)] := by
  cases value? <;> rfl

/-- The filter is the last slot. -/
theorem properties_append (q : Query) (filter? : Option Json) :
    q.properties ++ present [("filter", filter?)] = present (q.slots filter?) := by
  have hfirst : ([("dataSource", .string q.dataSource), ("granularity", q.granularity.toJson),
      ("intervals", .ofStrings q.intervals)] : List (String × Json)) =
      present [("dataSource", some (.string q.dataSource)),
        ("granularity", some q.granularity.toJson),
        ("intervals", some (.ofStrings q.intervals))] := rfl
  -- The threshold is turned into an integer before it is written.
  have hthreshold : optional "threshold" (.int ·) q.threshold =
      present [("threshold", q.threshold.map fun (n : Nat) => .int n)] := by
    cases q.threshold <;> rfl
  unfold properties
  simp only [hthreshold, optional_eq_present, hfirst, ← Json.present_append]
  rfl

/-- A query without a filter can always be written. -/
theorem toJson_of_filter_none {q : Query} (h : q.filter = none) :
    q.toJson = .ok (.object q.properties) := by
  unfold toJson filterField
  rw [h]
  show Except.ok (Json.object (q.properties ++ [])) = _
  rw [List.append_nil]

/-- A query with a filter can be written iff the filter can. -/
theorem toJson_of_filter_some {q : Query} {f : Filter} (h : q.filter = some f) :
    q.toJson = (f.toJson.mapError QueryError.filter).map fun v =>
      .object (q.properties ++ [("filter", v)]) := by
  simp only [toJson, filterField, h]
  cases f.toJson <;> rfl

/-- A query is written as the slots that have a value, and can be written iff its filter can. -/
theorem toJson_eq (q : Query) :
    q.toJson = ((q.filter.mapM Filter.toJson).mapError QueryError.filter).map fun filter? =>
      .object (present (q.slots filter?)) := by
  simp only [← properties_append]
  cases hf : q.filter with
  | none =>
    rw [toJson_of_filter_none hf]
    show Except.ok (Json.object q.properties) = .ok (.object (q.properties ++ []))
    rw [List.append_nil]
  | some f =>
    rw [toJson_of_filter_some hf, Option.mapM_some]
    cases f.toJson <;> rfl

/-- A document that was written, as its slots. -/
theorem slots_of_toJson {q : Query} {v : Json} (h : q.toJson = .ok v) :
    ∃ filter?, q.filter.mapM Filter.toJson = .ok filter? ∧
      v = .object (present (q.slots filter?)) := by
  rw [toJson_eq] at h
  obtain ⟨filter?, hfilter, hv⟩ := Fallible.of_map_eq_ok h
  exact ⟨filter?, Fallible.of_mapError_eq_ok hfilter, hv.symm⟩

end Query
end BrokerQuery
