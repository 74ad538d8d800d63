import BrokerQuery.Proofs.Filter.Built
import BrokerQuery.Proofs.Query.Clauses
/-
  The document of a query, read back.

  `Query.ofJson?` reads every field of a document and builds the query again, all but its service,
  which is not sent.  A field is found in its slot (`Json.required_present`,
  `Json.optional?_present`) and each clause has a reader of its own, so what is left is to put them
  together (`ofJson?_of_toJson`).  A query can be read back if its filter is canonical and its numbers
  are finite.  The first holds of every query that a run of steps can reach (`Reached.canonical`).

  Reading back makes writing injective: queries with the same document are the same query, up to
  their service.
-/

namespace BrokerQuery

namespace Query

open Json (present required optional? named? list?)

/-- A query that a run of steps leaves behind. -/
def Reached (q : Query) : Prop :=
  ∃ clock source steps, Step.Supplied steps ∧ q = Step.run (Query.new clock source) steps

/-- The numbers of having clauses and the constants of post-aggregations are finite. -/
def Finite (q : Query) : Prop :=
  (∀ h, q.having = some h → ∀ x ∈ h.numbers, x.isFinite) ∧
    ∀ ps, q.postAggregations = some ps → ∀ x ∈ PostAggregation.constantsAll ps, x.isFinite

/-- The query without its service, which the broker is not told. -/
def sent (q : Query) : Query := { q with service := "" }

/-- Whether a value says that the cache may be used. -/
def useCacheOfJson? (v : Json) : Option Bool := v.fields?.bind (required "useCache" Json.bool?)

/-- The query that fields write, with a service that is left open. -/
def ofFields? (fields : List (String × Json)) : Option Query := do
  return {
    service := ""
    dataSource := ← required "dataSource" Json.string? fields
    granularity := ← required "granularity" Granularity.ofJson? fields
    intervals := ← required "intervals" Json.strings? fields
    queryType := ← optional? "queryType" (named? QueryType.name QueryType.all) fields
    dimensions := ← optional? "dimensions" Json.strings? fields
    dimension := ← optional? "dimension" Json.string? fields
    metric := ← optional? "metric" Json.string? fields
    threshold := ← optional? "threshold" Json.natural? fields
    metrics := ← optional? "metrics" Json.strings? fields
    paging := ← optional? "pagingSpec" PagingSpec.ofJson? fields
    aggregations := ← optional? "aggregations" (list? Aggregation.ofJson?) fields
    postAggregations := ← optional? "postAggregations" PostAggregation.listOfJson? fields
    having := ← optional? "having" Having.ofJson? fields
    limitSpec := ← optional? "limitSpec" LimitSpec.ofJson? fields
    useCache := ← optional? "context" useCacheOfJson? fields
    filter := ← optional? "filter" Filter.ofJson? fields }

/-- The query that a document writes, with a service that is left open. -/
def ofJson? (v : Json) : Option Query := v.fields?.bind ofFields?

/-- The filter of a query, as it was written, reads back. -/
theorem mapM_filter_of_written {q : Query} (hq : ∀ f, q.filter = some f → f.Canonical)
    {filter? : Option Json} (h : q.filter.mapM Filter.toJson = .ok filter?) :
    filter?.mapM Filter.ofJson? = some q.filter := by
  cases hf : q.filter with
  | none =>
    rw [hf] at h
    rw [← Except.ok.inj h]; rfl
  | some f =>
    rw [hf] at h
    obtain ⟨w, hw, hsome⟩ := Fallible.of_map_eq_ok h
    rw [← hsome, Option.mapM_some, Filter.ofJson?_of_toJson (hq f hf) hw]; rfl

theorem useCacheOfJson?_object (b : Bool) :
    useCacheOfJson? (.object [("useCache", .bool b)]) = some b := rfl

/-- A document that was written is read back, slot by slot. -/
theorem ofJson?_of_toJson {q : Query} (hq : ∀ f, q.filter = some f → f.Canonical)
    (hfinite : q.Finite) {v : Json} (h : q.toJson = .ok v) : ofJson? v = some q.sent := by
  obtain ⟨filter?, hwritten, hv⟩ := slots_of_toJson h
  have hrequired {α} := @Json.required_present α _ (nodup_slots q filter?)
  have hoptional {α} := @Json.optional?_present α _ (nodup_slots q filter?)
  -- Slot by slot: where it stands in the document, and that its reader takes back what was written.
  have hdataSource := hrequired "dataSource" (by simp [slots]) (Json.string?_string q.dataSource)
  have hgranularity := hrequired "granularity" (by simp [slots]) q.granularity.ofJson?_toJson
  have hintervals := hrequired "intervals" (by simp [slots]) (Json.strings?_ofStrings q.intervals)
  have hqueryType := hoptional "queryType" q.queryType (by simp [slots]) fun t _ => t.named?_name
  have hdimensions := hoptional "dimensions" q.dimensions (by simp [slots])
    fun names _ => Json.strings?_ofStrings names
  have hdimension := hoptional "dimension" q.dimension (by simp [slots])
    fun s _ => Json.string?_string s
  have hmetric := hoptional "metric" q.metric (by simp [slots]) fun s _ => Json.string?_string s
  have hthreshold := hoptional "threshold" q.threshold (by simp [slots])
    fun n _ => Json.natural?_int n
  have hmetrics := hoptional "metrics" q.metrics (by simp [slots])
    fun names _ => Json.strings?_ofStrings names
  have hpaging := hoptional "pagingSpec" q.paging (by simp [slots]) fun p _ => p.ofJson?_toJson
  have haggregations := hoptional "aggregations" q.aggregations (by simp [slots])
    fun list _ => Json.list?_map fun a _ => a.ofJson?_toJson
  have hpostAggregations := hoptional "postAggregations" q.postAggregations (by simp [slots])
    fun ps hps => PostAggregation.listOfJson?_toJsonAll (hfinite.2 ps hps)
  have hhaving := hoptional "having" q.having (by simp [slots])
    fun clause hclause => clause.ofJson?_toJson (hfinite.1 clause hclause)
  have hlimitSpec := hoptional "limitSpec" q.limitSpec (by simp [slots])
    fun l _ => l.ofJson?_toJson
  have huseCache := hoptional "context" q.useCache (by simp [slots])
    fun b _ => useCacheOfJson?_object b
  have hfilter : optional? "filter" Filter.ofJson? (present (q.slots filter?)) = some q.filter := by
    rw [optional?, Json.lookup_present (nodup_slots q filter?)
      (show ("filter", filter?) ∈ q.slots filter? by simp [slots])]
    exact mapM_filter_of_written hq hwritten
  rw [hv, ofJson?, Json.fields?, Option.bind_some, ofFields?]
  simp only [hdataSource, hgranularity, hintervals, hqueryType, hdimensions, hdimension, hmetric,
    hthreshold, hmetrics, hpaging, haggregations, hpostAggregations, hhaving, hlimitSpec,
    huseCache, hfilter]
  rfl

/-- What a run leaves behind has a canonical filter. -/
theorem Reached.canonical {q : Query} (h : q.Reached) {f : Filter} (hf : q.filter = some f) :
    f.Canonical := by
  obtain ⟨clock, source, steps, hs, hq⟩ := h
  rw [hq] at hf
  exact Filter.canonical_of_run (fun call hcall g hg => (hs call hcall g hg).canonical) hf

/-- **The document says what the query is.**  Let a query be reached by steps in any order.  The
names in its document are distinct, and they stand in the fixed order.  If its numbers are finite,
`Query.ofJson?` reads the document as the query, all but its service: what was never set is told
from an empty list, and every tree is found again.  So of two such queries with one document each
property is the same. -/
theorem document_determines_query :
    (∀ q : Query, q.Reached → ∀ v, q.toJson = .ok v →
      (∃ fields, v = .object fields ∧ (fields.map Prod.fst).Sublist fieldOrder ∧
        (fields.map Prod.fst).Nodup) ∧
      (q.Finite → ofJson? v = some q.sent)) ∧
    (∀ q q' : Query, q.Reached → q'.Reached → q.Finite → q'.Finite →
      ∀ v, q.toJson = .ok v → q'.toJson = .ok v → q.sent = q'.sent) := by
  constructor
  · intro q hq v hv
    refine ⟨?_, fun hfinite => ofJson?_of_toJson (fun f hf => hq.canonical hf) hfinite hv⟩
    obtain ⟨filter?, _, hobject⟩ := slots_of_toJson hv
    have hnames := Json.names_present_sublist (q.slots filter?)
    exact ⟨_, hobject, hnames, hnames.nodup nodup_fieldOrder⟩
  · intro q q' hq hq' hfinite hfinite' v hv hv'
    have hread := ofJson?_of_toJson (fun f hf => hq.canonical hf) hfinite hv
    have hread' := ofJson?_of_toJson (fun f hf => hq'.canonical hf) hfinite' hv'
    exact Option.some.inj (hread.symm.trans hread')

/-- Steps of many kinds, with a list that is set and empty. -/
def manyKinds : List (Clock × Step) :=
  [(.ofSeconds 0, .topN "city" "clicks" 5),
    (.ofSeconds 1, .having (.neg (.disj []))),
    (.ofSeconds 2, .postAggregation (.constant "two" ⟨0x4000000000000000⟩)),
    (.ofSeconds 3, .granularity "PT6H" (some "Africa/Abidjan")),
    (.ofSeconds 4, .useCache true),
    (.ofSeconds 5, .andFilter Filter.abroad)]

/-- The query that `manyKinds` builds on a source. -/
def manyKindsOn (source : String) : Query := Step.run (Query.new (.ofSeconds 0) source) manyKinds

/-- What the query of `manyKinds` is written as. -/
def manyKindsDocument : Json := .object
  [("dataSource", .string "orders"),
    ("granularity", .object [("type", .string "period"), ("period", .string "PT6H"),
      ("timeZone", .string "Africa/Abidjan")]),
    ("intervals", .array [.string "1970-01-01T00:00:00+00:00/1970-01-01T00:00:00+00:00"]),
    ("queryType", .string "topN"), ("dimension", .string "city"), ("metric", .string "clicks"),
    ("threshold", .int 5), ("aggregations", .array []),
    ("postAggregations", .array [.object [("type", .string "constant"), ("name", .string "two"),
      ("value", .float ⟨0x4000000000000000⟩)]]),
    ("having", .object [("type", .string "not"),
      ("havingSpec", .object [("type", .string "or"), ("havingSpecs", .array [])])]),
    ("context", .object [("useCache", .bool true)]),
    ("filter", .object [("type", .string "not"), ("field", .object [("type", .string "or"),
      ("fields", .array [
        .object [("type", .string "selector"), ("dimension", .string "country"),
          ("value", .string "DE")],
        .object [("type", .string "selector"), ("dimension", .string "country"),
          ("value", .string "AT")]])])])]

theorem manyKindsOn_reached (source : String) : (manyKindsOn source).Reached := by
  refine ⟨_, source, manyKinds, ?_, rfl⟩
  intro call hcall f hf
  simp only [manyKinds, List.mem_cons, List.not_mem_nil, or_false] at hcall
  rcases hcall with rfl | rfl | rfl | rfl | rfl | rfl <;> simp [Step.filters] at hf
  rw [hf]; exact Filter.abroad_built

theorem manyKindsOn_finite (source : String) : (manyKindsOn source).Finite := by
  have hhaving : (manyKindsOn source).having = some (.neg (.disj [])) := rfl
  have hpostAggregations : (manyKindsOn source).postAggregations =
      some [.constant "two" ⟨0x4000000000000000⟩] := rfl
  constructor
  · intro h hh
    rw [← Option.some.inj (hhaving.symm.trans hh)]; decide
  · intro ps hps
    rw [← Option.some.inj (hpostAggregations.symm.trans hps)]; decide

/-- Two services with a source of one name: their queries have one document, and it reads back as
all that they have in common. -/
theorem manyKindsOn_decoded :
    (manyKindsOn "shop/orders").Reached ∧ (manyKindsOn "shop/orders").Finite ∧
    (manyKindsOn "web/orders").Reached ∧ (manyKindsOn "web/orders").Finite ∧
    (manyKindsOn "shop/orders").toJson = .ok manyKindsDocument ∧
    (manyKindsOn "web/orders").toJson = .ok manyKindsDocument ∧
    ofJson? manyKindsDocument = some (manyKindsOn "shop/orders").sent ∧
    (manyKindsOn "shop/orders").sent = (manyKindsOn "web/orders").sent := by
  have hshop : (manyKindsOn "shop/orders").toJson = .ok manyKindsDocument := rfl
  have hweb : (manyKindsOn "web/orders").toJson = .ok manyKindsDocument := rfl
  obtain ⟨hread, hsame⟩ := document_determines_query
  refine ⟨manyKindsOn_reached _, manyKindsOn_finite _, manyKindsOn_reached _, manyKindsOn_finite _,
    hshop, hweb, ?_, ?_⟩
  · exact (hread _ (manyKindsOn_reached _) _ hshop).2 (manyKindsOn_finite _)
  · exact hsame _ _ (manyKindsOn_reached _) (manyKindsOn_reached _) (manyKindsOn_finite _)
      (manyKindsOn_finite _) _ hshop hweb

end Query
end BrokerQuery
