import BrokerQuery.Proofs.Filter.Built
import BrokerQuery.Proofs.Query.Document
/-
  When a query can be written.

  The filter is the only part of a query that may fail to be written.  The tests of the filter that
  a run leaves are those of all attached filters, one filter after the other (`Filter.predicates_all?`), so
  a query fails iff a test without a value was ever attached to it, and the leftmost of them is
  named (`toJson_run_eq_error_iff`).  A run that goes on appends to the attached filters.  It cannot
  take the leftmost one away, nor put one before it.
-/

namespace BrokerQuery

namespace Query

/-- A query fails to be written iff its filter does, and for that reason. -/
theorem toJson_eq_error_iff {q : Query} {f : Filter} (h : q.filter = some f) (e : QueryError) :
    q.toJson = .error e ↔ ∃ reason, f.toJson = .error reason ∧ e = .filter reason := by
  rw [toJson_of_filter_some h]
  cases f.toJson with
  | error reason =>
    constructor
    · intro he
      exact ⟨reason, rfl, (Except.error.inj he).symm⟩
    · rintro ⟨reason', hreason, he⟩
      rw [he, Except.error.inj hreason]; rfl
  | ok v =>
    constructor
    · intro he
      have he' : (Except.ok _ : Except QueryError Json) = .error e := he
      cases he'
    · rintro ⟨reason, hreason, _⟩
      cases hreason

/-- What a run leaves fails to be written iff a test without a value was attached. -/
theorem toJson_run_eq_error_iff (clock : Clock) (source : String) {steps : List (Clock × Step)}
    (hs : Step.Supplied steps) (e : QueryError) :
    (Step.run (Query.new clock source) steps).toJson = .error e ↔
      ∃ p, Filter.firstUnbound? ((Step.attached steps).flatMap Filter.predicates) = some p ∧
        e = .filter (.missingValue p.dimension) := by
  have hfilter := Step.run_filter_of_none (q := Query.new clock source) rfl steps
  cases hf : Filter.all? (Step.attached steps) with
  | none =>
    rw [hf] at hfilter
    -- Nothing was attached, and a query without a filter can be written.
    have hnil : Step.attached steps = [] := (Filter.all?_eq_none_iff _).mp hf
    rw [toJson_of_filter_none hfilter, hnil]
    refine iff_of_false (by simp) ?_
    rintro ⟨p, hp, _⟩
    exact absurd hp (Option.some_ne_none p).symm
  | some f =>
    rw [hf] at hfilter
    have hcanonical : f.Canonical :=
      Filter.canonical_of_run (fun call hcall g hg => (hs call hcall g hg).canonical) hfilter
    rw [toJson_eq_error_iff hfilter, ← Filter.predicates_all? hf]
    constructor
    · rintro ⟨reason, hreason, he⟩
      obtain ⟨p, hp, hmissing⟩ := (hcanonical.writes.error_iff reason).mp hreason
      exact ⟨p, hp, by rw [he, hmissing]⟩
    · rintro ⟨p, hp, he⟩
      exact ⟨_, (hcanonical.writes.error_iff _).mpr ⟨p, hp, rfl⟩, he⟩

/-- A run that goes on cannot make a query writable again, nor change the reason. -/
theorem toJson_run_error_persists (clock : Clock) (source : String)
    {steps more : List (Clock × Step)} (hs : Step.Supplied steps) (hmore : Step.Supplied more)
    {e : QueryError} (he : (Step.run (Query.new clock source) steps).toJson = .error e) :
    (Step.run (Step.run (Query.new clock source) steps) more).toJson = .error e := by
  obtain ⟨p, hp, hmissing⟩ := (toJson_run_eq_error_iff clock source hs e).mp he
  have hall : Step.Supplied (steps ++ more) := by
    intro call hcall
    rcases List.mem_append.mp hcall with h | h
    · exact hs call h
    · exact hmore call h
  rw [← Step.run_append]
  refine (toJson_run_eq_error_iff clock source hall e).mpr ⟨p, ?_, hmissing⟩
  rw [Step.attached_append, List.flatMap_append, Filter.firstUnbound?_append, hp]
  rfl

end Query

/-- **Writing keeps the meaning and fails only for a missing value.**  A built filter can be written
iff each of its tests has a value; otherwise the error names the leftmost test that has none; and
what is written selects the rows that the filter keeps.  A query that a run builds fails to be
written iff a filter with such a test was ever attached, the leftmost one is named, and no later
step changes that. -/
theorem writing_keeps_meaning :
    (∀ f : Filter, f.Built →
      ((∃ v, f.toJson = .ok v) ↔ ∀ p ∈ f.predicates, p.value.isSome) ∧
      (∀ e, f.toJson = .error e ↔
        ∃ p, Filter.firstUnbound? f.predicates = some p ∧ e = .missingValue p.dimension) ∧
      (∀ v, f.toJson = .ok v → ∀ row, v.selects row = some (f.holds row))) ∧
    (∀ clock source steps, Step.Supplied steps →
      ((∃ e, (Step.run (Query.new clock source) steps).toJson = .error e) ↔
        ∃ f ∈ Step.attached steps, ∃ p ∈ f.predicates, p.value = none) ∧
      (∀ e, (Step.run (Query.new clock source) steps).toJson = .error e ↔
        ∃ p, Filter.firstUnbound? ((Step.attached steps).flatMap Filter.predicates) = some p ∧
          e = .filter (.missingValue p.dimension)) ∧
      (∀ e, (Step.run (Query.new clock source) steps).toJson = .error e →
        ∀ more, Step.Supplied more →
          (Step.run (Step.run (Query.new clock source) steps) more).toJson = .error e)) := by
  constructor
  · intro f hf
    have hwrites := hf.canonical.writes
    exact ⟨hwrites.ok_iff, hwrites.error_iff, fun v hv => hwrites.means hv⟩
  · intro clock source steps hs
    refine ⟨?_, Query.toJson_run_eq_error_iff clock source hs,
      fun e he more hmore => Query.toJson_run_error_persists clock source hs hmore he⟩
    constructor
    · rintro ⟨e, he⟩
      obtain ⟨p, hp, _⟩ := (Query.toJson_run_eq_error_iff clock source hs e).mp he
      obtain ⟨hmem, hvalue⟩ := Filter.of_firstUnbound?_eq_some hp
      obtain ⟨f, hf, hpf⟩ := List.mem_flatMap.mp hmem
      exact ⟨f, hf, p, hpf, hvalue⟩
    · rintro ⟨f, hf, p, hpf, hvalue⟩
      -- Where some test has no value there is a leftmost one.
      cases hfirst : Filter.firstUnbound? ((Step.attached steps).flatMap Filter.predicates) with
      | none =>
        have hsome := (Filter.firstUnbound?_eq_none_iff _).mp hfirst p
          (List.mem_flatMap.mpr ⟨f, hf, hpf⟩)
        rw [hvalue] at hsome
        exact absurd hsome (by simp)
      | some p' =>
        exact ⟨_, (Query.toJson_run_eq_error_iff clock source hs _).mpr ⟨p', hfirst, rfl⟩⟩

/-- The exclusion is written and read back on a row; the run around it stays unwritable for its test
of `device`, even when the run goes on. -/
theorem writing_abroad :
    Filter.abroad.Built ∧ Step.Supplied Filter.abroadRun ∧
    (∃ v, Filter.abroad.toJson = .ok v ∧ v.selects (fun _ => "CH") = some true) ∧
    (Step.run (Step.run (Query.new (.ofSeconds 0) "shop/orders") Filter.abroadRun)
      Filter.abroadRun).toJson = .error (.filter (.missingValue "device")) := by
  obtain ⟨hfilter, hquery⟩ := writing_keeps_meaning
  refine ⟨Filter.abroad_built, Filter.abroadRun_supplied, ?_, ?_⟩
  · obtain ⟨hok, _, hmeans⟩ := hfilter _ Filter.abroad_built
    obtain ⟨v, hv⟩ := hok.mpr (by decide)
    refine ⟨v, hv, ?_⟩
    rw [hmeans v hv]; decide
  · obtain ⟨_, herror, hpersists⟩ := hquery (.ofSeconds 0) "shop/orders" _ Filter.abroadRun_supplied
    exact hpersists _ ((herror _).mpr ⟨_, rfl, rfl⟩) _ Filter.abroadRun_supplied

end BrokerQuery
