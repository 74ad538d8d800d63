import BrokerQuery.Proofs.CommandLine.Accepted
import BrokerQuery.Proofs.Config.Layers
import BrokerQuery.Proofs.Query.Zones
/-
  What can go wrong when a query is built from a command line.

  Of the three steps that may fail, two cannot once the command line and the configuration were
  accepted:

    1. conditions have values (`QueryArgs.Accepted.filled`), so all can be added;
    2. the time zone of the configuration was checked (`Config.check_eq_ok_iff`), whether or not
       the default granularity needs it, so every text is a granularity (`Granularity.exists_ofText`).

  What is left is the time range, and its first end that is no moment is the error
  (`addInterval_eq_error_iff`).  A query that is built can be written, since all its tests have
  values, and the only time zone in its document is the one that was checked (`toJson_of_build`).
-/

namespace BrokerQuery

/-! ## Time zones -/

theorem TimeZone.databaseName_ne (zone : String) : databaseName zone ≠ "CEST" := by
  unfold databaseName
  split
  · decide
  · next h => exact h

/-- A zone that is used is in the list, and `CEST` is never used. -/
theorem TimeZone.of_resolve_eq_ok {zone? : Option String} {zone : String}
    (h : resolve zone? = .ok zone) : zone ∈ names ∧ zone ≠ "CEST" := by
  have hif : (if databaseName (zone?.getD standard) ∈ names then
      Except.ok (databaseName (zone?.getD standard))
    else .error (databaseName (zone?.getD standard))) = .ok zone := h
  split at hif
  · next hmem =>
    rw [← Except.ok.inj hif]
    exact ⟨hmem, databaseName_ne _⟩
  · exact nomatch hif

namespace Granularity

/-- The zone of a granularity that a text gives was resolved. -/
theorem resolve_of_ofText {s : String} {tz : Option String} {g : Granularity}
    (h : ofText s tz = .ok g) {zone : String} (hzone : g.ownZone? = some zone) :
    TimeZone.resolve tz = .ok zone := by
  unfold ofText at h
  split at h
  · rw [← Except.ok.inj h] at hzone
    exact nomatch hzone
  · obtain ⟨zone', hresolve, hg⟩ := Fallible.of_map_eq_ok h
    rw [← hg] at hzone
    rw [← Option.some.inj hzone]
    exact Fallible.of_mapError_eq_ok hresolve

end Granularity

/-! ## Time ranges -/

/-- The first end of a time range that is no moment. -/
def IntervalArg.firstBad? (range : IntervalArg) : Option String :=
  [range.start, range.stop].find? fun s => (Moment.ofText? s).isNone

/-- A range is bad iff one of its ends is no moment. -/
theorem IntervalArg.exists_firstBad?_iff (range : IntervalArg) :
    (∃ bad, range.firstBad? = some bad) ↔
      Moment.ofText? range.start = none ∨ Moment.ofText? range.stop = none := by
  rw [← Option.isSome_iff_exists, firstBad?, List.find?_isSome]
  simp

/-- A trimmed time range is refused for its first bad end. -/
theorem Query.withInterval_eq_error_iff (q : Query) (clock : Clock) {range : IntervalArg}
    (h : range.Trimmed) (e : QueryError) :
    q.withInterval clock (.text range.start) (.text range.stop) = .error e ↔
      ∃ bad, range.firstBad? = some bad ∧ e = .invalidInterval bad := by
  obtain ⟨hstart, hstop⟩ := h
  cases hs : Moment.ofText? range.start with
  | none =>
    simp [withInterval, withIntervals, Interval.format, Bound.resolve, hs, hstart,
      IntervalArg.firstBad?, bind, Except.bind, eq_comm]
  | some a =>
    cases ht : Moment.ofText? range.stop with
    | none =>
      simp [withInterval, withIntervals, Interval.format, Bound.resolve, hs, ht, hstop,
        IntervalArg.firstBad?, bind, Except.bind, eq_comm]
    | some b =>
      simp [withInterval, withIntervals, Interval.format, Bound.resolve, hs, ht,
        IntervalArg.firstBad?, bind, Except.bind, pure, Except.pure]

/-- A query can be written if its filter is canonical and each of its tests has a value. -/
theorem Query.exists_toJson {q : Query}
    (h : ∀ f, q.filter = some f → f.Canonical ∧ ∀ p ∈ f.predicates, p.value.isSome) :
    ∃ v, q.toJson = .ok v := by
  cases hf : q.filter with
  | none => exact ⟨_, toJson_of_filter_none hf⟩
  | some f =>
    obtain ⟨hcanonical, hbound⟩ := h f hf
    obtain ⟨w, hw⟩ := hcanonical.writes.ok_iff.mpr hbound
    rw [toJson_of_filter_some hf, hw]
    exact ⟨_, rfl⟩

namespace FilterArg

theorem canonical_expression {a : FilterArg} (h : a.values ≠ []) : a.expression.Canonical :=
  Predicate.canonical_of_isIn ((a.membership_eq_ok_iff _).mpr ⟨h, rfl⟩)

/-- A condition leaves no test without a value. -/
theorem bound_expression (a : FilterArg) : ∀ p ∈ a.expression.predicates, p.value.isSome :=
  Predicate.bound_oneOf _ _

end FilterArg

namespace QueryArgs

/-- Over a range only an end that is no moment can fail, and the first one does. -/
theorem addInterval_eq_error_iff (clock : Clock) {args : QueryArgs} (h : args.Accepted) (q : Query)
    (e : BuildError) :
    args.addInterval clock q = .error e ↔ ∃ range bad, args.interval = some range ∧
      range.firstBad? = some bad ∧ e = .interval range.start range.stop (.invalidInterval bad) := by
  unfold addInterval
  cases hrange : args.interval with
  | none => exact iff_of_false (by simp) fun ⟨_, _, hsome, _⟩ => nomatch hsome
  | some range =>
    have herror := q.withInterval_eq_error_iff clock (h.trimmed range hrange)
    show Except.mapError _ _ = _ ↔ _
    rw [Fallible.mapError_eq_error_iff]
    constructor
    · rintro ⟨e', he', he⟩
      obtain ⟨bad, hbad, hinvalid⟩ := (herror e').mp he'
      exact ⟨range, bad, rfl, hbad, by rw [he, hinvalid]⟩
    · rintro ⟨range', bad, hsome, hbad, he⟩
      cases hsome
      exact ⟨_, (herror _).mpr ⟨bad, hbad, rfl⟩, he⟩

/-! ## Queries -/

/-- Where conditions and granularity do not fail, building is adding the time range. -/
theorem build_of_filled (clock : Clock) {defaults : QueryDefaults} {args : QueryArgs}
    (hfilled : args.Filled) {g : Granularity}
    (hg : Granularity.ofText (args.granularity.getD defaults.granularity) defaults.timeZone =
      .ok g) :
    args.build clock defaults =
      (args.addInterval clock
        { args.start clock with filter := Filter.all? args.conditions }).map fun q =>
          let q := { q with granularity := g }
          if args.noCache then q.cached false else q := by
  have hconditions := (addConditions_eq_ok_iff args (filter_start clock args) _).mpr ⟨hfilled, rfl⟩
  unfold build
  rw [hconditions]
  show (args.addInterval clock _ >>= _) = _
  cases args.addInterval clock _ with
  | error e => rfl
  | ok q =>
    show ((args.addGranularity defaults q) >>= _) = _
    unfold addGranularity Query.withGranularity
    rw [hg]
    rfl

/-- Conditions with values are canonical filters, and each of their tests has a value. -/
theorem conditions_writable {args : QueryArgs} (h : args.Filled) :
    ∀ f ∈ args.conditions, f.Canonical ∧ ∀ p ∈ f.predicates, p.value.isSome := by
  unfold conditions
  rw [List.forall_mem_append, List.forall_mem_map, List.forall_mem_map]
  constructor
  · intro a ha
    exact ⟨a.canonical_expression (h.1 a ha), a.bound_expression⟩
  · intro a ha
    have hpredicates : a.expression.not.predicates = a.expression.predicates :=
      Filter.predicates_not fun hop =>
        absurd hop (Predicate.connective?_oneOf _ _ (by decide))
    exact ⟨(a.canonical_expression (h.2 a ha)).not, by rw [hpredicates]; exact a.bound_expression⟩

/-- The filter of conditions with values can be written. -/
theorem filter_writable {args : QueryArgs} (h : args.Filled) {f : Filter}
    (hf : Filter.all? args.conditions = some f) :
    f.Canonical ∧ ∀ p ∈ f.predicates, p.value.isSome := by
  have hall := conditions_writable h
  refine ⟨Filter.Canonical.all? (fun g hg => (hall g hg).1) hf, ?_⟩
  rw [Filter.predicates_all? hf]
  intro p hp
  obtain ⟨g, hg, hpg⟩ := List.mem_flatMap.mp hp
  exact (hall g hg).2 p hpg

/-- A query that is built can be written, and every time zone in its document is the one that the
defaults resolve to. -/
theorem toJson_of_build {clock : Clock} {defaults : QueryDefaults} {args : QueryArgs} {q : Query}
    (h : args.build clock defaults = .ok q) :
    ∃ v, q.toJson = .ok v ∧ ∀ w ∈ v.under "timeZone",
      ∃ zone, TimeZone.resolve defaults.timeZone = .ok zone ∧ w = .string zone := by
  obtain ⟨hfilled, intervals, g, useCache, hg, hq⟩ := of_build_eq_ok h
  have hfilter : ∀ f, q.filter = some f → f.Canonical ∧ ∀ p ∈ f.predicates, p.value.isSome := by
    intro f hf
    rw [hq] at hf
    exact filter_writable hfilled hf
  have hpaging : q.paging = none := by rw [hq]; exact paging_start clock args
  have hgranularity : q.granularity = g := by rw [hq]
  obtain ⟨v, hv⟩ := Query.exists_toJson hfilter
  refine ⟨v, hv, fun w hw => ?_⟩
  rw [Query.under_zone_of_toJson hpaging (fun f hf => (hfilter f hf).1) hv, hgranularity] at hw
  obtain ⟨zone, hzone, hw⟩ := List.mem_map.mp hw
  exact ⟨zone, Granularity.resolve_of_ofText hg (Option.mem_toList.mp hzone), hw.symm⟩

/-- **Only the time range can still go wrong.**  Let a command line be accepted that asks for a
query, and let a configuration be loaded.  Building the query fails iff a time range is given and one
of its ends is no moment; the error names the first such end as it was given.  Conditions can always
be added, and so can a granularity, whatever its text.  A query that is built can be written, and
every time zone in its document is a name of the list, and not `CEST`. -/
theorem build_of_accepted {env : Environment} {arguments : List String} {line : CommandLine}
    {args : QueryArgs} {fs : FileSystem} {home : Option String} {overrides : Overrides}
    {paths : ConfigPaths} {c : Config} (hline : CommandLine.parse env arguments = .ok line)
    (hquery : line.command = .query args)
    (hconfig : (Config.load fs home overrides paths).config = .ok c) (clock : Clock) :
    ((∃ e, args.build clock c.defaults = .error e) ↔
      ∃ range, args.interval = some range ∧
        (Moment.ofText? range.start = none ∨ Moment.ofText? range.stop = none)) ∧
    (∀ e, args.build clock c.defaults = .error e ↔
      ∃ range bad, args.interval = some range ∧ range.firstBad? = some bad ∧
        e = .interval range.start range.stop (.invalidInterval bad)) ∧
    (∃ q, args.addConditions (args.start clock) = .ok q) ∧
    (∀ granularity q, ∃ q', { args with granularity }.addGranularity c.defaults q = .ok q') ∧
    ∀ q, args.build clock c.defaults = .ok q →
      ∃ v, q.toJson = .ok v ∧
        ∀ w ∈ v.under "timeZone", ∃ zone ∈ TimeZone.names, zone ≠ "CEST" ∧ w = .string zone := by
  have haccepted := CommandLine.accepted_of_parse hline hquery
  have hfilled := haccepted.filled
  obtain ⟨zone, hzone⟩ := Config.resolve_of_load hconfig
  have hgranularity := Granularity.exists_ofText hzone
  -- With the conditions filled and the zone resolved, only the range is left to fail.
  have herror : ∀ e, args.build clock c.defaults = .error e ↔
      ∃ range bad, args.interval = some range ∧ range.firstBad? = some bad ∧
        e = .interval range.start range.stop (.invalidInterval bad) := by
    intro e
    obtain ⟨g, hg⟩ := hgranularity (args.granularity.getD c.defaults.granularity)
    rw [build_of_filled clock hfilled hg, Fallible.map_eq_error_iff,
      addInterval_eq_error_iff clock haccepted]
  refine ⟨?_, herror, ?_, ?_, ?_⟩
  · constructor
    · rintro ⟨e, he⟩
      obtain ⟨range, bad, hrange, hbad, _⟩ := (herror e).mp he
      exact ⟨range, hrange, range.exists_firstBad?_iff.mp ⟨bad, hbad⟩⟩
    · rintro ⟨range, hrange, hends⟩
      obtain ⟨bad, hbad⟩ := range.exists_firstBad?_iff.mpr hends
      exact ⟨_, (herror _).mpr ⟨range, bad, hrange, hbad, rfl⟩⟩
  · exact ⟨_, (addConditions_eq_ok_iff args (filter_start clock args) _).mpr ⟨hfilled, rfl⟩⟩
  · intro granularity q
    obtain ⟨g, hg⟩ := hgranularity (granularity.getD c.defaults.granularity)
    refine ⟨{ q with granularity := g }, ?_⟩
    unfold addGranularity Query.withGranularity
    rw [hg]
    rfl
  · intro q hbuild
    obtain ⟨v, hv, hzones⟩ := toJson_of_build hbuild
    refine ⟨v, hv, fun w hw => ?_⟩
    obtain ⟨zone, hresolve, hw⟩ := hzones w hw
    obtain ⟨hnames, hne⟩ := TimeZone.of_resolve_eq_ok hresolve
    exact ⟨zone, hnames, hne, hw⟩

/-- What is sold each day outside of two cities, over a range with one end that is no moment. -/
def outside : QueryArgs where
  source := "shop/orders"
  exclude := [⟨"city", ["Basel", "Bern"]⟩]
  interval := some ⟨"2013-04-04", "soon"⟩
  granularity := some "day"

/-- The configuration of a user who names the time zone `CEST` and has no files. -/
def cestConfig : Config := ⟨Config.defaultUrl, Config.defaultTimeoutSecs, ⟨"all", some "CEST"⟩⟩

theorem cestConfig_loaded :
    (Config.load (fun _ => .missing) (some "/home") { timeZone := some "CEST" }
      (.standard (some "/home"))).config = .ok cestConfig := by
  have hname : TimeZone.databaseName ((some "CEST").getD TimeZone.standard) = "Europe/Berlin" := by
    decide
  have hmem : "Europe/Berlin" ∈ TimeZone.names := by
    have heurope : "Europe/Berlin" ∈ TimeZone.europe := by decide
    simp only [TimeZone.names, List.mem_append, heurope, true_or, or_true]
  have hzone : TimeZone.resolve (some "CEST") = .ok "Europe/Berlin" := by
    simp only [TimeZone.resolve, hname, hmem, if_true]
  have hload : (Config.load (fun _ => .missing) (some "/home") { timeZone := some "CEST" }
      (.standard (some "/home"))).config =
      Config.check (Config.merge { timeZone := some "CEST" } {} {}) := by
    simp [Config.load, Config.readProfile, Config.readOverlay, Config.readIfThere,
      ConfigPaths.standard, FileEntry.isThere]
  rw [hload, Config.check_eq_ok_iff]
  exact ⟨by decide, by decide, by decide, ⟨_, hzone⟩, rfl⟩

/-- The line is accepted and the query refused for its end; without a range it is built. -/
theorem outside_refused :
    CommandLine.parse .empty ["query", "shop/orders", "--exclude", "city=Basel, Bern",
      "--interval", " 2013-04-04 / soon", "--granularity=day"] = .ok ⟨{}, .query outside⟩ ∧
    CommandLine.parse .empty ["query", "shop/orders", "--exclude", "city=Basel, Bern",
      "--granularity=day"] = .ok ⟨{}, .query { outside with interval := none }⟩ ∧
    (Config.load (fun _ => .missing) (some "/home") { timeZone := some "CEST" }
      (.standard (some "/home"))).config = .ok cestConfig ∧
    outside.build (.ofSeconds 0) cestConfig.defaults =
      .error (.interval "2013-04-04" "soon" (.invalidInterval "soon")) ∧
    ∃ q v, { outside with interval := none }.build (.ofSeconds 0) cestConfig.defaults = .ok q ∧
      q.toJson = .ok v := by
  have hline : CommandLine.parse .empty ["query", "shop/orders", "--exclude", "city=Basel, Bern",
      "--interval", " 2013-04-04 / soon", "--granularity=day"] = .ok ⟨{}, .query outside⟩ := by
    decide +kernel
  have hopen : CommandLine.parse .empty ["query", "shop/orders", "--exclude", "city=Basel, Bern",
      "--granularity=day"] = .ok ⟨{}, .query { outside with interval := none }⟩ := by
    decide +kernel
  have hbad : IntervalArg.firstBad? ⟨"2013-04-04", "soon"⟩ = some "soon" := by decide +kernel
  obtain ⟨_, herror, _⟩ := build_of_accepted hline rfl cestConfig_loaded (.ofSeconds 0)
  obtain ⟨hfails, _, _, _, hwritten⟩ :=
    build_of_accepted hopen rfl cestConfig_loaded (.ofSeconds 0)
  refine ⟨hline, hopen, cestConfig_loaded, (herror _).mpr ⟨_, _, rfl, hbad, rfl⟩, ?_⟩
  cases hbuild : { outside with interval := none }.build (.ofSeconds 0) cestConfig.defaults with
  | error e =>
    obtain ⟨_, hrange, _⟩ := hfails.mp ⟨e, hbuild⟩
    exact nomatch hrange
  | ok q =>
    obtain ⟨v, hv, _⟩ := hwritten q hbuild
    exact ⟨q, v, rfl, hv⟩

end QueryArgs
end BrokerQuery
