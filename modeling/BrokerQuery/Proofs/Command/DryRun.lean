import BrokerQuery.Proofs.Command.Effects
import BrokerQuery.Proofs.Json.RoundTrip
/-
  A dry run shows what would be sent.

  The dry run writes the document of the query with indentation, the real one sends it without any
  space.  Both texts are read as the document, since everything in it is a text or a truth value and
  it does not nest deep (`QueryArgs.readable_of_build`).

  With a time range of its own a command line asks for one query, whatever the clock says
  (`QueryArgs.build_of_clock`).  So the two runs build the same query, at whatever times they run, or
  neither of them builds one; the other failures of the real run have to do with the broker alone.
-/

namespace BrokerQuery

open Json (Readable)

/-! ## Documents that are read back -/

theorem Json.readable_ofStrings (room : Nat) (ss : List String) :
    Readable (room + 1) (.ofStrings ss) :=
  .array (List.forall_mem_map.mpr fun s _ => .string s)

/-- An object is read back if what is in its slots is. -/
theorem Json.readable_present {room : Nat} {slots : List (String × Option Json)}
    (hnames : (slots.map Prod.fst).Nodup)
    (h : ∀ slot ∈ slots, ∀ v ∈ slot.2, Readable room v) :
    Readable (room + 1) (.object (present slots)) := by
  refine .object ((names_present_sublist slots).nodup hnames) fun field hfield => ?_
  obtain ⟨slot, hslot, hvalue⟩ := List.mem_filterMap.mp hfield
  obtain ⟨v, hv, rfl⟩ := Option.map_eq_some_iff.mp hvalue
  exact h slot hslot v hv

theorem Json.readable_none (room : Nat) : ∀ v ∈ (none : Option Json), Readable room v :=
  fun _ hv => absurd hv (Option.not_mem_none _)

theorem Json.readable_map {room : Nat} {write : α → Json} (h : ∀ a, Readable room (write a))
    (a? : Option α) : ∀ v ∈ a?.map write, Readable room v := by
  intro v hv
  obtain ⟨a, _, rfl⟩ := Option.map_eq_some_iff.mp hv
  exact h a

/-- The filter is written with at most `room` arrays and objects inside each other. -/
inductive Filter.Fits : Filter → Nat → Prop
  | test {p : Predicate} {room : Nat} : Fits (.test p) (room + 1)
  | negation {operand : Filter} {room : Nat} (h : Fits operand room) :
      Fits (.node .not [operand]) (room + 1)
  | junction {op : Connective} {children : List Filter} {room : Nat} (hop : op ≠ .not)
      (h : ∀ c ∈ children, Fits c room) : Fits (.node op children) (room + 2)

/-- A filter that fits is written as a value that is read back. -/
theorem Filter.readable_of_toJson {f : Filter} (hf : f.Canonical) {room : Nat} (hfits : f.Fits room)
    {v : Json} (h : f.toJson = .ok v) : Readable room v := by
  -- Said for every room, since the children of a node have less of it than the node.
  have hwrites : Writes f.predicates (fun v => ∀ room, f.Fits room → Readable room v) f.toJson := by
    refine Canonical.writes_of (fun f v => ∀ room, f.Fits room → Readable room v) ?_ ?_ ?_ hf
    · intro dimension value room hfits
      cases hfits
      exact .object (by simp) (by simp [Readable.string])
    · intro operand v hv room hfits
      cases hfits with
      | negation h => exact .object (by simp) (by simp [Readable.string, hv _ h])
      | junction hop => exact absurd rfl hop
    · intro op children vs hop hvs room hfits
      cases hfits with
      | negation => exact absurd rfl hop
      | @junction _ _ room _ h =>
        have hall : ∀ v ∈ vs, Readable room v := by
          clear hop
          induction hvs with
          | nil => exact fun v hv => absurd hv List.not_mem_nil
          | @cons c v children vs hv _ ih =>
            have hrest := ih fun c hc => h c (List.mem_cons_of_mem _ hc)
            exact List.forall_mem_cons.mpr ⟨hv room (h c List.mem_cons_self), hrest⟩
        exact .object (by simp) (by simp [Readable.string, Readable.array hall])
  exact hwrites.means h room hfits

/-- A condition nests three levels at most. -/
theorem FilterArg.fits_expression (a : FilterArg) (room : Nat) :
    a.expression.Fits (room + 3) := by
  rcases (Predicate.on a.dimension).oneOf_eq a.values with ⟨value, _, h⟩ | h
  · rw [expression, h]
    exact .test
  · rw [expression, h]
    exact .junction (by decide) (List.forall_mem_map.mpr fun value _ => .test)

namespace QueryArgs

/-- An excluded condition nests one level more. -/
theorem fits_conditions (args : QueryArgs) (room : Nat) :
    ∀ f ∈ args.conditions, f.Fits (room + 4) := by
  rw [conditions_eq, List.forall_mem_append, List.forall_mem_map, List.forall_mem_map]
  refine ⟨fun a _ => a.fits_expression (room + 1), fun f hf => ?_⟩
  obtain ⟨a, _, rfl⟩ := List.mem_map.mp hf
  exact .negation (a.fits_expression room)

/-- The filter of a command line is the only condition, or a conjunction of several. -/
theorem fits_filter {args : QueryArgs} {f : Filter} (h : Filter.all? args.conditions = some f)
    (room : Nat) : f.Fits (room + 6) := by
  match hconditions : args.conditions with
  | [] =>
    rw [hconditions] at h
    exact nomatch h
  | [condition] =>
    have hfits := args.fits_conditions (room + 2) condition (hconditions ▸ List.mem_cons_self)
    rw [hconditions] at h
    rwa [← Option.some.inj h]
  | first :: second :: rest =>
    have hmany : 2 ≤ args.conditions.length := by
      rw [hconditions, List.length_cons, List.length_cons]
      omega
    rw [Filter.all?_flat args.conditions_flat hmany] at h
    rw [← Option.some.inj h]
    exact .junction (by decide) (args.fits_conditions room)

end QueryArgs

/-- A granularity that a text gives is written as a text, or as an object of texts. -/
theorem Granularity.readable_of_ofText {s : String} {tz : Option String} {g : Granularity}
    (h : ofText s tz = .ok g) (room : Nat) : Readable (room + 1) g.toJson := by
  unfold ofText at h
  split at h
  next name _ =>
    rw [← Except.ok.inj h]
    exact .string name.name
  next =>
    obtain ⟨zone, _, rfl⟩ := Fallible.of_map_eq_ok h
    exact .object (by simp) (by simp [Readable.string])

theorem Aggregation.readable_toJson (a : Aggregation) (room : Nat) :
    Readable (room + 1) a.toJson :=
  .object (by simp) (by simp [Readable.string])

namespace QueryArgs

/-- A command line sets nothing of a query that has numbers in it. -/
theorem start_numberless (clock : Clock) (args : QueryArgs) :
    (args.start clock).threshold = none ∧ (args.start clock).paging = none ∧
      (args.start clock).postAggregations = none ∧ (args.start clock).having = none ∧
      (args.start clock).limitSpec = none :=
  ⟨start_frame Query.threshold (fun _ _ => rfl) (fun _ _ _ => rfl) clock args,
    paging_start clock args,
    start_frame Query.postAggregations (fun _ _ => rfl) (fun _ _ _ => rfl) clock args,
    start_frame Query.having (fun _ _ => rfl) (fun _ _ _ => rfl) clock args,
    start_frame Query.limitSpec (fun _ _ => rfl) (fun _ _ _ => rfl) clock args⟩

/-- The document of a query that was built is read back. -/
theorem readable_of_build {clock : Clock} {defaults : QueryDefaults} {args : QueryArgs} {q : Query}
    (h : args.build clock defaults = .ok q) {v : Json} (hv : q.toJson = .ok v) :
    Readable Json.depth v := by
  obtain ⟨hfilled, intervals, g, useCache, hg, hq⟩ := of_build_eq_ok h
  obtain ⟨filter?, hwritten, rfl⟩ := Query.slots_of_toJson hv
  obtain ⟨hthreshold, hpaging, hpost, hhaving, hlimit⟩ := args.start_numberless clock
  have hfilter : ∀ w ∈ filter?, Readable 126 w := by
    cases hf : q.filter with
    | none =>
      rw [hf] at hwritten
      rw [← Except.ok.inj hwritten]
      exact Json.readable_none 126
    | some f =>
      rw [hf] at hwritten
      obtain ⟨w, hw, rfl⟩ := Fallible.of_map_eq_ok hwritten
      have hall : Filter.all? args.conditions = some f := by rw [← hf, hq]
      rintro _ ⟨⟩
      exact Filter.readable_of_toJson (filter_writable hfilled hall).1 (fits_filter hall 120) hw
  refine Json.readable_present (q.nodup_slots filter?) ?_
  rw [hq]
  simp only [Query.slots, List.forall_mem_cons, hthreshold, hpaging, hpost, hhaving, hlimit]
  -- A query that was built has no numbers in it, and its other slots are of few kinds.
  have htext (a? : Option String) : ∀ w ∈ a?.map Json.string, Readable 126 w :=
    Json.readable_map .string a?
  have hstrings (a? : Option (List String)) : ∀ w ∈ a?.map Json.ofStrings, Readable 126 w :=
    Json.readable_map (Json.readable_ofStrings 125) a?
  have hnone := Json.readable_none 126
  refine ⟨?_, ?_, ?_, Json.readable_map (fun _ => .string _) _, hstrings _, htext _, htext _, hnone,
    hstrings _, hnone, Json.readable_map ?_ _, hnone, hnone, hnone, Json.readable_map ?_ _, hfilter,
    List.forall_mem_nil _⟩
  · rintro _ ⟨⟩
    exact .string _
  · rintro _ ⟨⟩
    exact Granularity.readable_of_ofText hg 125
  · rintro _ ⟨⟩
    exact Json.readable_ofStrings 125 _
  · intro aggregations
    exact .array (List.forall_mem_map.mpr fun a _ => a.readable_toJson 124)
  · intro b
    exact .object (by simp) (by simp [Readable.bool])

end QueryArgs

/-! ## The same query at another time -/

/-- The query with these time ranges. -/
def Query.over (q : Query) (intervals : List String) : Query := { q with intervals }

namespace QueryArgs

/-- Grouping and aggregations are the same whatever the time ranges are. -/
theorem unlessEmpty_over {setter : Query → List String → Query}
    (h : ∀ q intervals names, setter (q.over intervals) names = (setter q names).over intervals)
    (names : List String) (q : Query) (intervals : List String) :
    unlessEmpty names setter (q.over intervals) = (unlessEmpty names setter q).over intervals := by
  unfold unlessEmpty
  split
  · rfl
  · exact h q intervals names

/-- Of a query at its start, only the time range has to do with the time. -/
theorem start_clock (clock clock' : Clock) (args : QueryArgs) :
    args.start clock = (args.start clock').over [Interval.between clock.today clock.now] := by
  have hnew : Query.new clock args.source =
      (Query.new clock' args.source).over [Interval.between clock.today clock.now] := rfl
  unfold start
  rw [hnew, unlessEmpty_over fun _ _ _ => rfl, unlessEmpty_over fun _ _ _ => rfl,
    unlessEmpty_over fun _ _ _ => rfl, unlessEmpty_over fun _ _ _ => rfl]

/-- A command line with a time range of its own asks for the same query at any time. -/
theorem build_of_clock {clock : Clock} {defaults : QueryDefaults} {args : QueryArgs} {q : Query}
    {range : IntervalArg} (hrange : args.interval = some range)
    (h : args.build clock defaults = .ok q) (clock' : Clock) :
    args.build clock' defaults = .ok q := by
  obtain ⟨hfilled, _, g, _, hg, _⟩ := of_build_eq_ok h
  have hinterval : args.addInterval clock { args.start clock with
        filter := Filter.all? args.conditions } =
      args.addInterval clock' { args.start clock' with
        filter := Filter.all? args.conditions } := by
    unfold addInterval
    rw [hrange, start_clock clock clock']
    -- Both ends are texts, which are read without the clock.
    rfl
  rw [build_of_filled clock' hfilled hg, ← hinterval, ← build_of_filled clock hfilled hg, h]

end QueryArgs

/-! ## Dry runs and real ones -/

namespace Command

/-- **A dry run is faithful.**  Take a command line with a time range of its own, carried out once
as a dry run and once for real, at any times and against any broker.  If the dry run succeeds, then
what it prints is read as the value that the body of the first request of the real run is read as,
if there is a request; and there is one iff the dry run succeeds, as long as the URL of the broker
will do.  If the dry run fails, the real run makes no request and fails as well. -/
theorem dryRun_faithful {args : QueryArgs} {range : IntervalArg}
    (hrange : args.interval = some range) (config : Config) (clock clock' : Clock)
    (outcomes outcomes' : Nat → Outcome) :
    let dry := ((query { args with dryRun := true }).execute clock config).run outcomes
    let real := ((query { args with dryRun := false }).execute clock' config).run outcomes'
    (dry.value = .ok () → ∃ document, Json.ofText? dry.printed = some document ∧
      ∀ first rest, real.requests = first :: rest →
        first.method = .post ∧ Json.ofText? first.body = some document) ∧
    (∀ client, Client.ofUrl config.brokerUrl config.timeoutSecs = .ok client →
      (real.requests ≠ [] ↔ dry.value = .ok ())) ∧
    ∀ e, dry.value = .error e → real.requests = [] ∧ ∃ e', real.value = .error e' := by
  intro dry real
  have hdry : dry = (dryRun clock config.defaults { args with dryRun := true }).run outcomes :=
    congrArg (Session.run · outcomes) (execute_of_dryRun clock config rfl)
  rcases run_dryRun clock config.defaults { args with dryRun := true } outcomes with
    ⟨e, hbuild, hrun⟩ | ⟨q, v, hbuild, hv, hrun⟩
  · -- There is no query at either time.
    have hfails : ∃ e', (query { args with dryRun := false }).execute clock' config = fail e' := by
      cases hother : { args with dryRun := false }.build clock' config.defaults with
      | error e' => exact execute_of_not_build rfl hother
      | ok q => exact nomatch (QueryArgs.build_of_clock hrange hother clock).symm.trans hbuild
    obtain ⟨e', hfail⟩ := hfails
    have hreal : real = ⟨.error e', [], [], ""⟩ := congrArg (Session.run · outcomes') hfail
    rw [hdry, hrun, hreal]
    exact ⟨nofun, fun _ _ => iff_of_false (fun h => h rfl) nofun, fun _ _ => ⟨rfl, e', rfl⟩⟩
  · -- The range is given, so no clock matters and both runs are about one query.
    have hbuild' : { args with dryRun := false }.build clock' config.defaults = .ok q :=
      QueryArgs.build_of_clock hrange hbuild clock'
    have hreadable := QueryArgs.readable_of_build hbuild hv
    have hprinted : Json.ofText? (printedLines [v.pretty]) = some v := by
      have hline : printedLines [v.pretty] = v.pretty ++ "\n" := String.append_empty
      rw [hline, hreadable.ofText?_pretty_line]
    have hfirst : ∀ client, Client.ofUrl config.brokerUrl config.timeoutSecs = .ok client →
        ∃ rest, real.requests = client.posting v :: rest := by
      intro client hclient
      -- Sent once or twice, the document of the query itself goes first.
      obtain ⟨v', hv', hrequests⟩ := requests_of_build rfl hclient hbuild' outcomes'
      rw [← Except.ok.inj (hv.symm.trans hv')] at hrequests
      rcases hrequests with hrequests | ⟨_, w, hrequests⟩
      · exact ⟨[], hrequests⟩
      · exact ⟨[client.posting w], hrequests⟩
    rw [hdry, hrun]
    refine ⟨fun _ => ⟨v, hprinted, fun first rest hsent => ?_⟩, fun client hclient => ?_, nofun⟩
    · cases hclient : Client.ofUrl config.brokerUrl config.timeoutSecs with
      | error e =>
        have hnone : real.requests = [] := requests_of_not_client _ clock' hclient outcomes'
        exact nomatch hnone.symm.trans hsent
      | ok client =>
        obtain ⟨rest', hrequests⟩ := hfirst client hclient
        obtain ⟨rfl, _⟩ := List.cons.inj (hrequests.symm.trans hsent)
        exact ⟨rfl, hreadable.ofText?_compact⟩
    · obtain ⟨rest, hrequests⟩ := hfirst client hclient
      exact iff_of_true (by rw [hrequests]; exact List.cons_ne_nil _ _) rfl

/-- All orders of a day in two cities. -/
def ordersOfDay : QueryArgs where
  source := "shop/orders"
  filter := [⟨"city", ["Basel", "Bern"]⟩]
  interval := some ⟨"2013-04-04", "2013-04-05"⟩

/-- A dry run, and a real one on another day against a broker that complains of its cache. -/
theorem ordersOfDay_shown :
    ∃ document first rest,
      Json.ofText? (((query { ordersOfDay with dryRun := true }).execute (.ofSeconds 0)
        plainConfig).run friendlyBroker).printed = some document ∧
      (((query { ordersOfDay with dryRun := false }).execute (.ofSeconds 86400)
        plainConfig).run Client.staleBroker).requests = first :: rest ∧
      first.method = .post ∧ Json.ofText? first.body = some document := by
  have hclient : Client.ofUrl plainConfig.brokerUrl plainConfig.timeoutSecs =
      .ok Client.druidClient := by decide +kernel
  have hsucceeds : (((query { ordersOfDay with dryRun := true }).execute (.ofSeconds 0)
      plainConfig).run friendlyBroker).value = .ok () := by decide +kernel
  have hrange : ordersOfDay.interval = some ⟨"2013-04-04", "2013-04-05"⟩ := rfl
  obtain ⟨hshown, hsent, _⟩ := dryRun_faithful hrange plainConfig (.ofSeconds 0)
    (.ofSeconds 86400) friendlyBroker Client.staleBroker
  obtain ⟨document, hprinted, hbody⟩ := hshown hsucceeds
  obtain ⟨first, rest, hrequests⟩ := List.exists_cons_of_ne_nil ((hsent _ hclient).mpr hsucceeds)
  exact ⟨document, first, rest, hprinted, hrequests, hbody first rest hrequests⟩

end Command
end BrokerQuery
