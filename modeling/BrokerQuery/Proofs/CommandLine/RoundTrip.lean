import BrokerQuery.Proofs.CommandLine.Occurrences
/-
  Command lines written as arguments and read back.

  A command line can be written in many orders.  It is `WrittenAs` two lists of options, in front of
  the command's name and after it, if these have the texts of each option in the order of the command
  line and nothing else.  The order of different options is free, and so is the place of those that
  every level has.

    1. A level takes the options that are written on it (`takes_top`, `takes_below`), so the reader
       gives two drafts that hold them.
    2. Each value of the command line is in one of the two drafts (`values_append`).  Those that every
       level has come together when the drafts are joined (`overrides_or`), and all others are on the
       level of the command (`args_eq`).
    3. The data source stands last (`exists_trailer`), and the environment fills what neither draft
       has (`parse_eq_within`).
-/

namespace BrokerQuery

open Occurrence (textsOf)

/-! ## Command lines -/

/-- What is taken everywhere is taken at every level. -/
theorem Setting.everywhere_subset_settings (level : Level) :
    Setting.everywhere ⊆ level.settings := by
  cases level <;> decide

theorem Setting.mem_settings_query (s : Setting) : s ∈ Level.query.settings := by
  cases s <;> decide

namespace Command

/-- The level that the options of a command are written at. -/
def level : Command → Level
  | .dataSources => .dataSources
  | .describe _ => .describe
  | .query _ => .query

/-- The word for a command. -/
def name : Command → String
  | .dataSources => "datasources"
  | .describe _ => "describe"
  | .query _ => "query"

/-- What a query is built from; the other commands have no options of their own. -/
def args : Command → QueryArgs
  | .query args => args
  | _ => { source := "" }

/-- The data source of a command. -/
def source? : Command → Option String
  | .dataSources => none
  | .describe source => some source
  | .query args => some args.source

/-- The last arguments: the data source, which may look like an option. -/
def trailer (c : Command) : List String := c.source?.toList.flatMap fun source => ["--", source]

/-- The command with the granularity of the environment, unless it has one. -/
def within (env : Environment) : Command → Command
  | .query args => .query (args.within env)
  | c => c

variable (c : Command)

theorem source?_ne_none (h : c.level.hasSource = true) : c.source? ≠ none := by
  cases c with
  | dataSources => exact nomatch h
  | describe source | query args => exact Option.some_ne_none _

theorem ofCommand?_name : Level.ofCommand? c.name = some c.level := by
  cases c <;> rfl

/-- The level of a command has the settings that the command has values of. -/
theorem mem_settings_of_mem {o : Overrides} {s : Setting} {v : s.Value}
    (h : v ∈ s.valuesIn o c.args) : s ∈ c.level.settings := by
  cases c with
  | query args => exact s.mem_settings_query
  | dataSources | describe source =>
    refine Setting.everywhere_subset_settings _ ?_
    cases s with
    | brokerUrl | timeoutSecs | config | timeZone => decide
    | groupBy | longSum | doubleSum | count | filter | exclude | interval | granularity =>
      exact absurd h List.not_mem_nil

/-- A switch that is on can be written at the level of its command. -/
theorem mem_switches_of_isOn {w : Switch} (h : c.args.isOn w = true) :
    w ∈ c.level.switches ∧ w.Lasts := by
  cases c with
  | query args =>
    have hnoCache : .noCache ∈ Level.query.switches := by decide
    have hdryRun : .dryRun ∈ Level.query.switches := by decide
    cases w with
    | noCache => exact ⟨hnoCache, .inl rfl⟩
    | dryRun => exact ⟨hdryRun, .inr rfl⟩
    | help | version => exact nomatch h
  | dataSources | describe source => cases w <;> exact nomatch h

/-- The last arguments give the data source and change nothing else. -/
theorem exists_trailer {d : Draft} {os : List Occurrence} (h : d.Holds os) :
    ∃ d', c.trailer.foldlM (Draft.step c.level) d = .ok d' ∧ d'.overrides = d.overrides ∧
      d'.args = d.args ∧ d'.source = c.source? ∧ d'.pending = none := by
  have hlast (level : Level) (htop : level ≠ .top) (hsource : level.hasSource = true)
      (source : String) : ["--", source].foldlM (Draft.step level) d =
        .ok { d with trailing := true, source := some source } := by
    have hdashes : d.step level "--" = .ok { d with trailing := true } := by
      rw [Draft.step, h.trailing]; rfl
    have hplain : { d with trailing := true }.step level source =
        .ok { d with trailing := true, source := some source } := by
      have hsettle : { d with trailing := true }.settle = .ok { d with trailing := true } :=
        Draft.settle_of_pending h.pending
      rw [Draft.step, if_pos rfl, Draft.plain, if_neg htop, if_pos ⟨hsource, h.source⟩, hsettle]
      rfl
    rw [List.foldlM_cons, hdashes]
    show ({ d with trailing := true }.step level source >>= pure) = _
    rw [hplain]; rfl
  cases c with
  | dataSources => exact ⟨d, rfl, rfl, rfl, h.source, h.pending⟩
  | describe source => exact ⟨_, hlast .describe (by decide) rfl source, rfl, rfl, rfl, h.pending⟩
  | query args => exact ⟨_, hlast .query (by decide) rfl args.source, rfl, rfl, rfl, h.pending⟩

end Command

/-- What a query is built from, with another data source. -/
def QueryArgs.withSource (args : QueryArgs) (source : String) : QueryArgs :=
  { args with source := source }

/-- The values and the switches make up all but the data source. -/
theorem QueryArgs.eq_of_values {o o' : Overrides} {args args' : QueryArgs}
    (hvalues : ∀ s, s ∉ Setting.everywhere → s.valuesIn o args = s.valuesIn o' args')
    (hswitches : ∀ w, args.isOn w = args'.isOn w) (source : String) :
    args.withSource source = args'.withSource source := by
  have hoption {α : Type} {x y : Option α} (h : x.toList = y.toList) : x = y := by
    have hhead := congrArg List.head? h
    rwa [Option.head?_toList, Option.head?_toList] at hhead
  have hinterval := hoption (hvalues .interval (by decide))
  have hgranularity := hoption (hvalues .granularity (by decide))
  obtain ⟨_, groupBy, longSum, doubleSum, count, filter, exclude, _, _, noCache, dryRun⟩ := args
  obtain ⟨_, groupBy', longSum', doubleSum', count', filter', exclude', _, _, noCache', dryRun'⟩ :=
    args'
  cases hinterval
  cases hgranularity
  cases (hvalues .groupBy (by decide) : groupBy = groupBy')
  cases (hvalues .longSum (by decide) : longSum = longSum')
  cases (hvalues .doubleSum (by decide) : doubleSum = doubleSum')
  cases (hvalues .count (by decide) : count = count')
  cases (hvalues .filter (by decide) : filter = filter')
  cases (hvalues .exclude (by decide) : exclude = exclude')
  cases (hswitches .noCache : noCache = noCache')
  cases (hswitches .dryRun : dryRun = dryRun')
  rfl

namespace CommandLine

/-- The values of a setting on a command line. -/
def values (line : CommandLine) (s : Setting) : List s.Value :=
  s.valuesIn line.overrides line.command.args

/-- A command line whose values can all be written. -/
def Writable (line : CommandLine) : Prop := ∀ s, ∀ v ∈ line.values s, s.Writable v

/-- Two lists of options write a command line: together they have the text of each value, those of
one setting in their order, and each switch that is on once.  In front of the command are only
options that can be given everywhere. -/
structure WrittenAs (line : CommandLine) (top below : List Occurrence) : Prop where
  texts : ∀ s, textsOf s (top ++ below) = (line.values s).map s.write
  switches : ∀ w, (top ++ below).count (.switch w) = (line.command.args.isOn w).toNat
  everywhere : ∀ o ∈ top, ∃ s ∈ Setting.everywhere, ∃ text, o = .setting s text

/-- The arguments: options, the name of the command, more options, and the data source last. -/
def arguments (line : CommandLine) (top below : List Occurrence) : List String :=
  top.map Occurrence.argument ++
    line.command.name :: (below.map Occurrence.argument ++ line.command.trailer)

/-- The command line with what the environment sets and the command line does not. -/
def within (env : Environment) (line : CommandLine) : CommandLine where
  overrides := line.overrides.or (Overrides.ofEnvironment env)
  command := line.command.within env

/-- All values of a setting are read back. -/
theorem mapM_read_write {s : Setting} {vs : List s.Value} (h : ∀ v ∈ vs, s.Writable v) :
    (vs.map s.write).mapM s.read = .ok vs := by
  induction vs with
  | nil => rfl
  | cons v vs ih =>
    obtain ⟨hv, hvs⟩ := List.forall_mem_cons.mp h
    rw [List.map_cons, List.mapM_cons, s.read_write hv, ih hvs]
    rfl

namespace WrittenAs

variable {line : CommandLine} {top below : List Occurrence} (h : line.WrittenAs top below)
include h

/-- Every text that is written is that of a value. -/
theorem exists_value {s : Setting} {text : String} (hmem : .setting s text ∈ top ++ below) :
    ∃ v ∈ line.values s, s.write v = text := by
  have htext := Occurrence.mem_textsOf.mpr hmem
  rw [h.texts] at htext
  exact List.mem_map.mp htext

/-- The switches that are written are those that are on. -/
theorem isOn_iff (w : Switch) :
    line.command.args.isOn w = true ↔ .switch w ∈ top ++ below := by
  rw [← List.count_pos_iff, h.switches]
  cases line.command.args.isOn w <;> simp

/-- No switch is written in front of the command. -/
theorem not_mem_top (w : Switch) : .switch w ∉ top := by
  intro hmem
  obtain ⟨s, _, text, ho⟩ := h.everywhere _ hmem
  exact nomatch ho

theorem textsOf_top {s : Setting} (hs : s ∉ Setting.everywhere) : textsOf s top = [] := by
  refine Occurrence.textsOf_eq_nil fun text hmem => ?_
  obtain ⟨t, ht, text', ho⟩ := h.everywhere _ hmem
  cases ho
  exact hs ht

/-- A part of the options is taken by a level that has them. -/
theorem takes (hwritable : line.Writable) {level : Level} {os : List Occurrence}
    (hsub : os.Sublist (top ++ below))
    (hsettings : ∀ s text, .setting s text ∈ os → s ∈ level.settings)
    (hswitches : ∀ w, .switch w ∈ os → w ∈ level.switches) : level.Takes os where
  settings := hsettings
  readable := fun s text hmem => by
    obtain ⟨v, hv, rfl⟩ := h.exists_value (hsub.subset hmem)
    exact ⟨v, s.read_write (hwritable s v hv)⟩
  once := fun s hs => by
    have hle := (hsub.filterMap (Occurrence.textOf? s)).length_le
    have htexts : ((top ++ below).filterMap (Occurrence.textOf? s)).length ≤ 1 := by
      have hlength := congrArg List.length (h.texts s)
      rw [List.length_map] at hlength
      exact hlength.trans_le (Setting.length_valuesIn_le_one hs _ _)
    exact hle.trans htexts
  switches := fun w hmem =>
    ⟨hswitches w hmem,
      (line.command.mem_switches_of_isOn ((h.isOn_iff w).mpr (hsub.subset hmem))).2⟩
  switches_once := fun w => by
    have hle := hsub.count_le (.switch w)
    rw [h.switches] at hle
    exact hle.trans (Bool.toNat_le _)

/-- What is written in front of the command is taken there. -/
theorem takes_top (hwritable : line.Writable) : Level.top.Takes top := by
  refine h.takes hwritable (List.sublist_append_left top below) (fun s text hmem => ?_)
    fun w hmem => absurd hmem (h.not_mem_top w)
  obtain ⟨t, ht, text', ho⟩ := h.everywhere _ hmem
  cases ho
  exact Setting.everywhere_subset_settings .top ht

theorem takes_below (hwritable : line.Writable) : line.command.level.Takes below := by
  refine h.takes hwritable (List.sublist_append_right top below) (fun s text hmem => ?_)
    fun w hmem => ?_
  · obtain ⟨v, hv, _⟩ := h.exists_value (List.mem_append_right top hmem)
    exact line.command.mem_settings_of_mem hv
  · have hon := (h.isOn_iff w).mpr (List.mem_append_right top hmem)
    exact (line.command.mem_switches_of_isOn hon).1

variable {dTop dBelow : Draft} (htop : dTop.Holds top) (hbelow : dBelow.Holds below)
include htop hbelow

/-- Each value is in one of the two drafts. -/
theorem values_append (hwritable : line.Writable) (s : Setting) :
    dTop.values s ++ dBelow.values s = line.values s := by
  have hboth := Draft.mapM_read_append (htop.values s) (hbelow.values s)
  rw [← Occurrence.textsOf_append, h.texts, mapM_read_write (hwritable s)] at hboth
  exact (Except.ok.inj hboth).symm

/-- What a query alone has is all behind the command. -/
theorem args_eq (hwritable : line.Writable) (source : String) :
    dBelow.args.withSource source = line.command.args.withSource source := by
  have hvalues : ∀ s, s ∉ Setting.everywhere → dBelow.values s = line.values s := by
    intro s hs
    have hnil := htop.values s
    rw [h.textsOf_top hs] at hnil
    have happend := h.values_append htop hbelow hwritable s
    rw [← Except.ok.inj hnil] at happend
    exact happend
  have hswitches : ∀ w, dBelow.args.isOn w = line.command.args.isOn w := by
    intro w
    have hiff : .switch w ∈ top ++ below ↔ .switch w ∈ below := by
      rw [List.mem_append, or_iff_right (h.not_mem_top w)]
    rw [Bool.eq_iff_iff, h.isOn_iff, hiff, hbelow.switches]
  exact QueryArgs.eq_of_values hvalues hswitches source

/-- An override is in one of the drafts or in neither, and then it is that of the environment. -/
theorem overrides_or (hwritable : line.Writable) (e : Overrides) :
    dBelow.overrides.or (dTop.overrides.or e) = line.overrides.or e := by
  have hor {α : Type} {t b l : Option α} (hl : t.toList ++ b.toList = l.toList) (e : Option α) :
      b.or (t.or e) = l.or e := by
    cases t <;> cases b <;> cases l <;> simp_all
  have happend := h.values_append htop hbelow hwritable
  rw [Overrides.or, Overrides.or, Overrides.or, hor (happend .brokerUrl), hor (happend .timeoutSecs),
    hor (happend .config), hor (happend .timeZone)]

end WrittenAs

/-- Arguments after a command that are read give a draft, and the environment fills it. -/
theorem readCommand_eq {env : Environment} (henv : env.Readable) {level : Level}
    {args : List String} {d : Draft} (hrun : args.foldlM (Draft.step level) {} = .ok d)
    (hpending : d.pending = none) (hsource : level.hasSource = true → d.source ≠ none) :
    readCommand env level args = .ok (d, level.settings.foldl (Draft.within env) d) := by
  have hfound : ¬ (level.hasSource = true ∧
      (level.settings.foldl (Draft.within env) d).source = none) := by
    rintro ⟨hlevel, hnone⟩
    rw [Draft.source_foldl_within] at hnone
    exact hsource hlevel hnone
  rw [readCommand, hrun]
  show (d.settle >>= fun written => written.fill env level >>= fun filled => _) = _
  rw [Draft.settle_of_pending hpending]
  show (d.fill env level >>= fun filled => _) = _
  rw [Draft.fill_eq henv]
  exact if_neg hfound

/-- A draft with the source and the arguments of a command makes this command. -/
theorem commandOf_foldl_within (env : Environment) {c : Command} {d : Draft}
    (hsource : d.source = c.source?)
    (hargs : ∀ source, d.args.withSource source = c.args.withSource source) :
    commandOf c.level (c.level.settings.foldl (Draft.within env) d) = c.within env := by
  have hfilled : (c.level.settings.foldl (Draft.within env) d).source = c.source? := by
    rw [Draft.source_foldl_within, hsource]
  cases c with
  | dataSources => rfl
  | describe source => exact congrArg (fun s => Command.describe (s.getD "")) hfilled
  | query args =>
    calc commandOf .query (Level.query.settings.foldl (Draft.within env) d)
        = .query ((Level.query.settings.foldl (Draft.within env) d).args.withSource
            ((Level.query.settings.foldl (Draft.within env) d).source.getD "")) := rfl
      _ = .query ((d.args.within env).withSource args.source) := by
          rw [Draft.args_foldl_within_query]
          exact congrArg (fun s => Command.query ((d.args.within env).withSource (s.getD ""))) hfilled
      _ = .query ((d.args.withSource args.source).within env) := rfl
      _ = .query (args.within env) := by rw [hargs]; rfl

/-- A silent environment changes no command line. -/
theorem within_eq_of_silent {env : Environment} (h : env.Silent) (line : CommandLine) :
    line.within env = line := by
  have hoverrides : line.overrides.or (Overrides.ofEnvironment env) = line.overrides := by
    simp only [Overrides.or, Overrides.ofEnvironment, h.standIn_eq_none, Option.or_none]
  have hcommand : line.command.within env = line.command := by
    cases line.command with
    | dataSources | describe source => rfl
    | query args =>
      simp only [Command.within, QueryArgs.within, h.standIn_eq_none, Option.or_none]
  rw [within, hoverrides, hcommand]

/-- The arguments that write a command line are read as this command line, with the environment for
what is not written. -/
theorem parse_eq_within {env : Environment} (henv : env.Readable) {line : CommandLine}
    (hwritable : line.Writable) {top below : List Occurrence} (h : line.WrittenAs top below) :
    parse env (line.arguments top below) = .ok (line.within env) := by
  -- Two drafts: what stands in front of the command, and what stands behind it with the trailer.
  obtain ⟨dTop, hreadTop, hdTop⟩ := Draft.holds_empty.exists_readTop (h.takes_top hwritable)
    line.command.ofCommand?_name (below.map Occurrence.argument ++ line.command.trailer)
  obtain ⟨dBelow, hrun, hdBelow⟩ := Draft.holds_empty.exists_run (h.takes_below hwritable)
  obtain ⟨d, htrailer, hoverrides, hargs, hsource, hpending⟩ :=
    line.command.exists_trailer hdBelow
  have hall : (below.map Occurrence.argument ++ line.command.trailer).foldlM
      (Draft.step line.command.level) {} = .ok d := by
    rw [List.foldlM_append, hrun]
    exact htrailer
  have hread := readCommand_eq henv hall hpending fun hlevel => by
    rw [hsource]
    exact line.command.source?_ne_none hlevel
  have hcommand := commandOf_foldl_within env hsource fun source => by
    rw [hargs]
    exact h.args_eq hdTop hdBelow hwritable source
  -- The environment fills both of them, and counts for nothing where one of them has a value.
  have hlast : d.overrides.or (Level.top.settings.foldl (Draft.within env) dTop).overrides =
      line.overrides.or (Overrides.ofEnvironment env) := by
    rw [Draft.overrides_foldl_within, hoverrides]
    exact h.overrides_or hdTop hdBelow hwritable _
  rw [parse, arguments, hreadTop]
  show (readCommand env line.command.level _ >>= fun drafts => dTop.settle >>= fun top =>
    top.fill env .top >>= fun top => .ok (⟨_, _⟩ : CommandLine)) = _
  rw [hread, Draft.settle_of_pending hdTop.pending]
  show (dTop.fill env .top >>= fun top => .ok (⟨_, _⟩ : CommandLine)) = _
  rw [Draft.fill_eq henv]
  show Except.ok (⟨_, _⟩ : CommandLine) = _
  rw [hlast, hcommand]; rfl

/-- **Command lines are read back.**  Let options be written in any order that keeps those of one
setting in theirs, one argument each, those that every level has on either side of the command's name,
and the data source last.  If no variable of the environment stands in for an option, the command line
is read as it is.  If some do, with texts that their options read, what is written counts, and the
environment gives the rest. -/
theorem parse_arguments {line : CommandLine} (hwritable : line.Writable)
    {top below : List Occurrence} (h : line.WrittenAs top below) :
    (∀ env : Environment, env.Silent → parse env (line.arguments top below) = .ok line) ∧
    (∀ env : Environment, env.Readable →
      parse env (line.arguments top below) = .ok (line.within env)) := by
  refine ⟨fun env henv => ?_, fun env henv => parse_eq_within henv hwritable h⟩
  rw [parse_eq_within henv.readable hwritable h, within_eq_of_silent henv]

/-- A query whose texts look like options, lists and ranges, or are empty. -/
def lookalike : CommandLine where
  overrides :=
    { brokerUrl := some "http://broker:8082/?a=b", timeoutSecs := some 18446744073709551615,
      config := some "--" }
  command := .query
    { source := "--dry-run"
      groupBy := ["", "-b=x", ""]
      count := ["a,b"]
      filter := [⟨"-city", ["x=y", "--"]⟩, ⟨"a,b", ["c/d"]⟩]
      exclude := [⟨"-city", ["x=y", "--"]⟩]
      interval := some ⟨"-1", "a/b=c"⟩
      noCache := true }

/-- The options of `lookalike` in front of the command. -/
def lookalikeTop : List Occurrence :=
  [.setting .config "--", .setting .brokerUrl "http://broker:8082/?a=b"]

/-- The options of `lookalike` after the command. -/
def lookalikeBelow : List Occurrence :=
  [.setting .filter "-city=x=y,--", .setting .groupBy "", .setting .exclude "-city=x=y,--",
    .setting .groupBy "-b=x", .setting .timeoutSecs "18446744073709551615", .switch .noCache,
    .setting .interval "-1/a/b=c", .setting .filter "a,b=c/d", .setting .count "a,b",
    .setting .groupBy ""]

/-- The arguments that write `lookalike` in this order. -/
def lookalikeArguments : List String :=
  ["--config=--", "--broker-url=http://broker:8082/?a=b", "query", "--filter=-city=x=y,--",
    "--group-by=", "--exclude=-city=x=y,--", "--group-by=-b=x",
    "--timeout-secs=18446744073709551615", "--no-cache", "--interval=-1/a/b=c", "--filter=a,b=c/d",
    "--count=a,b", "--group-by=", "--", "--dry-run"]

/-- An environment with a URL and a granularity. -/
def dailyEnvironment : Environment :=
  .ofList [("DRUIDQ_GRANULARITY", "day"), ("DRUIDQ_BROKER_URL", "http://elsewhere/"), ("HOME", "/")]

/-- `lookalike` is read back; the environment gives its granularity and not its URL. -/
theorem lookalike_read_back :
    lookalike.Writable ∧ lookalike.WrittenAs lookalikeTop lookalikeBelow ∧
    lookalike.arguments lookalikeTop lookalikeBelow = lookalikeArguments ∧
    parse .empty lookalikeArguments = .ok lookalike ∧
    parse dailyEnvironment lookalikeArguments = .ok (lookalike.within dailyEnvironment) ∧
    (lookalike.within dailyEnvironment).overrides = lookalike.overrides ∧
    (lookalike.within dailyEnvironment).command.args.granularity = some "day" := by
  have hwritable : lookalike.Writable := by
    intro s
    cases s <;> decide
  have hwritten : lookalike.WrittenAs lookalikeTop lookalikeBelow := by
    refine ⟨fun s => ?_, fun w => ?_, fun o ho => ?_⟩
    · cases s <;> rfl
    · cases w <;> rfl
    · rcases List.mem_pair.mp ho with rfl | rfl
      · exact ⟨.config, by decide, _, rfl⟩
      · exact ⟨.brokerUrl, by decide, _, rfl⟩
  have hargs : lookalike.arguments lookalikeTop lookalikeBelow = lookalikeArguments := by
    decide
  have hreadable : dailyEnvironment.Readable := by
    intro s text h
    cases s with
    | brokerUrl | granularity => exact ⟨text, rfl⟩
    | _ => exact nomatch h
  obtain ⟨hsilent, hfilled⟩ := parse_arguments hwritable hwritten
  rw [hargs] at hsilent hfilled
  exact ⟨hwritable, hwritten, hargs, hsilent .empty fun s => by cases s <;> rfl,
    hfilled dailyEnvironment hreadable, rfl, rfl⟩

end CommandLine
end BrokerQuery
