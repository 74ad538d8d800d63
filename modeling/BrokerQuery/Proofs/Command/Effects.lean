import BrokerQuery.Command.Execute
import BrokerQuery.Proofs.Broker.Address
import BrokerQuery.Proofs.Command.Building
/-
  What a command sends and prints.

  Each command asks for one thing and then either reports an error or prints lines
  (`Transcript.reported`), which is what keeps its output together:

    1. A list is one fetch (`run_listDataSources`).
    2. A description is one fetch as well (`run_describeSource`).  It prints its first line before it
       asks for the metrics; but once the dimensions are there the handle knows the metrics too, so
       no request is left that could fail.
    3. A query that was built can be written, so sending it prints nothing and posts it once or twice
       (`Client.run_send_of_ok`), and once only if it may not use the cache.

  Where there is no client or no query, nothing is sent at all (`execute_effects`).
-/

namespace BrokerQuery

/-! ## Sessions that end in a report -/

/-- Several lines as they are printed. -/
def printedLines (lines : List String) : String :=
  lines.foldr (fun line rest => line ++ "\n" ++ rest) ""

namespace Command

/-- A command that is done asks nothing and prints its lines. -/
theorem run_finish (lines : List String) (outcomes : Nat → Outcome) :
    (finish lines).run outcomes = ⟨.ok (), [], [], printedLines lines⟩ := by
  induction lines with
  | nil => rfl
  | cons line lines ih =>
    show Session.run (.print (line ++ "\n") (finish lines)) outcomes = _
    rw [Session.run, ih]
    rfl

end Command

/-- What happened when the result of a session is reported: an error as the error of the command, and
anything else as lines. -/
def Transcript.reported (t : Transcript (Except ε α)) (onError : ε → CommandError)
    (lines : α → List String) : Transcript (Except CommandError Unit) :=
  match t.value with
  | .error e => { t with value := .error (onError e) }
  | .ok a => { t with value := .ok (), printed := t.printed ++ printedLines (lines a) }

namespace Transcript

variable {t : Transcript (Except ε α)} {onError : ε → CommandError} {lines : α → List String}

/-- A report makes no requests. -/
theorem requests_reported : (t.reported onError lines).requests = t.requests := by
  unfold reported
  split <;> rfl

/-- Whoever fails has printed nothing. -/
def AllOrNothing (t : Transcript (Except ε α)) : Prop := ∀ e, t.value = .error e → t.printed = ""

/-- Only results are printed, so if nothing was printed before there is nothing but results. -/
theorem allOrNothing_reported (h : t.printed = "") : (t.reported onError lines).AllOrNothing := by
  intro e he
  unfold reported at he ⊢
  split at he
  next herror => exact h
  next hok => exact nomatch he

end Transcript

/-- A session after which errors are reported and results are printed. -/
theorem Session.run_report (onError : ε → CommandError) (lines : α → List String)
    {s : Session (Except ε α)} {next : Except ε α → Session (Except CommandError Unit)}
    (herror : ∀ e, next (.error e) = Command.fail (onError e))
    (hok : ∀ a, next (.ok a) = Command.finish (lines a)) (outcomes : Nat → Outcome) :
    (s.bind next).run outcomes = (s.run outcomes).reported onError lines := by
  rw [run_bind]
  unfold Transcript.reported
  cases (s.run outcomes).value with
  | error e => rw [herror]; simp [Transcript.followedBy, Command.fail, run]
  | ok a => rw [hok, Command.run_finish]; simp [Transcript.followedBy]

/-! ## Lists -/

/-- The request for the names of all data sources. -/
def Client.listing (c : Client) : Request :=
  ⟨.get, c.url.withPath (c.folder none), none, c.timeoutSecs⟩

/-- The names of the data sources cost one request. -/
theorem Client.run_dataSources (c : Client) (outcomes : Nat → Outcome) :
    c.dataSources.run outcomes = ⟨(outcomes 0).read namesOfText?, [c.listing], [], ""⟩ := rfl

/-- A list is one fetch. -/
theorem Command.run_listDataSources (c : Client) (outcomes : Nat → Outcome) :
    (listDataSources c).run outcomes =
      (Transcript.mk ((outcomes 0).read Client.namesOfText?) [c.listing] [] "").reported
        .list id := by
  rw [← c.run_dataSources outcomes]
  show (c.dataSources.bind _).run outcomes = _
  exact Session.run_report .list id (fun _ => rfl) (fun _ => rfl) outcomes

/-! ## Descriptions -/

namespace Handle

/-- The dimensions are a part of the metadata, at the same cost. -/
theorem run_dimensions (h : Handle) (outcomes : Nat → Outcome) :
    h.dimensions.run outcomes =
      (h.metadata.run outcomes).map fun r => (r.1.map Metadata.dimensions, r.2) :=
  Session.run_map
    (fun r : Except ClientError Metadata × Handle => (r.1.map Metadata.dimensions, r.2))
    h.metadata outcomes

end Handle

/-- The two lines of a description. -/
def Metadata.description (m : Metadata) : List String :=
  ["dimensions: " ++ Text.join ", " m.dimensions, "metrics: " ++ Text.join ", " m.metrics]

/-- A description is one fetch. -/
theorem Command.run_describeSource (c : Client) (source : String) (outcomes : Nat → Outcome) :
    (describeSource c source).run outcomes =
      (Transcript.mk ((outcomes 0).read Metadata.ofText?)
        [c.fetching (Handle.ofSource source c).name] [] "").reported
          (.describe (Handle.ofSource source c).name) Metadata.description := by
  show ((Handle.ofSource source c).dimensions.bind _).run outcomes = _
  rw [Session.run_bind, Handle.run_dimensions, Handle.run_metadata_of_unknown rfl]
  cases (outcomes 0).read Metadata.ofText? with
  | error e => rfl
  | ok m =>
    -- The handle knows the metadata now, so the second look is no request and cannot fail.
    rfl

/-! ## Queries -/

/-- A query that may not use the cache is built as such. -/
theorem QueryArgs.useCache_of_build {clock : Clock} {defaults : QueryDefaults} {args : QueryArgs}
    {q : Query} (h : args.build clock defaults = .ok q) (hcache : args.noCache = true) :
    q.useCache = some false := by
  unfold build at h
  obtain ⟨_, _, h⟩ := Fallible.of_bind_eq_ok h
  obtain ⟨_, _, h⟩ := Fallible.of_bind_eq_ok h
  obtain ⟨_, _, h⟩ := Fallible.of_bind_eq_ok h
  rw [if_pos hcache] at h
  rw [← Except.ok.inj h]
  rfl

/-- Sending a query that can be written prints nothing, and posts its document once, or once more
where the query may use the cache. -/
theorem Client.run_send_of_ok (c : Client) {q : Query} {v : Json} (h : q.toJson = .ok v)
    (outcomes : Nat → Outcome) :
    ((c.send q).run outcomes).printed = "" ∧
      (((c.send q).run outcomes).requests = [c.posting v] ∨
        q.useCache ≠ some false ∧ ∃ w, ((c.send q).run outcomes).requests =
          [c.posting v, c.posting w]) := by
  by_cases hretry : (outcomes 0).StaleCache ∧ q.useCache ≠ some false
  · obtain ⟨w, hcached, _⟩ := Query.toJson_cached h
    rw [run_send_of_retry h hcached hretry]
    exact ⟨rfl, .inr ⟨hretry.2, w, rfl⟩⟩
  · rw [run_send_of_not_retry h hretry]
    exact ⟨rfl, .inl rfl⟩

namespace Command

variable {clock : Clock} {defaults : QueryDefaults} {args : QueryArgs}

/-- A query that was built is sent, and that is all. -/
theorem run_sendQuery_of_build {q : Query} (h : args.build clock defaults = .ok q) (c : Client)
    (outcomes : Nat → Outcome) :
    (sendQuery clock defaults c args).run outcomes =
      ((c.send q).run outcomes).reported (.query q.source) (List.map Row.text) := by
  unfold sendQuery
  rw [h]
  show ((c.send q).bind _).run outcomes = _
  exact Session.run_report (.query q.source) (List.map Row.text) (fun _ => rfl) (fun _ => rfl)
    outcomes

/-- A query that cannot be built is not sent. -/
theorem sendQuery_of_not_build {e : BuildError} (h : args.build clock defaults = .error e)
    (c : Client) : sendQuery clock defaults c args = fail (.build e) := by
  unfold sendQuery
  rw [h]

end Command

/-! ## Commands -/

namespace Command

/-- A dry run makes no request, and prints the document of the query if there is a query. -/
theorem run_dryRun (clock : Clock) (defaults : QueryDefaults) (args : QueryArgs)
    (outcomes : Nat → Outcome) :
    (∃ e, args.build clock defaults = .error e ∧
      (dryRun clock defaults args).run outcomes = ⟨.error (.build e), [], [], ""⟩) ∨
    ∃ q v, args.build clock defaults = .ok q ∧ q.toJson = .ok v ∧
      (dryRun clock defaults args).run outcomes = ⟨.ok (), [], [], printedLines [v.pretty]⟩ := by
  unfold dryRun
  cases hbuild : args.build clock defaults with
  | error e => exact .inl ⟨e, rfl, rfl⟩
  | ok q =>
    obtain ⟨v, hv, _⟩ := QueryArgs.toJson_of_build hbuild
    exact .inr ⟨q, v, rfl, hv, by simp only [hv, run_finish]⟩

/-- Whether a command only shows what it would do. -/
def isDryRun : Command → Bool
  | .query args => args.dryRun
  | _ => false

/-- A dry run needs no client. -/
theorem execute_of_dryRun (clock : Clock) (config : Config) {args : QueryArgs}
    (h : args.dryRun = true) :
    execute clock config (.query args) = dryRun clock config.defaults args :=
  if_pos h

theorem execute_of_online {c : Command} (h : c.isDryRun = false) (clock : Clock)
    (config : Config) : c.execute clock config = execute.online clock config c := by
  cases c with
  | query args => exact if_neg (by rw [show args.dryRun = false from h]; nofun)
  | _ => rfl

theorem execute_of_client {c : Command} (h : c.isDryRun = false) (clock : Clock) {config : Config}
    {client : Client} (hclient : Client.ofUrl config.brokerUrl config.timeoutSecs = .ok client) :
    c.execute clock config = c.withClient clock config.defaults client := by
  rw [execute_of_online h, execute.online, hclient]

theorem execute_of_not_client {c : Command} (h : c.isDryRun = false) (clock : Clock)
    {config : Config} {e : ClientError}
    (hclient : Client.ofUrl config.brokerUrl config.timeoutSecs = .error e) :
    c.execute clock config = fail (.client e) := by
  rw [execute_of_online h, execute.online, hclient]

/-- A dry run makes no request, and fails before it prints. -/
theorem run_execute_of_dryRun {c : Command} (h : c.isDryRun = true) (clock : Clock)
    (config : Config) (outcomes : Nat → Outcome) :
    ((c.execute clock config).run outcomes).requests = [] ∧
      ((c.execute clock config).run outcomes).AllOrNothing := by
  cases c with
  | query args =>
    rw [execute_of_dryRun clock config h]
    rcases run_dryRun clock config.defaults args outcomes with ⟨e, _, hrun⟩ | ⟨q, v, _, _, hrun⟩
    · rw [hrun]
      exact ⟨rfl, fun _ _ => rfl⟩
    · rw [hrun]
      exact ⟨rfl, nofun⟩
  | _ => exact nomatch h

/-- A command with a client fails before it prints, or prints all. -/
theorem allOrNothing_withClient (c : Command) (clock : Clock) (defaults : QueryDefaults)
    (client : Client) (outcomes : Nat → Outcome) :
    ((c.withClient clock defaults client).run outcomes).AllOrNothing := by
  cases c with
  | dataSources =>
    show ((listDataSources client).run outcomes).AllOrNothing
    rw [run_listDataSources]
    exact Transcript.allOrNothing_reported rfl
  | describe source =>
    show ((describeSource client source).run outcomes).AllOrNothing
    rw [run_describeSource]
    exact Transcript.allOrNothing_reported rfl
  | query args =>
    show ((sendQuery clock defaults client args).run outcomes).AllOrNothing
    cases hbuild : args.build clock defaults with
    | error e =>
      rw [sendQuery_of_not_build hbuild]
      exact fun _ _ => rfl
    | ok q =>
      obtain ⟨v, hv, _⟩ := QueryArgs.toJson_of_build hbuild
      rw [run_sendQuery_of_build hbuild]
      exact Transcript.allOrNothing_reported (client.run_send_of_ok hv outcomes).1

/-- Every command fails before it prints, or prints all. -/
theorem allOrNothing_execute (c : Command) (clock : Clock) (config : Config)
    (outcomes : Nat → Outcome) : ((c.execute clock config).run outcomes).AllOrNothing := by
  cases hdry : c.isDryRun with
  | true => exact (run_execute_of_dryRun hdry clock config outcomes).2
  | false =>
    cases hclient : Client.ofUrl config.brokerUrl config.timeoutSecs with
    | error e =>
      rw [execute_of_not_client hdry clock hclient]
      exact fun _ _ => rfl
    | ok client =>
      rw [execute_of_client hdry clock hclient]
      exact c.allOrNothing_withClient clock config.defaults client outcomes

/-- Without a client nothing is sent. -/
theorem requests_of_not_client (c : Command) (clock : Clock) {config : Config} {e : ClientError}
    (hclient : Client.ofUrl config.brokerUrl config.timeoutSecs = .error e)
    (outcomes : Nat → Outcome) : ((c.execute clock config).run outcomes).requests = [] := by
  cases hdry : c.isDryRun with
  | true => exact (run_execute_of_dryRun hdry clock config outcomes).1
  | false =>
    rw [execute_of_not_client hdry clock hclient]
    rfl

/-- Without a query the command fails at once, if not for want of a client. -/
theorem execute_of_not_build {clock : Clock} {config : Config} {args : QueryArgs} {e : BuildError}
    (hdry : (Command.query args).isDryRun = false)
    (hbuild : args.build clock config.defaults = .error e) :
    ∃ e', (Command.query args).execute clock config = fail e' := by
  cases hclient : Client.ofUrl config.brokerUrl config.timeoutSecs with
  | error e' => exact ⟨_, execute_of_not_client hdry clock hclient⟩
  | ok client =>
    refine ⟨.build e, ?_⟩
    rw [execute_of_client hdry clock hclient, withClient, sendQuery_of_not_build hbuild]

/-- Without a query nothing is sent. -/
theorem requests_of_not_build {clock : Clock} {config : Config} {args : QueryArgs} {e : BuildError}
    (hbuild : args.build clock config.defaults = .error e) (outcomes : Nat → Outcome) :
    (((Command.query args).execute clock config).run outcomes).requests = [] := by
  cases hdry : (Command.query args).isDryRun with
  | true => exact (run_execute_of_dryRun hdry clock config outcomes).1
  | false =>
    obtain ⟨e', hfail⟩ := execute_of_not_build hdry hbuild
    rw [hfail]
    rfl

/-- A query with a client is posted once, or twice if it may use the cache; the first document is
that of the query. -/
theorem requests_of_build {clock : Clock} {config : Config} {args : QueryArgs} {q : Query}
    {client : Client} (hdry : (Command.query args).isDryRun = false)
    (hclient : Client.ofUrl config.brokerUrl config.timeoutSecs = .ok client)
    (hbuild : args.build clock config.defaults = .ok q) (outcomes : Nat → Outcome) :
    ∃ v, q.toJson = .ok v ∧
      ((((Command.query args).execute clock config).run outcomes).requests = [client.posting v] ∨
        args.noCache = false ∧ ∃ w,
          (((Command.query args).execute clock config).run outcomes).requests =
            [client.posting v, client.posting w]) := by
  obtain ⟨v, hv, _⟩ := QueryArgs.toJson_of_build hbuild
  refine ⟨v, hv, ?_⟩
  rw [execute_of_client hdry clock hclient, withClient, run_sendQuery_of_build hbuild,
    Transcript.requests_reported]
  refine (client.run_send_of_ok hv outcomes).2.imp id fun ⟨hcache, hrequests⟩ => ⟨?_, hrequests⟩
  cases hnoCache : args.noCache with
  | true => exact absurd (QueryArgs.useCache_of_build hbuild hnoCache) hcache
  | false => rfl

/-- **All or nothing, and few requests.**  Against any outcomes, a command that fails has printed
nothing.  A dry run makes no request, nor does a command without a client or a query that cannot be
built.  Of the others, a list and a description make exactly one request, which is a GET.  A query
makes one or two requests, which are POSTs, and one only if it may not use the cache. -/
theorem execute_effects (c : Command) (clock : Clock) (config : Config)
    (outcomes : Nat → Outcome) :
    let t := (c.execute clock config).run outcomes
    (∀ e, t.value = .error e → t.printed = "") ∧
    (∀ args, c = .query args → args.dryRun = true → t.requests = []) ∧
    (∀ e, Client.ofUrl config.brokerUrl config.timeoutSecs = .error e → t.requests = []) ∧
    (∀ args e, c = .query args → args.build clock config.defaults = .error e →
      t.requests = []) ∧
    ∀ client, Client.ofUrl config.brokerUrl config.timeoutSecs = .ok client →
      (c = .dataSources → t.requests.map Request.method = [.get]) ∧
      (∀ source, c = .describe source → t.requests.map Request.method = [.get]) ∧
      ∀ args q, c = .query args → args.dryRun = false →
        args.build clock config.defaults = .ok q →
        t.requests.map Request.method = [.post] ∨
          args.noCache = false ∧ t.requests.map Request.method = [.post, .post] := by
  refine ⟨c.allOrNothing_execute clock config outcomes, ?_,
    fun e hclient => c.requests_of_not_client clock hclient outcomes, ?_,
    fun client hclient => ⟨?_, ?_, ?_⟩⟩
  · rintro args rfl hdry
    have hdry' : (Command.query args).isDryRun = true := hdry
    exact (run_execute_of_dryRun hdry' clock config outcomes).1
  · rintro args e rfl hbuild
    exact requests_of_not_build hbuild outcomes
  · rintro rfl
    rw [execute_of_client rfl clock hclient, withClient, run_listDataSources,
      Transcript.requests_reported]
    rfl
  · rintro source rfl
    rw [execute_of_client rfl clock hclient, withClient, run_describeSource,
      Transcript.requests_reported]
    rfl
  · rintro args q rfl hdry hbuild
    obtain ⟨v, _, hrequests | ⟨hcache, w, hrequests⟩⟩ :=
      requests_of_build hdry hclient hbuild outcomes
    · rw [hrequests]
      exact .inl rfl
    · rw [hrequests]
      exact .inr ⟨hcache, rfl⟩

/-- The configuration of a user who sets nothing. -/
def plainConfig : Config :=
  ⟨Config.defaultUrl, Config.defaultTimeoutSecs, ⟨Config.defaultGranularity, none⟩⟩

/-- All orders, as they are now. -/
def freshOrders : QueryArgs where
  source := "shop/orders"
  noCache := true

/-- A broker that has the same answer for everybody. -/
def friendlyBroker : Nat → Outcome :=
  fun _ => .answer 200 "\x7b\"dimensions\": [\"city\"], \"metrics\": [\"price\"]\x7d"

/-- A description is two lines and one GET.  A query that may not use the cache is posted once to a
broker which complains of its cache, and nothing is printed. -/
theorem plainConfig_effects :
    (((describe "shop/orders").execute (.ofSeconds 0) plainConfig).run friendlyBroker).printed =
      "dimensions: city\nmetrics: price\n" ∧
    (((describe "shop/orders").execute (.ofSeconds 0) plainConfig).run
      friendlyBroker).requests.map Request.method = [.get] ∧
    (((query freshOrders).execute (.ofSeconds 0) plainConfig).run
      Client.staleBroker).requests.map Request.method = [.post] ∧
    (((query freshOrders).execute (.ofSeconds 0) plainConfig).run Client.staleBroker).value =
      .error (.query "shop/orders" (.refused 500 "error: Cannot have a null result!")) ∧
    (((query freshOrders).execute (.ofSeconds 0) plainConfig).run Client.staleBroker).printed =
      "" := by
  have hclient : Client.ofUrl plainConfig.brokerUrl plainConfig.timeoutSecs =
      .ok Client.druidClient := by decide +kernel
  obtain ⟨_, _, _, _, hdescribe⟩ :=
    execute_effects (.describe "shop/orders") (.ofSeconds 0) plainConfig friendlyBroker
  obtain ⟨hprinted, _, _, _, hquery⟩ :=
    execute_effects (.query freshOrders) (.ofSeconds 0) plainConfig Client.staleBroker
  have hfails : (((query freshOrders).execute (.ofSeconds 0) plainConfig).run
      Client.staleBroker).value =
        .error (.query "shop/orders" (.refused 500 "error: Cannot have a null result!")) := by
    decide +kernel
  have hbuild : ∃ q, freshOrders.build (.ofSeconds 0) plainConfig.defaults = .ok q := ⟨_, rfl⟩
  obtain ⟨q, hq⟩ := hbuild
  refine ⟨by decide +kernel, (hdescribe _ hclient).2.1 _ rfl, ?_, hfails, hprinted _ hfails⟩
  exact ((hquery _ hclient).2.2 _ q rfl rfl hq).resolve_right nofun

end Command
end BrokerQuery
