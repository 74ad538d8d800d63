import BrokerQuery.Broker.Handle
import BrokerQuery.Proofs.Query.Interleaving
import BrokerQuery.Proofs.Text
/-
  The source of a query.

  A source is written as a service and a data source with slashes between them.  A query cuts it at
  all slashes and keeps the first part and the last one; handles and clients look for the last slash
  from the end.

    1. What the query takes for the service stands before the first slash, and what it takes for the
       data source is what the others find (`splitSource_spec`).
    2. So neither name has a slash in it.  Only `source` touches the names, so this is an invariant
       of every step, and of every run (`named_applyOrKeep`, `named_run`).
    3. Two names without slashes are told apart when they are put together with one between them
       (`splitSource_append`).  The source that a query gives out is therefore a normal form: a query
       that is put on it stays the same (`onSource_source`).
-/

namespace BrokerQuery

open Text (IsAfterLast IsBeforeFirst)

namespace Query

/-! ## Cutting a source -/

/-- A source is cut into its first piece and its last one. -/
theorem splitSource_eq {s : String} {service : List Char} {rest : List (List Char)}
    (h : Text.pieces '/' s.toList = service :: rest) :
    splitSource s = (String.ofList service, String.ofList (rest.getLast?.getD service)) := by
  unfold splitSource
  rw [h]

/-- The service is what stands before the first slash of a source, and the data source is what looking
for the last slash from the end finds. -/
theorem splitSource_spec (s : String) :
    IsBeforeFirst '/' s.toList (splitSource s).1.toList ∧
      (splitSource s).2 = Text.lastPiece '/' s := by
  cases h : Text.pieces '/' s.toList with
  | nil => exact absurd h (Text.pieces_ne_nil '/' s.toList)
  | cons service rest =>
    have hfirst := Text.isBeforeFirst_of_pieces h
    have hlast := Text.toList_lastPiece (Text.isAfterLast_of_pieces h)
    rw [splitSource_eq h, String.toList_ofList, ← hlast, String.ofList_toList]
    exact ⟨hfirst, rfl⟩

/-- Two names with a slash between them are cut apart, if they have none of their own. -/
theorem splitSource_append {service name : String} (hservice : '/' ∉ service.toList)
    (hname : '/' ∉ name.toList) : splitSource (service ++ "/" ++ name) = (service, name) := by
  have hrest : Text.pieces '/' ('/' :: name.toList) = [[], name.toList] := by
    rw [Text.pieces_cons_of_eq, Text.pieces_of_not_mem hname]
  have hpieces : Text.pieces '/' (service ++ "/" ++ name).toList =
      [service.toList, name.toList] := by
    rw [String.toList_append, String.toList_append, List.append_assoc]
    show Text.pieces '/' (service.toList ++ '/' :: name.toList) = _
    rw [Text.pieces_append hservice hrest, List.append_nil]
  rw [splitSource_eq hpieces, List.getLast?_singleton, Option.getD_some, String.ofList_toList,
    String.ofList_toList]

/-- A name without a slash is service and data source at once. -/
theorem splitSource_of_not_mem {name : String} (h : '/' ∉ name.toList) :
    splitSource name = (name, name) := by
  rw [splitSource_eq (Text.pieces_of_not_mem h), List.getLast?_nil, Option.getD_none,
    String.ofList_toList]

/-! ## Names without slashes -/

/-- Service and data source of a query have no slash in them. -/
structure Named (q : Query) : Prop where
  service : '/' ∉ q.service.toList
  dataSource : '/' ∉ q.dataSource.toList

/-- A source gives a query its names, and they have no slash in them. -/
theorem named_onSource (q : Query) (s : String) : (q.onSource s).Named where
  service := (splitSource_spec s).1.1
  dataSource := by
    show '/' ∉ (splitSource s).2.toList
    rw [(splitSource_spec s).2]
    exact (Text.isAfterLast_lastPiece '/' s).1

theorem named_new (clock : Clock) (s : String) : (new clock s).Named :=
  ⟨(named_onSource (new clock s) s).service, (named_onSource (new clock s) s).dataSource⟩

/-- A query that is put on its own source stays the same. -/
theorem onSource_source {q : Query} (h : q.Named) : q.onSource q.source = q := by
  unfold onSource source
  rw [splitSource_append h.service h.dataSource]

end Query

namespace Step

/-! ## Runs -/

/-- Only `source` touches the names of a query. -/
theorem applyOrKeep_names_of_ne {s : Step} (h : s.group ≠ .source) (clock : Clock) (q : Query) :
    (s.applyOrKeep clock q).service = q.service ∧
      (s.applyOrKeep clock q).dataSource = q.dataSource := by
  rcases applyOrKeep_cases clock s with hkeep | ⟨f, hf, happly⟩
  · rw [hkeep]
    exact ⟨rfl, rfl⟩
  · rw [happly]
    generalize s.group = g at h hf
    cases hf with
    | source service dataSource => exact absurd rfl h
    | _ => exact ⟨rfl, rfl⟩

/-- The step: no setter but the one for the source touches the names. -/
theorem named_applyOrKeep {q : Query} (h : q.Named) (clock : Clock) (s : Step) :
    (s.applyOrKeep clock q).Named := by
  have frame (hne : s.group ≠ .source) : (s.applyOrKeep clock q).Named := by
    obtain ⟨hservice, hname⟩ := applyOrKeep_names_of_ne hne clock q
    exact ⟨by rw [hservice]; exact h.service, by rw [hname]; exact h.dataSource⟩
  cases s with
  | source s => exact q.named_onSource s
  | _ => exact frame nofun

theorem named_run {q : Query} (h : q.Named) (steps : List (Clock × Step)) :
    (run q steps).Named := by
  induction steps generalizing q with
  | nil => exact h
  | cons call steps ih =>
    rw [run_cons]
    exact ih (named_applyOrKeep h call.1 call.2)

end Step

namespace Query

/-- **One name, wherever it is taken from.**  Of any text, a new query, a handle and a client take
the same data source: what stands after the last slash, or the whole text.  The query's service is
what stands before the first slash.  The metadata are asked for below the path of that name, also
when the name of the handle is what is asked with.

Whatever steps a query has taken, its service and its data source have no slash in them.  Putting it
on the source that it gives out changes nothing, and a new query on that source has the same service
and the same data source. -/
theorem source_is_normal_form :
    (∀ (clock : Clock) (s : String) (client : Client) (outcomes : Nat → Outcome),
      IsAfterLast '/' s.toList (new clock s).dataSource.toList ∧
      IsBeforeFirst '/' s.toList (new clock s).service.toList ∧
      (Handle.ofSource s client).name = (new clock s).dataSource ∧
      ((client.metadata s).run outcomes).requests =
        [⟨.get, client.url.withPath (client.folder none ++ '/' :: (new clock s).dataSource.toList),
          none, client.timeoutSecs⟩] ∧
      client.metadata (Handle.ofSource s client).name = client.metadata s) ∧
    ∀ (clock : Clock) (s : String) (steps : List (Clock × Step)) (q : Query),
      Step.run (new clock s) steps = q →
      '/' ∉ q.service.toList ∧ '/' ∉ q.dataSource.toList ∧ q.onSource q.source = q ∧
      ∀ clock', (new clock' q.source).service = q.service ∧
        (new clock' q.source).dataSource = q.dataSource := by
  refine ⟨fun clock s client outcomes => ?_, fun clock s steps q hrun => ?_⟩
  · obtain ⟨hservice, hname⟩ := splitSource_spec s
    have hlast := Text.isAfterLast_lastPiece '/' s
    have hnew : (new clock s).dataSource = Text.lastPiece '/' s := hname
    refine ⟨by rw [hnew]; exact hlast, hservice, hnew.symm, ?_, ?_⟩
    · rw [hnew]
      unfold Client.folder
      simp only [List.append_nil]
      rfl
    · unfold Client.metadata Handle.ofSource
      rw [Text.lastPiece_of_not_mem hlast.1]
  · -- Names without slashes are split off their source as they were.
    have hnamed : q.Named := hrun ▸ Step.named_run (named_new clock s) steps
    have hstays := onSource_source hnamed
    refine ⟨hnamed.service, hnamed.dataSource, hstays, fun clock' => ?_⟩
    show (q.onSource q.source).service = q.service ∧
      (q.onSource q.source).dataSource = q.dataSource
    rw [hstays]
    exact ⟨rfl, rfl⟩

/-- A query that is put on one source after another, with a time range in between that is none. -/
def wanderingRun : List (Clock × Step) :=
  [(.ofSeconds 0, .source "shop/2013/orders"),
    (.ofSeconds 1, .since (.text "soon")),
    (.ofSeconds 2, .source "shop//clicks"),
    (.ofSeconds 3, .aggregate .count ["city"])]

/-- The last source of the run counts; what lies between its slashes is dropped. -/
theorem wanderingRun_source :
    ∃ q, Step.run (new (.ofSeconds 0) "orders") wanderingRun = q ∧ q.source = "shop/clicks" ∧
      q.onSource "shop/clicks" = q := by
  obtain ⟨_, hruns⟩ := source_is_normal_form
  obtain ⟨_, _, hstays, _⟩ := hruns (.ofSeconds 0) "orders" wanderingRun _ rfl
  have hsource : (Step.run (new (.ofSeconds 0) "orders") wanderingRun).source = "shop/clicks" := by
    decide
  refine ⟨_, rfl, hsource, ?_⟩
  rwa [hsource] at hstays

end Query
end BrokerQuery
