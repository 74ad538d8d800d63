import BrokerQuery.Proofs.Broker.Retry
import BrokerQuery.Proofs.Query.Source
/-
  Queries that go through a handle.

  A handle puts a query on its own data source before it is sent.  The document names that source and
  is otherwise the one that the query would have had, and whether it can be written does not change
  (`Query.toJson_onSource`, `Query.toJson_onSource_eq_error_iff`).  Leaving out the cache and changing
  the source commute, so the same holds of the document of a second attempt.
-/

namespace BrokerQuery

/-! ## Documents -/

/-- The document `w` is the document `v` on another data source: every other field is in both, in the
same place and with the same value. -/
def Json.OnSource (name : String) (v w : Json) : Prop :=
  ∃ before rest, v = .object (("dataSource", .string before) :: rest) ∧
    w = .object (("dataSource", .string name) :: rest) ∧ "dataSource" ∉ rest.map Prod.fst

namespace Query

/-- The errors of writing a query are those of its filter, on every source. -/
theorem toJson_onSource_eq_error_iff (q : Query) (source : String) (e : QueryError) :
    (q.onSource source).toJson = .error e ↔ q.toJson = .error e := by
  rw [toJson_eq, toJson_eq, Fallible.map_eq_error_iff, Fallible.map_eq_error_iff]
  exact Iff.rfl

/-- A query that can be written can be written on every source. -/
theorem toJson_onSource {q : Query} {v : Json} (h : q.toJson = .ok v) (source : String) :
    ∃ w, (q.onSource source).toJson = .ok w ∧ v.OnSource (splitSource source).2 w := by
  obtain ⟨filter?, hfilter, hv⟩ := slots_of_toJson h
  refine ⟨.object (Json.present ((q.onSource source).slots filter?)), ?_,
    q.dataSource, Json.present (q.slots filter?).tail, hv, rfl, fun hmem => ?_⟩
  · rw [toJson_eq]
    show (Except.mapError _ (q.filter.mapM Filter.toJson)).map _ = _
    rw [hfilter]
    rfl
  · have hnames := (Json.names_present_sublist (q.slots filter?).tail).subset hmem
    exact (List.nodup_cons.mp (nodup_slots q filter?)).1 hnames

/-- On a name without a slash, a query asks for that data source. -/
theorem toJson_onSource_of_not_mem {q : Query} {v : Json} (h : q.toJson = .ok v) {name : String}
    (hname : '/' ∉ name.toList) :
    ∃ w, (q.onSource name).toJson = .ok w ∧ v.OnSource name w := by
  have hwritten := toJson_onSource h name
  rwa [splitSource_of_not_mem hname] at hwritten

end Query

/-! ## Handles -/

namespace Handle

/-- **Only the data source is replaced.**  Let a handle be made of any source, and let it have learnt
whatever it has learnt.  Sending a query through it is sending a query whose document names the data
source of the handle and has every other field as before.  It can be written iff the query can, and
fails with the same error.

Against any outcomes, the result is what sending the query itself would have given.  A query that
cannot be written makes no request.  Of any other, the first request and the one without the cache,
which is made exactly when a query is sent again, are both for the data source of the handle; in every
other field they are the query's documents with and without the cache. -/
theorem query_replaces_source_only {h : Handle} {source : String}
    (hname : h.name = (ofSource source h.client).name) (q : Query) :
    ∃ q' : Query, h.query q = h.client.send q' ∧
      (∀ e, q'.toJson = .error e ↔ q.toJson = .error e) ∧
      (∀ v, q.toJson = .ok v → ∃ w, q'.toJson = .ok w ∧ v.OnSource h.name w) ∧
      ∀ outcomes,
        ((h.query q).run outcomes).value = ((h.client.send q).run outcomes).value ∧
        (∀ e, q.toJson = .error e → ((h.query q).run outcomes).requests = []) ∧
        ∀ v, q.toJson = .ok v → ∃ v' w w', (q.cached false).toJson = .ok v' ∧
          v.OnSource h.name w ∧ v'.OnSource h.name w' ∧
          ((outcomes 0).StaleCache ∧ q.useCache ≠ some false →
            ((h.query q).run outcomes).requests = [h.client.posting w, h.client.posting w']) ∧
          (¬ ((outcomes 0).StaleCache ∧ q.useCache ≠ some false) →
            ((h.query q).run outcomes).requests = [h.client.posting w]) := by
  -- A name without a slash has no service in front, so it replaces the data source alone.
  have hslash : '/' ∉ h.name.toList := by
    rw [hname]
    exact (Text.isAfterLast_lastPiece '/' source).1
  refine ⟨q.onSource h.name, rfl, q.toJson_onSource_eq_error_iff h.name,
    fun v hv => Query.toJson_onSource_of_not_mem hv hslash, fun outcomes => ?_⟩
  unfold query
  cases hq : q.toJson with
  | error e =>
    have herror := (q.toJson_onSource_eq_error_iff h.name e).mpr hq
    rw [Client.run_send_of_error herror, Client.run_send_of_error hq]
    exact ⟨rfl, fun _ _ => rfl, nofun⟩
  | ok v =>
    obtain ⟨w, hw, hon⟩ := Query.toJson_onSource_of_not_mem hq hslash
    obtain ⟨v', hv', _⟩ := Query.toJson_cached hq
    obtain ⟨w', hw', hon'⟩ := Query.toJson_onSource_of_not_mem hv' hslash
    -- Both queries have the same say about the cache, so both are sent again or neither is.
    by_cases hretry : (outcomes 0).StaleCache ∧ q.useCache ≠ some false
    · rw [Client.run_send_of_retry hw hw' hretry, Client.run_send_of_retry hq hv' hretry]
      refine ⟨rfl, nofun, fun _ h => ?_⟩
      cases h
      exact ⟨v', w, w', hv', hon, hon', fun _ => rfl, fun hnot => absurd hretry hnot⟩
    · rw [Client.run_send_of_not_retry hw hretry, Client.run_send_of_not_retry hq hretry]
      refine ⟨rfl, nofun, fun _ h => ?_⟩
      cases h
      exact ⟨v', w, w', hv', hon, hon', fun h => absurd h hretry, fun _ => rfl⟩

/-- A query of orders that goes through a handle of clicks asks for clicks, and once more for clicks
after the broker has complained about its cache. -/
theorem orders_sent_to_clicks :
    ∃ v v' w w', Client.orders.toJson = .ok v ∧ (Client.orders.cached false).toJson = .ok v' ∧
      v.OnSource "clicks" w ∧ v'.OnSource "clicks" w' ∧
      (((ofSource "shop/clicks" Client.localClient).query Client.orders).run
        Client.staleBroker).requests =
          [Client.localClient.posting w, Client.localClient.posting w'] := by
  have hstale : (Client.staleBroker 0).StaleCache :=
    ⟨_, rfl, (Text.contains_iff_infix _ _).mp (by decide)⟩
  have hwritten : Client.orders.toJson = .ok (.object Client.orders.properties) :=
    Query.toJson_of_filter_none rfl
  have hclicks : (ofSource "shop/clicks" Client.localClient).name = "clicks" := by decide
  have hname : (ofSource "shop/clicks" Client.localClient).name =
      (ofSource "shop/clicks" (ofSource "shop/clicks" Client.localClient).client).name := rfl
  obtain ⟨_, _, _, _, hruns⟩ := query_replaces_source_only hname Client.orders
  obtain ⟨_, _, hrequests⟩ := hruns Client.staleBroker
  obtain ⟨v', w, w', hcached, hon, hon', hretry, _⟩ := hrequests _ hwritten
  rw [hclicks] at hon hon'
  exact ⟨_, v', w, w', hwritten, hcached, hon, hon', hretry ⟨hstale, by decide⟩⟩

end Handle
end BrokerQuery
