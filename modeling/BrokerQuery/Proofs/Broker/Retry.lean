import BrokerQuery.Proofs.Broker.Session
import BrokerQuery.Proofs.Query.Document
import BrokerQuery.Proofs.Text
/-
  What a client sends, and what it gives back.

  All of `send` can be read off two transcripts of `post`, played one after the other:

    1. `Outcome.Means` says what each outcome means, with no look at how answers are read; `read`
       agrees with it (`Outcome.means_read`);
    2. a second request is made for a complaint about the cache, of a query that may use the cache,
       and for nothing else (`needsRetry_read_iff`);
    3. the document of the second request differs from the first in its context
       (`Query.toJson_cached`).
-/

namespace BrokerQuery

/-! ## Outcomes -/

/-- What an outcome of a query means: only an answer with status 200 that is an array of objects has
rows, and it has all of them in order. -/
inductive Outcome.Means : Outcome → Except ClientError (List Row) → Prop
  | silence : Means .silence (.error .noAnswer)
  | refused {status : Nat} {body : String} (h : status ≠ 200) :
      Means (.answer status body) (.error (.refused status body))
  | unreadable {body : String}
      (h : ∀ objects : List (List (String × Json)),
        Json.ofText? body ≠ some (.array (objects.map .object))) :
      Means (.answer 200 body) (.error .unreadable)
  | rows {body : String} {objects : List (List (String × Json))}
      (h : Json.ofText? body = some (.array (objects.map .object))) :
      Means (.answer 200 body) (.ok (objects.map Row.mk))

theorem Json.fields?_eq_some_iff (v : Json) (fields : List (String × Json)) :
    v.fields? = some fields ↔ v = .object fields := by
  cases v <;> simp [fields?]

/-- Objects are read from an array iff it holds objects only. -/
theorem Json.mapM_fields?_eq_some_iff (items : List Json)
    (objects : List (List (String × Json))) :
    items.mapM fields? = some objects ↔ items = objects.map .object := by
  induction items generalizing objects with
  | nil => cases objects <;> simp
  | cons v items ih =>
    rw [List.mapM_cons]
    cases objects with
    | nil => simp [Option.bind_eq_some_iff]
    | cons fields objects => simp [Option.bind_eq_some_iff, fields?_eq_some_iff, ih]

/-- The rows of a value are the objects of which it is an array. -/
theorem Json.rows?_eq_some_iff (v : Json) (objects : List (List (String × Json))) :
    v.rows? = some objects ↔ v = .array (objects.map .object) := by
  cases v with
  | array items => rw [rows?, mapM_fields?_eq_some_iff, Json.array.injEq]
  | _ => exact iff_of_false nofun nofun

/-- A text is read as rows iff it is an array of objects. -/
theorem Client.rowsOfText?_eq_some_iff (s : String) (rows : List Row) :
    rowsOfText? s = some rows ↔
      ∃ objects : List (List (String × Json)),
        Json.ofText? s = some (.array (objects.map .object)) ∧ rows = objects.map Row.mk := by
  rw [rowsOfText?, Option.bind_eq_some_iff]
  constructor
  · rintro ⟨v, hv, hrows⟩
    obtain ⟨objects, hobjects, hmap⟩ := Option.map_eq_some_iff.mp hrows
    rw [(Json.rows?_eq_some_iff v objects).mp hobjects] at hv
    exact ⟨objects, hv, hmap.symm⟩
  · rintro ⟨objects, hv, hmap⟩
    refine ⟨_, hv, ?_⟩
    rw [Row.ofJsonAll?, (Json.rows?_eq_some_iff _ objects).mpr rfl, hmap]
    rfl

/-- Reading an outcome gives what it means. -/
theorem Outcome.means_read (o : Outcome) : o.Means (o.read Client.rowsOfText?) := by
  have hgives := o.gives_read Client.rowsOfText?
  generalize o.read Client.rowsOfText? = result at hgives
  cases hgives with
  | silence => exact .silence
  | refused h => exact .refused h
  | @unreadable body h =>
    refine .unreadable fun objects hobjects => ?_
    rw [(Client.rowsOfText?_eq_some_iff body _).mpr ⟨objects, hobjects, rfl⟩] at h
    exact nomatch h
  | @value body rows h =>
    obtain ⟨objects, hobjects, hmap⟩ := (Client.rowsOfText?_eq_some_iff body rows).mp h
    rw [hmap]
    exact .rows hobjects

/-- A complaint of the broker about its cache. -/
def Outcome.StaleCache (o : Outcome) : Prop :=
  ∃ body, o = .answer 500 body ∧ staleCacheText.toList <:+: body.toList

namespace Client

/-- A query is sent again after a complaint about the cache, unless it may not use the cache. -/
theorem needsRetry_read_iff (q : Query) (o : Outcome) :
    needsRetry q (o.read rowsOfText?) = true ↔ o.StaleCache ∧ q.useCache ≠ some false := by
  -- What the outcome means decides; how its body was read plays no part any more.
  have hmeans := o.means_read
  generalize o.read rowsOfText? = result at hmeans
  cases hmeans with
  | silence => simp [needsRetry, ClientError.isStaleCache, Outcome.StaleCache]
  | refused h =>
    simp [needsRetry, ClientError.isStaleCache, Outcome.StaleCache, Text.contains_iff_infix]
  | unreadable h => simp [needsRetry, ClientError.isStaleCache, Outcome.StaleCache]
  | rows h => simp [needsRetry, Outcome.StaleCache]

end Client

/-! ## Documents -/

/-- The document `w` is the document `v` but for the field `context`, which forbids the cache. -/
def Json.WithoutCache (v w : Json) : Prop :=
  ∃ fields fields', v = .object fields ∧ w = .object fields' ∧
    fields'.filter (·.1 != "context") = fields.filter (·.1 != "context") ∧
    fields'.filter (·.1 == "context") = [("context", .object [("useCache", .bool false)])]

/-- A query that can be written can be written without the cache. -/
theorem Query.toJson_cached {q : Query} {v : Json} (h : q.toJson = .ok v) :
    ∃ w, (q.cached false).toJson = .ok w ∧ v.WithoutCache w := by
  obtain ⟨filter?, hfilter, hv⟩ := slots_of_toJson h
  refine ⟨.object (Json.present ((q.cached false).slots filter?)), ?_, _, _, hv, rfl, ?_, ?_⟩
  · rw [toJson_eq]
    show (Except.mapError _ (q.filter.mapM Filter.toJson)).map _ = _
    rw [hfilter]
    rfl
  · rw [Json.filter_present (· != "context"), Json.filter_present (· != "context")]
    rfl
  · rw [Json.filter_present (· == "context")]
    rfl

/-! ## Sending -/

namespace Client

/-- The request that posts a document. -/
def posting (c : Client) (document : Json) : Request :=
  ⟨.post, c.url, some document, c.timeoutSecs⟩

/-- A query that cannot be written is not posted. -/
theorem run_post_of_error {c : Client} {q : Query} {e : QueryError} (h : q.toJson = .error e)
    (outcomes : Nat → Outcome) :
    (c.post q).run outcomes = ⟨.error (.query e), [], [], ""⟩ := by
  unfold post
  rw [h]
  rfl

theorem run_post_of_ok {c : Client} {q : Query} {v : Json} (h : q.toJson = .ok v)
    (outcomes : Nat → Outcome) :
    (c.post q).run outcomes = ⟨(outcomes 0).read rowsOfText?, [c.posting v], [], ""⟩ := by
  unfold post
  rw [h]
  rfl

/-- A query is sent and then sent again, whatever came of it. -/
def sendAgain (c : Client) (q : Query) : Session (Except ClientError (List Row)) := do
  let _ ← c.send q
  c.send q

/-- A query that cannot be written is not sent, so it is not sent again either. -/
theorem run_send_of_error {c : Client} {q : Query} {e : QueryError} (h : q.toJson = .error e)
    (outcomes : Nat → Outcome) :
    (c.send q).run outcomes = ⟨.error (.query e), [], [], ""⟩ := by
  show ((c.post q).bind _).run outcomes = _
  rw [Session.run_bind, run_post_of_error h]
  rfl

/-- Without a reason to retry, sending is posting. -/
theorem run_send_of_not_retry {c : Client} {q : Query} {v : Json} (h : q.toJson = .ok v)
    {outcomes : Nat → Outcome}
    (hretry : ¬ ((outcomes 0).StaleCache ∧ q.useCache ≠ some false)) :
    (c.send q).run outcomes = ⟨(outcomes 0).read rowsOfText?, [c.posting v], [], ""⟩ := by
  rw [← needsRetry_read_iff] at hretry
  show ((c.post q).bind _).run outcomes = _
  rw [Session.run_bind, run_post_of_ok h, if_neg hretry]
  rfl

/-- With a reason to retry, the query is posted again without the cache, and that is all. -/
theorem run_send_of_retry {c : Client} {q : Query} {v w : Json} (h : q.toJson = .ok v)
    (hcached : (q.cached false).toJson = .ok w) {outcomes : Nat → Outcome}
    (hretry : (outcomes 0).StaleCache ∧ q.useCache ≠ some false) :
    (c.send q).run outcomes = ⟨(outcomes 1).read rowsOfText?, [c.posting v, c.posting w],
      [.cacheError q.source], ""⟩ := by
  rw [← needsRetry_read_iff] at hretry
  show ((c.post q).bind _).run outcomes = _
  rw [Session.run_bind, run_post_of_ok h, if_pos hretry, Session.run, run_post_of_ok hcached]
  rfl

/-- **One retry, without the cache.**  Against any outcomes, sending a query that cannot be written
makes no request and gives the error of the query.  Sending any other posts its document, and posts
it a second and last time iff the first outcome is a complaint about the cache and the query may use
the cache.  The second document forbids the cache and is otherwise the first.  The last outcome says
what the result is, and no other.  Sending the query again is sending it against the outcomes that
are left. -/
theorem send_retries_once (c : Client) (q : Query) (outcomes : Nat → Outcome) :
    (((c.send q).run outcomes).requests = [] ↔ ∃ e, q.toJson = .error e) ∧
    (∀ e, q.toJson = .error e → ((c.send q).run outcomes).value = .error (.query e)) ∧
    (∀ v, q.toJson = .ok v → ∃ w, v.WithoutCache w ∧
      ((outcomes 0).StaleCache ∧ q.useCache ≠ some false →
        ((c.send q).run outcomes).requests = [c.posting v, c.posting w] ∧
        (outcomes 1).Means ((c.send q).run outcomes).value) ∧
      (¬ ((outcomes 0).StaleCache ∧ q.useCache ≠ some false) →
        ((c.send q).run outcomes).requests = [c.posting v] ∧
        (outcomes 0).Means ((c.send q).run outcomes).value)) ∧
    (c.sendAgain q).run outcomes =
      ((c.send q).run outcomes).followedBy ((c.send q).run
        fun n => outcomes (n + ((c.send q).run outcomes).requests.length)) := by
  refine ⟨?_, ?_, ?_, Session.run_bind (c.send q) (fun _ => c.send q) outcomes⟩
  · cases h : q.toJson with
    | error e =>
      rw [run_send_of_error h]
      exact iff_of_true rfl ⟨e, rfl⟩
    | ok v =>
      -- A query that can be written is posted at least once.
      refine iff_of_false (fun hnil => ?_) (by simp)
      obtain ⟨w, hcached, _⟩ := Query.toJson_cached h
      by_cases hretry : (outcomes 0).StaleCache ∧ q.useCache ≠ some false
      · rw [run_send_of_retry h hcached hretry] at hnil
        exact nomatch hnil
      · rw [run_send_of_not_retry h hretry] at hnil
        exact nomatch hnil
  · intro e h
    rw [run_send_of_error h]
  · intro v h
    obtain ⟨w, hcached, hwithout⟩ := Query.toJson_cached h
    refine ⟨w, hwithout, fun hretry => ?_, fun hretry => ?_⟩
    · rw [run_send_of_retry h hcached hretry]
      exact ⟨rfl, (outcomes 1).means_read⟩
    · rw [run_send_of_not_retry h hretry]
      exact ⟨rfl, (outcomes 0).means_read⟩

/-- A broker that complains about its cache each time. -/
def staleBroker : Nat → Outcome := fun _ => .answer 500 "error: Cannot have a null result!"

/-- A client of a broker on this computer. -/
def localClient : Client where
  url := ⟨false, [], [], .domain "localhost".toList, some 8082, [], none, none⟩
  timeoutSecs := 30

/-- A query of all orders of a day. -/
def orders : Query := Query.new (.ofSeconds 0) "shop/orders"

/-- After the second complaint there is no third request; a query that may not use the cache is not
sent again after the first. -/
theorem staleBroker_reported :
    (∃ v w, orders.toJson = .ok v ∧ v.WithoutCache w ∧
      ((localClient.send orders).run staleBroker).requests =
        [localClient.posting v, localClient.posting w] ∧
      (staleBroker 1).Means ((localClient.send orders).run staleBroker).value) ∧
    ∃ v, (orders.cached false).toJson = .ok v ∧
      ((localClient.send (orders.cached false)).run staleBroker).requests =
        [localClient.posting v] := by
  have hstale : (staleBroker 0).StaleCache :=
    ⟨_, rfl, (Text.contains_iff_infix _ _).mp (by decide)⟩
  have hwritten : orders.toJson = .ok (.object orders.properties) :=
    Query.toJson_of_filter_none rfl
  have hcached : (orders.cached false).toJson = .ok (.object (orders.cached false).properties) :=
    Query.toJson_of_filter_none rfl
  obtain ⟨_, _, hsend, _⟩ := send_retries_once localClient orders staleBroker
  obtain ⟨_, _, hsendCached, _⟩ := send_retries_once localClient (orders.cached false) staleBroker
  obtain ⟨w, hwithout, hretry, _⟩ := hsend _ hwritten
  obtain ⟨_, _, _, honce⟩ := hsendCached _ hcached
  obtain ⟨hrequests, hmeans⟩ := hretry ⟨hstale, by decide⟩
  exact ⟨⟨_, w, hwritten, hwithout, hrequests, hmeans⟩,
    _, hcached, (honce fun h => h.2 rfl).1⟩

end Client
end BrokerQuery
