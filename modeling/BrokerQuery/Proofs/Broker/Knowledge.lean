import BrokerQuery.Broker.Handle
import BrokerQuery.Proofs.Broker.Retry
/-
  What a handle knows of its data source.

  A sequence of calls on a handle is played call by call.  Its `history` is the list of events: the
  handle as a call finds it, the call, and how many requests were made before it.  The history is no
  second run: what the events give back and send is what the sequence gives back and sends as one
  session (`run_performAll`).

    1. A handle that knows its metadata gives them out and asks for nothing (`run_look_of_known`);
       one that does not asks once, and knows them afterwards iff the answer had them
       (`run_look_of_unknown`).  A query leaves the handle alone.
    2. So as long as no event was told anything, the handle is the first one
       (`handle_of_not_told`); and once it knows the metadata, it stays the same
       (`handle_of_known`), which is what every later event finds (`known_of_first_told`).
-/

namespace BrokerQuery

/-- The request for the metadata of a data source. -/
def Client.fetching (c : Client) (source : String) : Request :=
  ⟨.get, c.url.withPath (c.folder (some (Text.lastPiece '/' source))), none, c.timeoutSecs⟩

/-- A client asks once, and the first outcome is the answer. -/
theorem Client.run_metadata (c : Client) (source : String) (outcomes : Nat → Outcome) :
    (c.metadata source).run outcomes =
      ⟨(outcomes 0).read Metadata.ofText?, [c.fetching source], [], ""⟩ := rfl

namespace Handle

/-! ## Calls -/

/-- What can be asked about a data source. -/
inductive Aspect
  | metadata
  | dimensions
  | metrics

/-- A call on a handle. -/
inductive Call
  | look (aspect : Aspect)
  | query (q : Query)

/-- What a call gives back. -/
inductive Reply
  | metadata (result : Except ClientError Metadata)
  | names (result : Except ClientError (List String))
  | rows (result : Except ClientError (List Row))

/-- What is given back where an aspect of some metadata is asked for. -/
def Aspect.view (result : Except ClientError Metadata) : Aspect → Reply
  | .metadata => .metadata result
  | .dimensions => .names (result.map Metadata.dimensions)
  | .metrics => .names (result.map Metadata.metrics)

/-- Whether a reply tells something about the data source. -/
def Reply.tells : Reply → Bool
  | .metadata result => result.toBool
  | .names result => result.toBool
  | .rows _ => false

/-- Asks for an aspect of the data source. -/
def look (h : Handle) : Aspect → Session (Reply × Handle)
  | .metadata => do
    let (m, h) ← h.metadata
    return (.metadata m, h)
  | .dimensions => do
    let (names, h) ← h.dimensions
    return (.names names, h)
  | .metrics => do
    let (names, h) ← h.metrics
    return (.names names, h)

/-- Makes a call. -/
def perform (h : Handle) : Call → Session (Reply × Handle)
  | .look aspect => h.look aspect
  | .query q => do
    let rows ← h.query q
    return (.rows rows, h)

/-- Makes several calls, one after the other. -/
def performAll (h : Handle) : List Call → Session (List Reply × Handle)
  | [] => .done ([], h)
  | call :: calls => do
    let (reply, h) ← h.perform call
    let (replies, h) ← h.performAll calls
    return (reply :: replies, h)

/-- The handle after a fetch: it knows the metadata if there were any. -/
def learn (h : Handle) : Except ClientError Metadata → Handle
  | .ok m => { h with known := some m }
  | .error _ => h

/-- A look tells something iff the metadata behind it are there. -/
theorem tells_view (aspect : Aspect) (result : Except ClientError Metadata) :
    (aspect.view result).tells = result.toBool := by
  cases aspect <;> cases result <;> rfl

/-- Whatever aspect is asked for, the metadata are looked up and that part of them is given back. -/
theorem run_look (h : Handle) (aspect : Aspect) (outcomes : Nat → Outcome) :
    (h.look aspect).run outcomes =
      (h.metadata.run outcomes).map fun r => (aspect.view r.1, r.2) := by
  have hnames (part : Metadata → List String) :
      ((h.metadata.bind fun r => .done (r.1.map part, r.2)).bind
        fun r => .done (Reply.names r.1, r.2)).run outcomes =
          (h.metadata.run outcomes).map fun r => (Reply.names (r.1.map part), r.2) := by
    rw [Session.run_map fun r : Except ClientError (List String) × Handle => (Reply.names r.1, r.2),
      Session.run_map fun r : Except ClientError Metadata × Handle => (r.1.map part, r.2)]
    rfl
  cases aspect with
  | metadata => exact Session.run_map (fun r => (Reply.metadata r.1, r.2)) h.metadata outcomes
  | dimensions => exact hnames Metadata.dimensions
  | metrics => exact hnames Metadata.metrics

/-- What is known is given out without a request. -/
theorem run_look_of_known {h : Handle} {m : Metadata} (hm : h.known = some m) (aspect : Aspect)
    (outcomes : Nat → Outcome) :
    (h.look aspect).run outcomes = ⟨(aspect.view (.ok m), h), [], [], ""⟩ := by
  have hmetadata : h.metadata = .done (.ok m, h) := by
    unfold metadata
    rw [hm]
  rw [run_look, hmetadata]
  rfl

/-- A handle that knows nothing asks, and keeps what it is told. -/
theorem run_metadata_of_unknown {h : Handle} (hm : h.known = none) (outcomes : Nat → Outcome) :
    h.metadata.run outcomes =
      ⟨((outcomes 0).read Metadata.ofText?, h.learn ((outcomes 0).read Metadata.ofText?)),
        [h.client.fetching h.name], [], ""⟩ := by
  unfold metadata
  rw [hm]
  show ((h.client.metadata h.name).bind _).run outcomes = _
  rw [Session.run_bind, Client.run_metadata]
  cases (outcomes 0).read Metadata.ofText? <;> rfl

/-- What is not known is asked for once, and kept if it comes. -/
theorem run_look_of_unknown {h : Handle} (hm : h.known = none) (aspect : Aspect)
    (outcomes : Nat → Outcome) :
    (h.look aspect).run outcomes =
      ⟨(aspect.view ((outcomes 0).read Metadata.ofText?),
        h.learn ((outcomes 0).read Metadata.ofText?)), [h.client.fetching h.name], [], ""⟩ := by
  rw [run_look, run_metadata_of_unknown hm]
  rfl

/-- A query is sent by the client, and the handle is as it was. -/
theorem run_query (h : Handle) (q : Query) (outcomes : Nat → Outcome) :
    (h.perform (.query q)).run outcomes =
      ((h.client.send (q.onSource h.name)).run outcomes).map fun rows => (.rows rows, h) :=
  Session.run_map (fun rows => (Reply.rows rows, h)) (h.client.send (q.onSource h.name)) outcomes

/-! ## Histories -/

/-- One call in a sequence of calls. -/
structure Event where
  /-- The handle as the call finds it. -/
  handle : Handle
  call : Call
  /-- How many requests were made before. -/
  asked : Nat

namespace Event

variable (outcomes : Nat → Outcome)

/-- What happens in a call, against the outcomes that are left. -/
def transcript (e : Event) : Transcript (Reply × Handle) :=
  (e.handle.perform e.call).run fun n => outcomes (n + e.asked)

/-- What the call gives back. -/
def reply (e : Event) : Reply := (e.transcript outcomes).value.1

/-- The handle as the call leaves it. -/
def after (e : Event) : Handle := (e.transcript outcomes).value.2

/-- What the call sends. -/
def requests (e : Event) : List Request := (e.transcript outcomes).requests

/-- The call told something about the data source. -/
def Told (e : Event) : Prop := (e.reply outcomes).tells = true

/-- A look at what is known costs no request and changes nothing. -/
theorem transcript_of_known {e : Event} {m : Metadata} (hm : e.handle.known = some m)
    {aspect : Aspect} (hcall : e.call = .look aspect) :
    e.transcript outcomes = ⟨(aspect.view (.ok m), e.handle), [], [], ""⟩ := by
  rw [transcript, hcall]
  exact run_look_of_known hm aspect _

/-- A look at what is not known costs one request, whatever comes back. -/
theorem transcript_of_unknown {e : Event} (hm : e.handle.known = none) {aspect : Aspect}
    (hcall : e.call = .look aspect) :
    e.transcript outcomes =
      ⟨(aspect.view ((outcomes e.asked).read Metadata.ofText?),
        e.handle.learn ((outcomes e.asked).read Metadata.ofText?)),
        [e.handle.client.fetching e.handle.name], [], ""⟩ := by
  rw [transcript, hcall]
  show (e.handle.look aspect).run _ = _
  rw [run_look_of_unknown hm, Nat.zero_add]

/-- A query goes to the broker whatever the handle knows, and teaches it nothing. -/
theorem transcript_of_query {e : Event} {q : Query} (hcall : e.call = .query q) :
    e.transcript outcomes =
      ((e.handle.client.send (q.onSource e.handle.name)).run fun n => outcomes (n + e.asked)).map
        fun rows => (.rows rows, e.handle) := by
  rw [transcript, hcall]
  exact run_query e.handle q _

/-- A handle that knows its metadata stays as it is. -/
theorem after_of_known {e : Event} {m : Metadata} (hm : e.handle.known = some m) :
    e.after outcomes = e.handle := by
  unfold after
  cases hcall : e.call with
  | look aspect => rw [transcript_of_known outcomes hm hcall]
  | query q => rw [transcript_of_query outcomes hcall]; rfl

/-- A call that told nothing leaves the handle as it is. -/
theorem after_of_not_told {e : Event} (hm : e.handle.known = none) (h : ¬ e.Told outcomes) :
    e.after outcomes = e.handle := by
  unfold after
  cases hcall : e.call with
  | look aspect =>
    rw [Told, reply, transcript_of_unknown outcomes hm hcall, tells_view] at h
    rw [transcript_of_unknown outcomes hm hcall]
    cases hread : (outcomes e.asked).read Metadata.ofText? with
    | error error => rfl
    | ok m => rw [hread] at h; exact absurd rfl h
  | query q => rw [transcript_of_query outcomes hcall]; rfl

/-- The first call that tells something fetched the metadata, and the handle knows them. -/
theorem known_of_told {e : Event} (hm : e.handle.known = none) (h : e.Told outcomes) :
    ∃ m, (outcomes e.asked).read Metadata.ofText? = .ok m ∧ (e.after outcomes).known = some m := by
  unfold after
  cases hcall : e.call with
  | look aspect =>
    rw [Told, reply, transcript_of_unknown outcomes hm hcall, tells_view] at h
    rw [transcript_of_unknown outcomes hm hcall]
    cases hread : (outcomes e.asked).read Metadata.ofText? with
    | error error => rw [hread] at h; exact nomatch h
    | ok m => exact ⟨m, rfl, rfl⟩
  | query q =>
    rw [Told, reply, transcript_of_query outcomes hcall] at h
    exact nomatch h

/-- No call changes the data source or the client of a handle. -/
theorem after_source (e : Event) :
    (e.after outcomes).name = e.handle.name ∧ (e.after outcomes).client = e.handle.client := by
  cases hm : e.handle.known with
  | some m => rw [after_of_known outcomes hm]; exact ⟨rfl, rfl⟩
  | none =>
    unfold after
    cases hcall : e.call with
    | look aspect =>
      rw [transcript_of_unknown outcomes hm hcall]
      cases (outcomes e.asked).read Metadata.ofText? <;> exact ⟨rfl, rfl⟩
    | query q => rw [transcript_of_query outcomes hcall]; exact ⟨rfl, rfl⟩

end Event

/-- The events of a sequence of calls, when some requests were made before. -/
def history (outcomes : Nat → Outcome) (h : Handle) (asked : Nat) : List Call → List Event
  | [] => []
  | call :: calls =>
    let e : Event := ⟨h, call, asked⟩
    e :: history outcomes (e.after outcomes) (asked + (e.requests outcomes).length) calls

/-- The history is what happens when the calls are made in one session. -/
theorem run_performAll (outcomes : Nat → Outcome) (h : Handle) (asked : Nat) (calls : List Call) :
    ((h.performAll calls).run fun n => outcomes (n + asked)).value.1 =
      (history outcomes h asked calls).map (·.reply outcomes) ∧
    ((h.performAll calls).run fun n => outcomes (n + asked)).requests =
      (history outcomes h asked calls).flatMap (·.requests outcomes) := by
  induction calls generalizing h asked with
  | nil => exact ⟨rfl, rfl⟩
  | cons call calls ih =>
    -- What the first call leaves of the outcomes is what the others are played against.
    have hcons : (h.performAll (call :: calls)).run (fun n => outcomes (n + asked)) =
        (Event.transcript outcomes ⟨h, call, asked⟩).followedBy
          ((((Event.after outcomes ⟨h, call, asked⟩).performAll calls).run fun n => outcomes
            (n + (asked + (Event.requests outcomes ⟨h, call, asked⟩).length))).map
              fun rest => (Event.reply outcomes ⟨h, call, asked⟩ :: rest.1, rest.2)) := by
      have hshift (k : Nat) : (fun n => outcomes (n + k + asked)) =
          fun n => outcomes (n + (asked + k)) := by
        funext n
        rw [Nat.add_assoc, Nat.add_comm k]
      rw [← Session.run_map, ← hshift]
      exact Session.run_bind (h.perform call) _ _
    obtain ⟨hreplies, hrequests⟩ := ih (Event.after outcomes ⟨h, call, asked⟩)
      (asked + (Event.requests outcomes ⟨h, call, asked⟩).length)
    rw [hcons]
    constructor
    · exact congrArg (Event.reply outcomes ⟨h, call, asked⟩ :: ·) hreplies
    · exact congrArg (Event.requests outcomes ⟨h, call, asked⟩ ++ ·) hrequests

/-! ## The handle through a history -/

variable {outcomes : Nat → Outcome}

/-- After any event, the history goes on as one of its own. -/
theorem history_rest {h : Handle} {asked : Nat} {calls : List Call} {earlier later : List Event}
    {e : Event} (hsplit : history outcomes h asked calls = earlier ++ e :: later) :
    ∃ calls', later = history outcomes (e.after outcomes)
      (e.asked + (e.requests outcomes).length) calls' := by
  induction earlier generalizing h asked calls with
  | nil =>
    cases calls with
    | nil => exact nomatch hsplit
    | cons call calls =>
      obtain ⟨rfl, hlater⟩ := List.cons.inj hsplit
      exact ⟨calls, hlater.symm⟩
  | cons p earlier ih =>
    cases calls with
    | nil => exact nomatch hsplit
    | cons call calls => exact ih (List.cons.inj hsplit).2

/-- The requests made before an event are those of the earlier events. -/
theorem asked_eq {h : Handle} {asked : Nat} {calls : List Call} {earlier later : List Event}
    {e : Event} (hsplit : history outcomes h asked calls = earlier ++ e :: later) :
    e.asked = asked + (earlier.flatMap (·.requests outcomes)).length := by
  induction earlier generalizing h asked calls with
  | nil =>
    cases calls with
    | nil => exact nomatch hsplit
    | cons call calls =>
      obtain ⟨rfl, _⟩ := List.cons.inj hsplit
      rfl
  | cons p earlier ih =>
    cases calls with
    | nil => exact nomatch hsplit
    | cons call calls =>
      obtain ⟨rfl, hrest⟩ := List.cons.inj hsplit
      rw [ih hrest, List.flatMap_cons, List.length_append, Nat.add_assoc]

/-- As long as nothing was told, the handle is the one that the history began with. -/
theorem handle_of_not_told {h : Handle} (hm : h.known = none) {asked : Nat} {calls : List Call}
    {earlier later : List Event} {e : Event}
    (hsplit : history outcomes h asked calls = earlier ++ e :: later)
    (hearlier : ∀ p ∈ earlier, ¬ p.Told outcomes) : e.handle = h := by
  induction earlier generalizing asked calls with
  | nil =>
    cases calls with
    | nil => exact nomatch hsplit
    | cons call calls =>
      obtain ⟨rfl, _⟩ := List.cons.inj hsplit
      rfl
  | cons p earlier ih =>
    cases calls with
    | nil => exact nomatch hsplit
    | cons call calls =>
      obtain ⟨rfl, hrest⟩ := List.cons.inj hsplit
      obtain ⟨hp, hearlier⟩ := List.forall_mem_cons.mp hearlier
      rw [Event.after_of_not_told outcomes hm hp] at hrest
      exact ih hrest hearlier

/-- A handle that knows its metadata is the same at every event. -/
theorem handle_of_known {h : Handle} {m : Metadata} (hm : h.known = some m) {asked : Nat}
    {calls : List Call} {e : Event} (he : e ∈ history outcomes h asked calls) : e.handle = h := by
  induction calls generalizing asked with
  | nil => exact absurd he List.not_mem_nil
  | cons call calls ih =>
    have hafter := Event.after_of_known outcomes (e := ⟨h, call, asked⟩) hm
    rcases List.mem_cons.mp he with hhead | htail
    · rw [hhead]
    · rw [hafter] at htail
      exact ih htail

/-- At every event, the handle is on the data source and the client that it began with. -/
theorem handle_source {h : Handle} {asked : Nat} {calls : List Call} {e : Event}
    (he : e ∈ history outcomes h asked calls) :
    e.handle.name = h.name ∧ e.handle.client = h.client := by
  induction calls generalizing h asked with
  | nil => exact absurd he List.not_mem_nil
  | cons call calls ih =>
    rcases List.mem_cons.mp he with hhead | htail
    · rw [hhead]; exact ⟨rfl, rfl⟩
    · obtain ⟨hname, hclient⟩ := ih htail
      obtain ⟨hname', hclient'⟩ := Event.after_source outcomes ⟨h, call, asked⟩
      exact ⟨hname.trans hname', hclient.trans hclient'⟩

/-- Once something was told, every later event finds the handle that knows it. -/
theorem known_of_first_told {h : Handle} (hm : h.known = none) {asked : Nat} {calls : List Call}
    {before between later : List Event} {first e : Event}
    (hsplit : history outcomes h asked calls = before ++ first :: between ++ e :: later)
    (hfirst : first.Told outcomes) (hbefore : ∀ p ∈ before, ¬ p.Told outcomes) :
    ∃ m, (outcomes first.asked).read Metadata.ofText? = .ok m ∧ e.handle.known = some m := by
  rw [List.append_assoc, List.cons_append] at hsplit
  have hhandle : first.handle = h := handle_of_not_told hm hsplit hbefore
  obtain ⟨m, hread, hknown⟩ := Event.known_of_told outcomes (by rw [hhandle, hm]) hfirst
  obtain ⟨calls', hrest⟩ := history_rest hsplit
  have he : e ∈ between ++ e :: later := List.mem_append_right _ List.mem_cons_self
  rw [hrest] at he
  exact ⟨m, hread, by rw [handle_of_known hknown he, hknown]⟩

/-- **Metadata are fetched until they are known, and then never again.**  Let any calls be made on a
new handle, against any outcomes.  A call that asks about the data source makes one request if no
earlier call was told anything, and gives back what the outcome of that request gives, an error
included.  After the first call that was told something, it makes none and gives back what that one
fetched.  A query is sent as the client sends it, on the source of the handle, and leaves the handle
as it was. -/
theorem fetched_until_known (source : String) (client : Client) (outcomes : Nat → Outcome)
    (calls : List Call) :
    ((((ofSource source client).performAll calls).run outcomes).value.1 =
        (history outcomes (ofSource source client) 0 calls).map (·.reply outcomes) ∧
      (((ofSource source client).performAll calls).run outcomes).requests =
        (history outcomes (ofSource source client) 0 calls).flatMap (·.requests outcomes)) ∧
    ∀ earlier e later,
      history outcomes (ofSource source client) 0 calls = earlier ++ e :: later →
      e.asked = (earlier.flatMap (·.requests outcomes)).length ∧
      (∀ aspect, e.call = .look aspect →
        ((∀ p ∈ earlier, ¬ p.Told outcomes) →
          e.requests outcomes = [client.fetching (Text.lastPiece '/' source)] ∧
          ∃ result, (outcomes e.asked).Gives Metadata.ofText? result ∧
            e.reply outcomes = aspect.view result) ∧
        ∀ before first between, earlier = before ++ first :: between → first.Told outcomes →
          (∀ p ∈ before, ¬ p.Told outcomes) →
          e.requests outcomes = [] ∧
          ∃ m, (outcomes first.asked).Gives Metadata.ofText? (.ok m) ∧
            e.reply outcomes = aspect.view (.ok m)) ∧
      ∀ q, e.call = .query q →
        e.transcript outcomes = ((client.send (q.onSource (Text.lastPiece '/' source))).run
          fun n => outcomes (n + e.asked)).map fun rows => (.rows rows, e.handle) := by
  refine ⟨run_performAll outcomes (ofSource source client) 0 calls, ?_⟩
  intro earlier e later hsplit
  refine ⟨(asked_eq hsplit).trans (Nat.zero_add _), ?_, ?_⟩
  · intro aspect hcall
    constructor
    · intro hearlier
      -- Nobody was told anything, so the handle is as it was made.
      have hhandle := handle_of_not_told rfl hsplit hearlier
      have hunknown : e.handle.known = none := by rw [hhandle]; rfl
      have htranscript := Event.transcript_of_unknown outcomes hunknown hcall
      refine ⟨?_, _, (outcomes e.asked).gives_read Metadata.ofText?, ?_⟩
      · rw [Event.requests, htranscript, hhandle]; rfl
      · rw [Event.reply, htranscript]
    · intro before first between hbetween hfirst hbefore
      -- The first call that was told something has filled the handle for good.
      rw [hbetween] at hsplit
      obtain ⟨m, hread, hknown⟩ := known_of_first_told rfl hsplit hfirst hbefore
      have htranscript := Event.transcript_of_known outcomes hknown hcall
      have hgives := (outcomes first.asked).gives_read Metadata.ofText?
      rw [hread] at hgives
      refine ⟨?_, m, hgives, ?_⟩
      · rw [Event.requests, htranscript]
      · rw [Event.reply, htranscript]
  · intro q hcall
    have he : e ∈ history outcomes (ofSource source client) 0 calls := by
      rw [hsplit]; exact List.mem_append_right _ List.mem_cons_self
    obtain ⟨hname, hclient⟩ := handle_source he
    rw [Event.transcript_of_query outcomes hcall, hname, hclient]
    rfl

/-- A broker that is out of reach, refuses, answers a query, describes a data source, is out of
reach once more, and from then on describes another data source. -/
def wakingBroker : Nat → Outcome
  | 0 => .silence
  | 1 => .answer 503 "starting"
  | 2 => .answer 200 "[]"
  | 3 => .answer 200 "\x7b\"dimensions\":[\"city\"],\"metrics\":[\"clicks\"]\x7d"
  | 4 => .silence
  | _ => .answer 200 "\x7b\"dimensions\":[\"user\"]\x7d"

/-- A new handle on the orders. -/
def ordersHandle : Handle := ofSource "shop/orders" Client.localClient

/-- The same handle when it knows what `wakingBroker` says first. -/
def knowingHandle : Handle := { ordersHandle with known := some ⟨["city"], ["clicks"]⟩ }

/-- The calls are answered from the fourth on; the query between the fetches counts for nothing, and
the last call is not told about the other data source. -/
theorem wakingBroker_fetched :
    history wakingBroker ordersHandle 0 [.look .dimensions, .look .metadata, .query Client.orders,
        .look .metrics, .query Client.orders, .look .dimensions] =
      [⟨ordersHandle, .look .dimensions, 0⟩, ⟨ordersHandle, .look .metadata, 1⟩,
          ⟨ordersHandle, .query Client.orders, 2⟩] ++
        ⟨ordersHandle, .look .metrics, 3⟩ :: [⟨knowingHandle, .query Client.orders, 4⟩] ++
        ⟨knowingHandle, .look .dimensions, 5⟩ :: [] ∧
    Event.requests wakingBroker ⟨ordersHandle, .look .metadata, 1⟩ =
      [Client.localClient.fetching "orders"] ∧
    Event.reply wakingBroker ⟨ordersHandle, .look .metadata, 1⟩ =
      .metadata (.error (.refused 503 "starting")) ∧
    Event.requests wakingBroker ⟨knowingHandle, .look .dimensions, 5⟩ = [] ∧
    Event.reply wakingBroker ⟨knowingHandle, .look .dimensions, 5⟩ = .names (.ok ["city"]) := by
  have hhistory : history wakingBroker ordersHandle 0 [.look .dimensions, .look .metadata,
        .query Client.orders, .look .metrics, .query Client.orders, .look .dimensions] =
      [⟨ordersHandle, .look .dimensions, 0⟩, ⟨ordersHandle, .look .metadata, 1⟩,
          ⟨ordersHandle, .query Client.orders, 2⟩] ++
        ⟨ordersHandle, .look .metrics, 3⟩ :: [⟨knowingHandle, .query Client.orders, 4⟩] ++
        ⟨knowingHandle, .look .dimensions, 5⟩ :: [] := rfl
  have hfirst : ¬ Event.Told wakingBroker ⟨ordersHandle, .look .dimensions, 0⟩ :=
    Bool.false_ne_true
  have hearlier : ∀ p ∈ [(⟨ordersHandle, .look .dimensions, 0⟩ : Event),
      ⟨ordersHandle, .look .metadata, 1⟩, ⟨ordersHandle, .query Client.orders, 2⟩],
      ¬ p.Told wakingBroker := by
    rw [List.forall_mem_cons, List.forall_mem_cons, List.forall_mem_singleton]
    exact ⟨hfirst, Bool.false_ne_true, Bool.false_ne_true⟩
  obtain ⟨_, hevents⟩ := fetched_until_known "shop/orders" Client.localClient wakingBroker
    [.look .dimensions, .look .metadata, .query Client.orders, .look .metrics,
      .query Client.orders, .look .dimensions]
  obtain ⟨_, hlook, _⟩ := hevents [⟨ordersHandle, .look .dimensions, 0⟩]
    ⟨ordersHandle, .look .metadata, 1⟩ _ hhistory
  obtain ⟨hunknown, _⟩ := hlook .metadata rfl
  obtain ⟨hrequests, result, hgives, hreply⟩ :=
    hunknown (by rw [List.forall_mem_singleton]; exact hfirst)
  obtain ⟨_, hlook', _⟩ := hevents _ _ _ hhistory
  obtain ⟨_, hknown⟩ := hlook' .dimensions rfl
  obtain ⟨hrequests', m, hgives', hreply'⟩ := hknown _ _ _ rfl rfl hearlier
  refine ⟨hhistory, hrequests, ?_, hrequests', ?_⟩
  · rw [hreply]
    have hgives : (Outcome.answer 503 "starting").Gives Metadata.ofText? result := hgives
    cases hgives with
    | refused h => rfl
  · rw [hreply']
    have hgives' : (wakingBroker 3).Gives Metadata.ofText? (.ok m) := hgives'
    cases hgives' with
    | value h =>
      have hm : m = ⟨["city"], ["clicks"]⟩ := Option.some.inj (h.symm.trans rfl)
      rw [hm]; rfl

end Handle
end BrokerQuery
