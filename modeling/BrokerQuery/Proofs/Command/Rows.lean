import BrokerQuery.Proofs.Command.Effects
import BrokerQuery.Proofs.Json.Rereading
import BrokerQuery.Proofs.Json.Visible
/-
  The rows that a query prints.

  The last answer decides about a query, so there are rows to print iff that answer has rows in it
  (`Outcome.Delivers`), and then they are printed in their order (`Client.exists_last_reported`).

  A row is printed as a text without space, which is one line because no text of a value has a
  control character in it (`Outcome.Delivers.on_lines`); so cutting the output at its line feeds gives
  the lines (`pieces_printedLines`).  Whoever reads the lines has the rows again, as long as they have
  no floating-point numbers in them: the answer was read, so all else in it can be read back.
-/

namespace BrokerQuery

/-- The outcome is an answer with status 200 whose body is read as an array of these objects. -/
def Outcome.Delivers (o : Outcome) (objects : List (List (String × Json))) : Prop :=
  ∃ body, o = .answer 200 body ∧ Json.ofText? body = some (.array (objects.map .object))

/-- An outcome is read as rows iff it delivers them. -/
theorem Outcome.read_rows_eq_ok_iff (o : Outcome) (rows : List Row) :
    o.read Client.rowsOfText? = .ok rows ↔
      ∃ objects, o.Delivers objects ∧ rows = objects.map Row.mk := by
  simp only [read_eq_ok_iff, Client.rowsOfText?_eq_some_iff]
  constructor
  · rintro ⟨body, ho, objects, hbody, hrows⟩
    exact ⟨objects, ⟨body, ho, hbody⟩, hrows⟩
  · rintro ⟨objects, ⟨body, ho, hbody⟩, hrows⟩
    exact ⟨body, ho, objects, hbody, hrows⟩

/-- The result of sending a query that can be written is what the last outcome is read as. -/
theorem Client.exists_last_outcome (c : Client) {q : Query} {v : Json} (h : q.toJson = .ok v)
    (outcomes : Nat → Outcome) :
    ∃ last, ((c.send q).run outcomes).requests.length = last + 1 ∧
      ((c.send q).run outcomes).value = (outcomes last).read rowsOfText? := by
  by_cases hretry : (outcomes 0).StaleCache ∧ q.useCache ≠ some false
  · obtain ⟨w, hcached, _⟩ := Query.toJson_cached h
    rw [run_send_of_retry h hcached hretry]
    exact ⟨1, rfl, rfl⟩
  · rw [run_send_of_not_retry h hretry]
    exact ⟨0, rfl, rfl⟩

/-! ## Lines -/

/-- Lines without line feeds of their own are what is between the line feeds of the output; behind
the last one there is nothing. -/
theorem pieces_printedLines {lines : List String} (h : ∀ line ∈ lines, '\n' ∉ line.toList) :
    Text.pieces '\n' (printedLines lines).toList = lines.map String.toList ++ [[]] := by
  induction lines with
  | nil => rfl
  | cons line lines ih =>
    obtain ⟨hline, hlines⟩ := List.forall_mem_cons.mp h
    have htext : (printedLines (line :: lines)).toList =
        line.toList ++ '\n' :: (printedLines lines).toList := by
      show (line ++ "\n" ++ printedLines lines).toList = _
      rw [String.toList_append, String.toList_append, List.append_assoc]
      rfl
    rw [htext, Text.pieces_append hline (Text.pieces_cons_of_eq '\n' _), ih hlines, List.append_nil]
    rfl

theorem Json.Visible.no_lineFeed {cs : List Char} (h : Json.Visible cs) : '\n' ∉ cs :=
  fun hmem => absurd (h '\n' hmem) (by decide)

namespace Transcript

variable {t : Transcript (Except ε α)} {onError : ε → CommandError} {lines : α → List String}

/-- A result is printed behind what was printed before. -/
theorem reported_of_ok {a : α} (h : t.value = .ok a) :
    t.reported onError lines =
      { t with value := .ok (), printed := t.printed ++ printedLines (lines a) } := by
  rw [reported, h]

/-- A report is a success iff there is a result to report. -/
theorem value_reported_eq_ok_iff :
    (t.reported onError lines).value = .ok () ↔ ∃ a, t.value = .ok a := by
  cases h : t.value with
  | error e =>
    rw [reported, h]
    exact iff_of_false nofun nofun
  | ok a =>
    rw [reported_of_ok h]
    exact iff_of_true rfl ⟨a, rfl⟩

end Transcript

/-- The text of a row has no control characters, whatever stands in its strings. -/
theorem Row.visible_text (r : Row) : Json.Visible r.text.toList := by
  rw [text, Json.compact, String.toList_ofList]
  exact Json.visible_compactChars r.toJson

/-- The lines of rows are what is between the line feeds. -/
theorem Row.pieces_printedLines (rows : List Row) :
    Text.pieces '\n' (printedLines (rows.map text)).toList =
      (rows.map text).map String.toList ++ [[]] := by
  refine BrokerQuery.pieces_printedLines fun line hline => ?_
  obtain ⟨row, _, rfl⟩ := List.mem_map.mp hline
  exact row.visible_text.no_lineFeed

/-- The rows of an answer, each on a line of its own. -/
theorem Outcome.Delivers.on_lines {o : Outcome} {objects : List (List (String × Json))}
    (h : o.Delivers objects) :
    List.Forall₂ (fun fields line => Json.Visible line.toList ∧
        ((Json.object fields).Integral → Json.ofText? line = some (.object fields)))
      objects ((objects.map Row.mk).map Row.text) := by
  obtain ⟨body, _, hbody⟩ := h
  rw [List.map_map]
  refine Json.forall₂_map fun fields hfields => ⟨(Row.mk fields).visible_text, fun hintegral => ?_⟩
  have hitem : Json.object fields ∈ objects.map Json.object := List.mem_map_of_mem hfields
  exact Json.ofText?_compact_of_mem hbody hitem hintegral

/-- What is reported of a query that can be written: the rows of the last answer, if there are any. -/
theorem Client.exists_last_reported (c : Client) {q : Query} {v : Json} (h : q.toJson = .ok v)
    (outcomes : Nat → Outcome) {t : Transcript (Except CommandError Unit)}
    (ht : t = ((c.send q).run outcomes).reported (.query q.source) (List.map Row.text)) :
    ∃ last, t.requests.length = last + 1 ∧
      (t.value = .ok () ↔ ∃ objects, (outcomes last).Delivers objects) ∧
      ∀ objects, (outcomes last).Delivers objects →
        t.printed = printedLines ((objects.map Row.mk).map Row.text) := by
  obtain ⟨last, hlast, hvalue⟩ := c.exists_last_outcome h outcomes
  refine ⟨last, ?_, ?_, ?_⟩
  · rw [ht, Transcript.requests_reported, hlast]
  · rw [ht, Transcript.value_reported_eq_ok_iff, hvalue]
    constructor
    · rintro ⟨rows, hrows⟩
      obtain ⟨objects, hobjects, _⟩ := ((outcomes last).read_rows_eq_ok_iff rows).mp hrows
      exact ⟨objects, hobjects⟩
    · rintro ⟨objects, hobjects⟩
      exact ⟨_, ((outcomes last).read_rows_eq_ok_iff _).mpr ⟨objects, hobjects, rfl⟩⟩
  · intro objects hobjects
    have hrows := ((outcomes last).read_rows_eq_ok_iff _).mpr ⟨objects, hobjects, rfl⟩
    have hsilent := (c.run_send_of_ok h outcomes).1
    rw [ht, Transcript.reported_of_ok (hvalue.trans hrows)]
    show ((c.send q).run outcomes).printed ++ _ = _
    rw [hsilent, String.empty_append]

namespace Command

/-- A query that is not a dry run fails without a request, or sends what was built and reports the
result. -/
theorem run_query {args : QueryArgs} (hdry : args.dryRun = false) (clock : Clock) (config : Config)
    (outcomes : Nat → Outcome) :
    (∃ e, ((query args).execute clock config).run outcomes = ⟨.error e, [], [], ""⟩) ∨
    ∃ client q, Client.ofUrl config.brokerUrl config.timeoutSecs = .ok client ∧
      args.build clock config.defaults = .ok q ∧
      ((query args).execute clock config).run outcomes =
        ((client.send q).run outcomes).reported (.query q.source) (List.map Row.text) := by
  have hdry' : (query args).isDryRun = false := hdry
  cases hbuild : args.build clock config.defaults with
  | error e =>
    obtain ⟨e', hfail⟩ := execute_of_not_build hdry' hbuild
    rw [hfail]
    exact .inl ⟨e', rfl⟩
  | ok q =>
    cases hclient : Client.ofUrl config.brokerUrl config.timeoutSecs with
    | error e =>
      rw [execute_of_not_client hdry' clock hclient]
      exact .inl ⟨_, rfl⟩
    | ok client =>
      rw [execute_of_client hdry' clock hclient, withClient, run_sendQuery_of_build hbuild]
      exact .inr ⟨client, q, rfl, rfl, rfl⟩

/-- **One line per row.**  A query that is not a dry run succeeds iff its last request was answered
with rows.  Then it prints one line for each row, in order, and nothing else: the lines are what is
between the line feeds of the output.  No line has a control character in it, and a row without
floating-point numbers is read back from its line. -/
theorem rows_on_lines {args : QueryArgs} (hdry : args.dryRun = false) (clock : Clock)
    (config : Config) (outcomes : Nat → Outcome) :
    let t := ((query args).execute clock config).run outcomes
    (t.value = .ok () ↔ ∃ last objects, t.requests.length = last + 1 ∧
      (outcomes last).Delivers objects) ∧
    ∀ last objects, t.requests.length = last + 1 → (outcomes last).Delivers objects →
      ∃ lines, t.printed = printedLines lines ∧
        Text.pieces '\n' t.printed.toList = lines.map String.toList ++ [[]] ∧
        List.Forall₂ (fun fields line => Json.Visible line.toList ∧
          ((Json.object fields).Integral → Json.ofText? line = some (.object fields)))
          objects lines := by
  intro t
  rcases run_query hdry clock config outcomes with ⟨e, hrun⟩ | ⟨client, q, _, hbuild, hrun⟩
  · -- Nothing was sent, so there is no answer.
    have ht : t = ⟨.error e, [], [], ""⟩ := hrun
    rw [ht]
    refine ⟨iff_of_false nofun ?_, ?_⟩
    · rintro ⟨last, objects, hlength, _⟩
      exact nomatch hlength
    · intro last objects hlength
      exact nomatch hlength
  · obtain ⟨v, hv, _⟩ := QueryArgs.toJson_of_build hbuild
    obtain ⟨last, hlength, hvalue, hprinted⟩ := client.exists_last_reported hv outcomes hrun
    refine ⟨?_, ?_⟩
    · rw [hvalue, hlength]
      constructor
      · rintro ⟨objects, hobjects⟩
        exact ⟨last, objects, rfl, hobjects⟩
      · rintro ⟨last', objects, hlast', hobjects⟩
        obtain rfl : last = last' := Nat.succ.inj hlast'
        exact ⟨objects, hobjects⟩
    · intro last' objects hlast' hobjects
      -- The number of requests says which outcome was the last one.
      obtain rfl : last = last' := Nat.succ.inj (hlength.symm.trans hlast')
      refine ⟨_, hprinted objects hobjects, ?_, hobjects.on_lines⟩
      rw [hprinted objects hobjects, Row.pieces_printedLines]

/-- All orders of today. -/
def ordersOfToday : QueryArgs where
  source := "shop/orders"

/-- Two orders: a name over two lines with a number of 64 bits, and a control character inside of
two arrays. -/
def twoOrders : List (List (String × Json)) :=
  [[("a\nb", .int 18446744073709551615)], [("x", .array [.array [.string "\x01"]])]]

/-- A broker that complains of its cache once, and then has two orders. -/
def recoveringBroker : Nat → Outcome
  | 0 => .answer 500 "Cannot have a null result!"
  | _ => .answer 200 (Json.array (twoOrders.map .object)).compact

/-- The line break in the name does not break the line, and both orders are read back. -/
theorem recoveringBroker_printed :
    let t := ((query ordersOfToday).execute (.ofSeconds 0) plainConfig).run recoveringBroker
    t.value = .ok () ∧ ∃ first second, t.printed = printedLines [first, second] ∧
      Text.pieces '\n' t.printed.toList = [first.toList, second.toList, []] ∧
      Json.ofText? first = some (.object [("a\nb", .int 18446744073709551615)]) ∧
      Json.ofText? second = some (.object [("x", .array [.array [.string "\x01"]])]) := by
  have hdry : ordersOfToday.dryRun = false := rfl
  obtain ⟨hok, hlines⟩ := rows_on_lines hdry (.ofSeconds 0) plainConfig recoveringBroker
  have hlength : (((query ordersOfToday).execute (.ofSeconds 0) plainConfig).run
      recoveringBroker).requests.length = 2 := by decide +kernel
  have hreadable (room : Nat) : Json.Readable (room + 4) (.array (twoOrders.map .object)) := by
    refine .array (List.forall_mem_cons.mpr ⟨?_, List.forall_mem_singleton.mpr ?_⟩)
    · refine .object (by decide) (List.forall_mem_singleton.mpr (.int ?_))
      unfold Json.Has64Bits
      omega
    · refine .object (by decide) (List.forall_mem_singleton.mpr (.array ?_))
      exact List.forall_mem_singleton.mpr (.array (List.forall_mem_singleton.mpr (.string _)))
  have hdelivers : (recoveringBroker 1).Delivers twoOrders :=
    ⟨_, rfl, (hreadable 123).ofText?_compact⟩
  obtain ⟨lines, hprinted, hpieces, hrows⟩ := hlines 1 twoOrders hlength hdelivers
  obtain ⟨first, _, ⟨_, hfirst⟩, hrest, rfl⟩ := List.forall₂_cons_left_iff.mp hrows
  obtain ⟨second, _, ⟨_, hsecond⟩, hnil, rfl⟩ := List.forall₂_cons_left_iff.mp hrest
  rw [List.forall₂_nil_left_iff.mp hnil] at hprinted hpieces
  have hnumber : (Json.object [("a\nb", .int 18446744073709551615)]).Integral :=
    .object (List.forall_mem_singleton.mpr (.int _))
  have hnested : (Json.array [.array [.string "\x01"]]).Integral :=
    .array (List.forall_mem_singleton.mpr (.array (List.forall_mem_singleton.mpr (.string _))))
  have hfields : (Json.object [("x", .array [.array [.string "\x01"]])]).Integral :=
    .object (List.forall_mem_singleton.mpr hnested)
  have hsucceeds := hok.mpr ⟨1, twoOrders, hlength, hdelivers⟩
  exact ⟨hsucceeds, first, second, hprinted, hpieces, hfirst hnumber, hsecond hfields⟩

end Command
end BrokerQuery
