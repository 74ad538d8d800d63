import BrokerQuery.CommandLine.Reader
import BrokerQuery.Proofs.Command.Conditions
import BrokerQuery.Proofs.Text
/-
  What is known of a command line that was accepted.

  Values are judged when they enter a draft, so what the judgement says is true of all values that a
  draft holds: a condition has a value, and the ends of a time range have no blanks around them
  (`QueryArgs.Accepted`).  This is an invariant of reading.

    1. Reading one argument of either kind keeps it (`FilterArg.yields_ofText`,
       `IntervalArg.yields_ofText`).
    2. Each operation on a draft keeps it, up to `Draft.step` and `Draft.fill`.
    3. Both are folded over lists, so the draft of a whole level has it, and so has the command that
       it makes (`accepted_of_parse`).
-/

namespace BrokerQuery

open Fallible (Yields)

/-! ## Arguments -/

/-- Every condition that is read has a value. -/
theorem FilterArg.yields_ofText (s : String) :
    Yields (fun a => a.values ≠ []) (FilterArg.ofText s) := by
  unfold ofText
  split
  · exact .error
  · next left right _ =>
    show Yields _ (if Text.trimChars left = [] then _ else if readValues right = [] then _ else _)
    split
    · exact .error
    · split
      · exact .error
      · next hvalues => exact .ok hvalues

/-- The ends of a time range have no blanks around them. -/
def IntervalArg.Trimmed (range : IntervalArg) : Prop :=
  Text.trim range.start = range.start ∧ Text.trim range.stop = range.stop

/-- The ends of every time range that is read are trimmed. -/
theorem IntervalArg.yields_ofText (s : String) : Yields Trimmed (IntervalArg.ofText s) := by
  unfold ofText
  split
  · exact .error
  · next left right _ =>
    show Yields _ (if Text.trimChars left = [] ∨ Text.trimChars right = [] then _ else _)
    split
    · exact .error
    · exact .ok ⟨Text.trim_ofList_trimChars left, Text.trim_ofList_trimChars right⟩

/-- What reading makes sure of. -/
structure QueryArgs.Accepted (args : QueryArgs) : Prop where
  filled : args.Filled
  trimmed : ∀ range, args.interval = some range → range.Trimmed

/-! ## Drafts -/

namespace Draft

/-- A draft that holds accepted values only. -/
def Accepted (d : Draft) : Prop := d.args.Accepted

theorem accepted_empty : Accepted {} where
  filled := ⟨fun _ ha => absurd ha List.not_mem_nil, fun _ ha => absurd ha List.not_mem_nil⟩
  trimmed := fun range h => absurd h (Option.some_ne_none range).symm

variable {d : Draft} (h : d.Accepted)
include h

/-- A value that enters a draft was judged. -/
theorem yields_put (value : String) (s : Setting) : Yields Accepted (d.put value s) := by
  cases s with
  | brokerUrl | timeZone => exact .ok h
  | timeoutSecs => exact Yields.any.map fun _ _ => h
  | config =>
    show Yields _ (if value = "" then _ else _)
    split
    · exact .error
    · exact .ok h
  | groupBy | longSum | doubleSum | count | granularity => exact .ok ⟨h.filled, h.trimmed⟩
  | filter =>
    refine (FilterArg.yields_ofText value).mapError.map fun a ha => ⟨⟨?_, h.filled.2⟩, h.trimmed⟩
    exact List.forall_mem_append.mpr ⟨h.filled.1, List.forall_mem_singleton.mpr ha⟩
  | exclude =>
    refine (FilterArg.yields_ofText value).mapError.map fun a ha => ⟨⟨h.filled.1, ?_⟩, h.trimmed⟩
    exact List.forall_mem_append.mpr ⟨h.filled.2, List.forall_mem_singleton.mpr ha⟩
  | interval =>
    refine (IntervalArg.yields_ofText value).mapError.map fun range hrange => ⟨h.filled, ?_⟩
    intro range' hsome
    rw [← Option.some.inj hsome]; exact hrange

/-- A draft stays accepted, since every value that is set was read. -/
theorem yields_set (s : Setting) (value : String) : Yields Accepted (d.set s value) := by
  unfold set
  split
  · exact .error
  · exact yields_put h value s

theorem yields_turnOn (s : Switch) : Yields Accepted (d.turnOn s) := by
  cases s with
  | help | version => exact .error
  | noCache =>
    show Yields _ (if d.args.noCache = true then _ else _)
    split
    · exact .error
    · exact .ok ⟨h.filled, h.trimmed⟩
  | dryRun =>
    show Yields _ (if d.args.dryRun = true then _ else _)
    split
    · exact .error
    · exact .ok ⟨h.filled, h.trimmed⟩

theorem yields_settle : Yields Accepted d.settle := by
  unfold settle
  split
  · exact .ok h
  · exact .error
  · next s value _ => exact yields_set (d := { d with pending := none }) h s value

theorem yields_plain (level : Level) (arg : String) : Yields Accepted (d.plain level arg) := by
  unfold plain
  split
  · exact .error
  · split
    · exact (yields_settle h).bind fun d' h' => .ok h'
    · exact .error

theorem yields_option (value : Option String) (found : Option (Setting ⊕ Switch)) :
    Yields Accepted (d.option value found) := by
  match found, value with
  | none, _ => exact .error
  | some (.inl s), some v => exact (yields_settle h).bind fun d' h' => yields_set h' s v
  | some (.inl s), none => exact (yields_settle h).bind fun d' h' => .ok h'
  | some (.inr s), some v => exact .error
  | some (.inr s), none => exact (yields_settle h).bind fun d' h' => yields_turnOn h' s

theorem yields_long (level : Level) (cs : List Char) : Yields Accepted (d.long level cs) := by
  unfold long
  split <;> exact yields_option h _ _

theorem yields_short (level : Level) (letter : Char) (cs : List Char) :
    Yields Accepted (d.short level letter cs) := by
  unfold short
  split <;> exact yields_option h _ _

/-- One more argument. -/
theorem yields_step (level : Level) (arg : String) : Yields Accepted (d.step level arg) := by
  unfold step
  split
  · exact yields_plain h level arg
  · split
    · exact .ok h
    · exact yields_long h level _
    · exact yields_short h level _ _
    · split
      · exact .ok h
      · exact yields_plain h level arg

/-- What the environment stands in for is judged like an argument. -/
theorem yields_fill (env : Environment) (level : Level) : Yields Accepted (d.fill env level) := by
  refine Yields.foldlM (fun d s h => ?_) h _
  split
  · split
    · exact .ok h
    · exact yields_set h s _
  · exact .ok h

end Draft

/-! ## Command lines -/

namespace CommandLine

/-- Whatever a command is read to is accepted, too. -/
theorem yields_readCommand (env : Environment) (level : Level) (args : List String) :
    Yields (fun drafts => drafts.2.Accepted) (readCommand env level args) := by
  have hread : Yields Draft.Accepted (args.foldlM (Draft.step level) {}) :=
    Yields.foldlM (fun d arg h => d.yields_step h level arg) Draft.accepted_empty args
  refine hread.bind fun d h => ?_
  refine (Draft.yields_settle h).bind fun written hwritten => ?_
  refine (Draft.yields_fill hwritten env level).bind fun filled hfilled => ?_
  split
  · exact .error
  · exact .ok hfilled

/-- The arguments of every query that is asked for are accepted. -/
theorem accepted_of_parse {env : Environment} {args : List String} {line : CommandLine}
    (h : parse env args = .ok line) {queryArgs : QueryArgs}
    (hquery : line.command = .query queryArgs) : queryArgs.Accepted := by
  unfold parse at h
  obtain ⟨⟨top, chosen⟩, _, h⟩ := Fallible.of_bind_eq_ok h
  cases chosen with
  | none =>
    -- Without a command there is no command line, whatever the top level holds.
    obtain ⟨_, _, h⟩ := Fallible.of_bind_eq_ok h
    obtain ⟨_, _, h⟩ := Fallible.of_bind_eq_ok h
    exact nomatch h
  | some call =>
    obtain ⟨level, rest⟩ := call
    obtain ⟨⟨written, filled⟩, hread, h⟩ := Fallible.of_bind_eq_ok h
    obtain ⟨_, _, h⟩ := Fallible.of_bind_eq_ok h
    obtain ⟨_, _, h⟩ := Fallible.of_bind_eq_ok h
    have hfilled : filled.args.Accepted := yields_readCommand env level rest _ hread
    have hcommand : commandOf level filled = .query queryArgs := by
      rw [← hquery, ← Except.ok.inj h]
    cases level with
    | query =>
      rw [← Command.query.inj hcommand]
      exact ⟨hfilled.filled, hfilled.trimmed⟩
    | top | dataSources | describe => exact nomatch hcommand

end CommandLine
end BrokerQuery
