import BrokerQuery.Proofs.CommandLine.Drafts
/-
  Options read in the order in which they are written.

  An `Occurrence` is one option as it is written, with its text.  An occurrence that a level takes is
  one step of the reader: the text goes to its setting (`step_setting`), and the switch is turned on
  (`step_switch`).  The invariant is that a draft `Holds` exactly the occurrences that were read.  One
  step keeps it (`exists_step`), and so does a run, after the command (`exists_run`) and in front of it
  (`exists_readTop`).  The order of different options plays no part.
-/

namespace BrokerQuery

/-! ## Occurrences of options -/

/-- An option as it is written: a setting with the text of a value, or a switch. -/
inductive Occurrence
  | setting (s : Setting) (text : String)
  | switch (w : Switch)
deriving DecidableEq

namespace Occurrence

/-- The word of an option. -/
def word : Occurrence → String
  | .setting s _ => s.name
  | .switch w => w.name

/-- What comes after the word. -/
def tail : Occurrence → String
  | .setting _ text => "=" ++ text
  | .switch _ => ""

/-- The argument that writes an option, `--name=value` or `--name`. -/
def argument (o : Occurrence) : String := "--" ++ o.word ++ o.tail

/-- The text of an occurrence of a setting. -/
def textOf? (s : Setting) : Occurrence → Option String
  | .setting t text => if t = s then some text else none
  | .switch _ => none

/-- The texts of a setting, in their order. -/
def textsOf (s : Setting) (os : List Occurrence) : List String := os.filterMap (textOf? s)

theorem toList_argument (o : Occurrence) :
    o.argument.toList = '-' :: '-' :: (o.word.toList ++ o.tail.toList) := by
  rw [argument, String.toList_append, String.toList_append, List.append_assoc]; rfl

/-- An option is no command, and it is not `help`. -/
theorem argument_ne (o : Occurrence) {s : String} (h : s.toList.head? ≠ some '-') :
    o.argument ≠ s := by
  rintro rfl
  exact h (by rw [toList_argument]; rfl)

theorem textsOf_append (s : Setting) (os os' : List Occurrence) :
    textsOf s (os ++ os') = textsOf s os ++ textsOf s os' := List.filterMap_append

/-- The texts of a setting are those that it occurs with. -/
theorem mem_textsOf {s : Setting} {text : String} {os : List Occurrence} :
    text ∈ textsOf s os ↔ .setting s text ∈ os := by
  rw [textsOf, List.mem_filterMap]
  constructor
  · rintro ⟨o, ho, htext⟩
    cases o with
    | setting t text' =>
      by_cases ht : t = s
      · rw [textOf?, if_pos ht] at htext
        rw [← ht, ← Option.some.inj htext]; exact ho
      · rw [textOf?, if_neg ht] at htext
        exact nomatch htext
    | switch w => exact nomatch htext
  · exact fun ho => ⟨_, ho, if_pos rfl⟩

theorem textsOf_self (s : Setting) (text : String) : textsOf s [.setting s text] = [text] := by
  simp [textsOf, textOf?]

theorem textsOf_eq_nil {s : Setting} {os : List Occurrence} (h : ∀ text, .setting s text ∉ os) :
    textsOf s os = [] :=
  List.eq_nil_iff_forall_not_mem.mpr fun text htext => h text (mem_textsOf.mp htext)

end Occurrence

open Occurrence (textsOf)

/-- Options that can be written at a level together: the level has them, the texts are read, and
nothing that is given once is there twice.  Help and version are left out. -/
structure Level.Takes (level : Level) (os : List Occurrence) : Prop where
  settings : ∀ s text, .setting s text ∈ os → s ∈ level.settings
  readable : ∀ s text, .setting s text ∈ os → ∃ v, s.read text = .ok v
  once : ∀ s : Setting, s.isSingle = true → (textsOf s os).length ≤ 1
  switches : ∀ w, .switch w ∈ os → w ∈ level.switches ∧ w.Lasts
  switches_once : ∀ w, os.count (.switch w) ≤ 1

/-- A level that takes some occurrences takes those in front. -/
theorem Level.Takes.of_append {level : Level} {os os' : List Occurrence}
    (h : level.Takes (os ++ os')) : level.Takes os where
  settings := fun s text hmem => h.settings s text (List.mem_append_left os' hmem)
  readable := fun s text hmem => h.readable s text (List.mem_append_left os' hmem)
  once := fun s hs => by
    have hle := h.once s hs
    rw [Occurrence.textsOf_append, List.length_append] at hle
    omega
  switches := fun w hmem => h.switches w (List.mem_append_left os' hmem)
  switches_once := fun w => by
    have hle := h.switches_once w
    rw [List.count_append] at hle
    omega

/-! ## One step of the reader -/

namespace Draft

/-- A word of a level is the name of its setting. -/
theorem named_setting {level : Level} {s : Setting} (h : s ∈ level.settings) :
    named level s.name.toList = some (.inl s) := by
  revert h
  cases level <;> cases s <;> decide

theorem named_switch {level : Level} {w : Switch} (h : w ∈ level.switches) :
    named level w.name.toList = some (.inr w) := by
  revert h
  cases level <;> cases w <;> decide

/-- The first equals sign of an argument is the one behind the name. -/
theorem equals_not_mem_name (s : Setting) : '=' ∉ s.name.toList := by
  cases s <;> decide

theorem cut?_switch (w : Switch) : Text.cut? '=' w.name.toList = none := by
  cases w <;> decide

/-- What a level does with an argument that starts with two dashes. -/
theorem step_of_dashes {d : Draft} (htrailing : d.trailing = false) (level : Level) {arg : String}
    {c : Char} {cs : List Char} (harg : arg.toList = '-' :: '-' :: c :: cs) :
    d.step level arg = d.long level (c :: cs) := by
  simp [step, htrailing, harg]

variable {d : Draft} (hpending : d.pending = none) (htrailing : d.trailing = false) {level : Level}
include hpending

theorem settle_of_pending : d.settle = .ok d := by
  rw [settle, hpending]

include htrailing

/-- The argument of a setting sets it. -/
theorem step_setting {s : Setting} (h : s ∈ level.settings) (text : String) :
    d.step level (Occurrence.setting s text).argument = d.set s text := by
  have harg := (Occurrence.setting s text).toList_argument
  have hlong : d.long level (s.name.toList ++ ("=" ++ text).toList) = d.set s text := by
    rw [String.toList_append]
    show d.long level (s.name.toList ++ '=' :: text.toList) = _
    rw [long, Text.cut?_append (equals_not_mem_name s)]
    show d.option (some (String.ofList text.toList)) (named level s.name.toList) = _
    rw [String.ofList_toList, named_setting h]
    show (d.settle >>= fun d => d.set s text) = _
    rw [settle_of_pending hpending]; rfl
  cases hname : s.name.toList with
  | nil => cases s <;> exact absurd hname (by decide)
  | cons c cs =>
    rw [← hlong, hname]
    exact step_of_dashes htrailing level (harg.trans (by rw [Occurrence.word, hname]; rfl))

theorem step_switch {w : Switch} (h : w ∈ level.switches) :
    d.step level (Occurrence.switch w).argument = d.turnOn w := by
  have harg := (Occurrence.switch w).toList_argument
  have hlong : d.long level w.name.toList = d.turnOn w := by
    rw [long, cut?_switch]
    show d.option none (named level w.name.toList) = _
    rw [named_switch h]
    show (d.settle >>= fun d => d.turnOn w) = _
    rw [settle_of_pending hpending]; rfl
  cases hname : w.name.toList with
  | nil => cases w <;> exact absurd hname (by decide)
  | cons c cs =>
    rw [← hlong, hname]
    refine step_of_dashes htrailing level (harg.trans ?_)
    rw [Occurrence.word, hname, Occurrence.tail]
    exact congrArg (fun cs => '-' :: '-' :: cs) (List.append_nil _)

end Draft

/-! ## What was read -/

/-- A draft holds exactly what some occurrences write, and nothing else is going on. -/
structure Draft.Holds (d : Draft) (os : List Occurrence) : Prop where
  values : ∀ s : Setting, (textsOf s os).mapM s.read = .ok (d.values s)
  switches : ∀ w, d.args.isOn w = true ↔ .switch w ∈ os
  source : d.source = none
  pending : d.pending = none
  trailing : d.trailing = false

namespace Draft

theorem holds_empty : Holds {} [] where
  values := fun s => by cases s <;> rfl
  switches := fun w => by cases w <;> decide
  source := rfl
  pending := rfl
  trailing := rfl

/-- Texts that are read one after the other are read together. -/
theorem mapM_read_append {s : Setting} {texts texts' : List String} {vs vs' : List s.Value}
    (h : texts.mapM s.read = .ok vs) (h' : texts'.mapM s.read = .ok vs') :
    (texts ++ texts').mapM s.read = .ok (vs ++ vs') := by
  rw [List.mapM_append, h, h']; rfl

namespace Holds

variable {d : Draft} {os : List Occurrence} (h : d.Holds os)
include h

/-- One more text of a setting is one more value of it. -/
theorem add {s : Setting} (hhas : d.has s = false) {text : String} {v : s.Value}
    (hv : s.read text = .ok v) : (d.add s v).Holds (os ++ [.setting s text]) where
  values := fun t => by
    rw [Occurrence.textsOf_append]
    by_cases ht : t = s
    · subst ht
      have hone : [text].mapM t.read = .ok [v] := by
        rw [List.mapM_cons, hv]; rfl
      rw [Occurrence.textsOf_self, d.values_add_self hhas]
      exact mapM_read_append (h.values t) hone
    · have hother : textsOf t [.setting s text] = [] :=
        Occurrence.textsOf_eq_nil fun text' hmem => by
          cases List.mem_singleton.mp hmem
          exact ht rfl
      rw [hother, List.append_nil, d.values_add_of_ne ht]
      exact h.values t
  switches := fun w => by
    rw [d.isOn_add, h.switches]
    simp
  source := by cases s <;> exact h.source
  pending := by cases s <;> exact h.pending
  trailing := by cases s <;> exact h.trailing

theorem on {w : Switch} (hw : w.Lasts) :
    (d.on w).Holds (os ++ [.switch w]) where
  values := fun s => by
    have hother : textsOf s [.switch w] = [] :=
      Occurrence.textsOf_eq_nil fun text hmem => nomatch List.mem_singleton.mp hmem
    rw [Occurrence.textsOf_append, hother, List.append_nil, d.values_on]
    exact h.values s
  switches := fun w' => by
    rw [d.isOn_on hw, h.switches, List.mem_append, List.mem_singleton, Occurrence.switch.injEq]
  source := by rcases hw with rfl | rfl <;> exact h.source
  pending := by rcases hw with rfl | rfl <;> exact h.pending
  trailing := by rcases hw with rfl | rfl <;> exact h.trailing

/-- A setting that comes once is not there before it comes. -/
theorem has_eq_false {level : Level} {s : Setting} {text : String}
    (htakes : level.Takes (os ++ [.setting s text])) : d.has s = false := by
  rw [d.has_eq]
  cases hsingle : s.isSingle with
  | false => rfl
  | true =>
    have hle := htakes.once s hsingle
    rw [Occurrence.textsOf_append, Occurrence.textsOf_self, List.length_append,
      List.length_singleton] at hle
    have hnil : textsOf s os = [] := List.length_eq_zero_iff.mp (by omega)
    have hvalues := h.values s
    rw [hnil] at hvalues
    rw [← Except.ok.inj hvalues]; rfl

/-- One more occurrence that a level takes is read, and the draft holds it then. -/
theorem exists_step {level : Level} {o : Occurrence} (htakes : level.Takes (os ++ [o])) :
    ∃ d', d.step level o.argument = .ok d' ∧ d'.Holds (os ++ [o]) := by
  have hmem : o ∈ os ++ [o] := List.mem_append_right os List.mem_cons_self
  cases o with
  | setting s text =>
    obtain ⟨v, hv⟩ := htakes.readable s text hmem
    have hhas := h.has_eq_false htakes
    refine ⟨d.add s v, ?_, h.add hhas hv⟩
    rw [step_setting h.pending h.trailing (htakes.settings s text hmem), set, hhas,
      put_eq_map_add, hv]
    rfl
  | switch w =>
    obtain ⟨hlevel, hw⟩ := htakes.switches w hmem
    have hoff : d.args.isOn w = false := by
      have hle := htakes.switches_once w
      rw [List.count_append, List.count_singleton_self] at hle
      have hcount : os.count (.switch w) = 0 := by omega
      exact Bool.eq_false_iff.mpr (mt (h.switches w).mp (List.count_eq_zero.mp hcount))
    refine ⟨d.on w, ?_, h.on hw⟩
    rw [step_switch h.pending h.trailing hlevel]
    exact d.turnOn_eq_on hw hoff

/-- All occurrences that a level takes are read, in any order. -/
theorem exists_run {level : Level} {more : List Occurrence} (htakes : level.Takes (os ++ more)) :
    ∃ d', (more.map Occurrence.argument).foldlM (step level) d = .ok d' ∧
      d'.Holds (os ++ more) := by
  induction more generalizing d os with
  | nil => exact ⟨d, rfl, by rw [List.append_nil]; exact h⟩
  | cons o more ih =>
    rw [List.append_cons os] at htakes ⊢
    obtain ⟨d', hstep, hd'⟩ := h.exists_step htakes.of_append
    obtain ⟨d'', hrun, hd''⟩ := ih hd' htakes
    refine ⟨d'', ?_, hd''⟩
    rw [List.map_cons, List.foldlM_cons, hstep]
    exact hrun

/-- The same in front of the command: reading goes on until the name of a command comes. -/
theorem exists_readTop {more : List Occurrence} (htakes : Level.top.Takes (os ++ more))
    {name : String} {level : Level} (hname : Level.ofCommand? name = some level)
    (rest : List String) :
    ∃ d', CommandLine.readTop d (more.map Occurrence.argument ++ name :: rest) =
      .ok (d', some (level, rest)) ∧ d'.Holds (os ++ more) := by
  have hready : ∀ d : Draft, d.pending = none → d.trailing = false →
      (d.trailing || d.awaitsValue) = false := by
    intro d hpending htrailing
    rw [htrailing, awaitsValue, hpending]; rfl
  have hhelp : name ≠ "help" := by
    rintro rfl
    exact nomatch hname
  induction more generalizing d os with
  | nil =>
    refine ⟨d, ?_, by rw [List.append_nil]; exact h⟩
    rw [List.map_nil, List.nil_append, CommandLine.readTop, hready d h.pending h.trailing,
      if_neg hhelp, hname]
    rfl
  | cons o more ih =>
    rw [List.append_cons os] at htakes ⊢
    obtain ⟨d', hstep, hd'⟩ := h.exists_step htakes.of_append
    obtain ⟨d'', hrun, hd''⟩ := ih hd' htakes
    refine ⟨d'', ?_, hd''⟩
    -- An option is neither `help` nor the name of a command.
    have hcommand : Level.ofCommand? o.argument = none := by
      rw [Level.ofCommand?, if_neg (o.argument_ne (by decide)), if_neg (o.argument_ne (by decide)),
        if_neg (o.argument_ne (by decide))]
    rw [List.map_cons, List.cons_append, CommandLine.readTop, hready d h.pending h.trailing,
      if_neg (o.argument_ne (by decide)), hcommand, hstep]
    exact hrun

end Holds
end Draft

end BrokerQuery
