import BrokerQuery.CommandLine.Reader
import BrokerQuery.Proofs.CommandLine.Arguments
/-
  What a draft holds of each setting.

  Reading a text and putting its value into the draft are two things (`put_eq_map_add`), and the
  second changes the values of its own setting only (`values_add_self`, `values_add_of_ne`).  A
  setting that can be given once is there iff it has a value (`has_eq`).

  The environment fills each setting by itself (`Draft.within`), and none of them fails if each text
  of the environment is one that its setting reads (`fill_eq`).
-/

namespace BrokerQuery

/-- Whether a setting can be given once. -/
def Setting.isSingle : Setting → Bool
  | .groupBy => false
  | .longSum => false
  | .doubleSum => false
  | .count => false
  | .filter => false
  | .exclude => false
  | _ => true

/-- The values of a setting among overrides and arguments, in their order. -/
def Setting.valuesIn (o : Overrides) (args : QueryArgs) : (s : Setting) → List s.Value
  | .brokerUrl => o.brokerUrl.toList
  | .timeoutSecs => o.timeoutSecs.toList
  | .config => o.config.toList
  | .timeZone => o.timeZone.toList
  | .groupBy => args.groupBy
  | .longSum => args.longSum
  | .doubleSum => args.doubleSum
  | .count => args.count
  | .filter => args.filter
  | .exclude => args.exclude
  | .interval => args.interval.toList
  | .granularity => args.granularity.toList

/-- Some switches change what is asked for; help and version end the reading. -/
def Switch.Lasts (w : Switch) : Prop := w = .noCache ∨ w = .dryRun

/-- Whether a switch is on. -/
def QueryArgs.isOn (args : QueryArgs) : Switch → Bool
  | .noCache => args.noCache
  | .dryRun => args.dryRun
  | _ => false

/-- A setting that can be given once has one value at most. -/
theorem Setting.length_valuesIn_le_one {s : Setting} (h : s.isSingle = true) (o : Overrides)
    (args : QueryArgs) : (s.valuesIn o args).length ≤ 1 := by
  cases s with
  | groupBy | longSum | doubleSum | count | filter | exclude => exact nomatch h
  | brokerUrl | timeoutSecs | config | timeZone | interval | granularity =>
    exact Option.length_toList_le

namespace Draft

/-- The values of a setting. -/
def values (d : Draft) (s : Setting) : List s.Value := s.valuesIn d.overrides d.args

/-- The draft with one more value of a setting. -/
def add (d : Draft) : (s : Setting) → s.Value → Draft
  | .brokerUrl, v => { d with overrides := { d.overrides with brokerUrl := some v } }
  | .timeoutSecs, v => { d with overrides := { d.overrides with timeoutSecs := some v } }
  | .config, v => { d with overrides := { d.overrides with config := some v } }
  | .timeZone, v => { d with overrides := { d.overrides with timeZone := some v } }
  | .groupBy, v => { d with args := { d.args with groupBy := d.args.groupBy ++ [v] } }
  | .longSum, v => { d with args := { d.args with longSum := d.args.longSum ++ [v] } }
  | .doubleSum, v => { d with args := { d.args with doubleSum := d.args.doubleSum ++ [v] } }
  | .count, v => { d with args := { d.args with count := d.args.count ++ [v] } }
  | .filter, v => { d with args := { d.args with filter := d.args.filter ++ [v] } }
  | .exclude, v => { d with args := { d.args with exclude := d.args.exclude ++ [v] } }
  | .interval, v => { d with args := { d.args with interval := some v } }
  | .granularity, v => { d with args := { d.args with granularity := some v } }

/-- The draft with a switch turned on. -/
def on (d : Draft) : Switch → Draft
  | .noCache => { d with args := { d.args with noCache := true } }
  | .dryRun => { d with args := { d.args with dryRun := true } }
  | _ => d

variable (d : Draft)

/-- A value is read first and put into the draft then. -/
theorem put_eq_map_add (text : String) (s : Setting) :
    d.put text s = (s.read text).map (d.add s) := by
  cases s with
  | config =>
    show (if text = "" then _ else _) = Except.map _ (if text = "" then _ else _)
    split <;> rfl
  | brokerUrl | timeoutSecs | timeZone | groupBy | longSum | doubleSum | count | filter | exclude
  | interval | granularity => rfl

/-- A draft has a setting if it can be given once and was given. -/
theorem has_eq (s : Setting) : d.has s = (s.isSingle && !(d.values s).isEmpty) := by
  have hsome {α : Type} (o : Option α) : o.isSome = (true && !o.toList.isEmpty) := by
    cases o <;> rfl
  cases s with
  | groupBy | longSum | doubleSum | count | filter | exclude => rfl
  | brokerUrl | timeoutSecs | config | timeZone | interval | granularity => exact hsome _

/-- A setting that is not there yet has the new value after those that it had. -/
theorem values_add_self {s : Setting} (h : d.has s = false) (v : s.Value) :
    (d.add s v).values s = d.values s ++ [v] := by
  have hnone {α : Type} {o : Option α} (ho : o.isSome = false) (v : α) :
      (some v).toList = o.toList ++ [v] := by
    rw [Option.isNone_iff_eq_none.mp (Option.isSome_eq_false_iff.mp ho)]; rfl
  cases s with
  | groupBy | longSum | doubleSum | count | filter | exclude => rfl
  | brokerUrl | timeoutSecs | config | timeZone | interval | granularity => exact hnone h v

/-- Adding a value changes no other setting. -/
theorem values_add_of_ne {s t : Setting} (h : t ≠ s) (v : s.Value) :
    (d.add s v).values t = d.values t := by
  cases s <;> cases t <;> first | rfl | exact absurd rfl h

theorem isOn_add (s : Setting) (v : s.Value) (w : Switch) :
    (d.add s v).args.isOn w = d.args.isOn w := by
  cases s <;> cases w <;> rfl

/-- A switch that is off can be turned on. -/
theorem turnOn_eq_on {w : Switch} (hw : w.Lasts) (h : d.args.isOn w = false) :
    d.turnOn w = .ok (d.on w) := by
  rcases hw with rfl | rfl
  · exact if_neg (Bool.eq_false_iff.mp h)
  · exact if_neg (Bool.eq_false_iff.mp h)

theorem values_on (w : Switch) (s : Setting) : (d.on w).values s = d.values s := by
  cases w <;> cases s <;> rfl

theorem isOn_on {w : Switch} (hw : w.Lasts) (w' : Switch) :
    (d.on w).args.isOn w' = true ↔ d.args.isOn w' = true ∨ w' = w := by
  rcases hw with rfl | rfl <;> cases w' <;> simp [on, QueryArgs.isOn]

end Draft

/-! ## The environment -/

/-- The text that the environment has for a setting. -/
def Setting.lookup (env : Environment) (s : Setting) : Option String := s.envName?.bind env.lookup

/-- The value that the environment has for a setting. -/
def Setting.standIn (env : Environment) (s : Setting) : Option s.Value :=
  (s.lookup env).bind fun text => (s.read text).toOption

/-- Each variable of the environment that stands in for a setting has a text that the setting
reads. -/
def Environment.Readable (env : Environment) : Prop :=
  ∀ (s : Setting) (text : String), s.lookup env = some text → ∃ v, s.read text = .ok v

/-- No variable of the environment stands in for a setting. -/
def Environment.Silent (env : Environment) : Prop := ∀ s : Setting, s.lookup env = none

theorem Environment.Silent.readable {env : Environment} (h : env.Silent) : env.Readable :=
  fun s _ htext => nomatch (h s).symm.trans htext

/-- A silent environment stands in for no setting. -/
theorem Environment.Silent.standIn_eq_none {env : Environment} (h : env.Silent) (s : Setting) :
    s.standIn env = none := by
  rw [Setting.standIn, h s]; rfl

/-- What the environment sets for every command. -/
def Overrides.ofEnvironment (env : Environment) : Overrides where
  brokerUrl := Setting.standIn env .brokerUrl
  timeoutSecs := Setting.standIn env .timeoutSecs
  config := Setting.standIn env .config
  timeZone := Setting.standIn env .timeZone

/-- What a query is built from, with the granularity of the environment unless it has one. -/
def QueryArgs.within (env : Environment) (args : QueryArgs) : QueryArgs :=
  { args with granularity := args.granularity.or (Setting.standIn env .granularity) }

namespace Draft

/-- The draft in which the environment stands in for a setting that is not there. -/
def within (env : Environment) (d : Draft) : Setting → Draft
  | .brokerUrl => { d with overrides := { d.overrides with
      brokerUrl := d.overrides.brokerUrl.or (Setting.standIn env .brokerUrl) } }
  | .timeoutSecs => { d with overrides := { d.overrides with
      timeoutSecs := d.overrides.timeoutSecs.or (Setting.standIn env .timeoutSecs) } }
  | .config => { d with overrides := { d.overrides with
      config := d.overrides.config.or (Setting.standIn env .config) } }
  | .timeZone => { d with overrides := { d.overrides with
      timeZone := d.overrides.timeZone.or (Setting.standIn env .timeZone) } }
  | .granularity => { d with args := d.args.within env }
  | _ => d

variable {env : Environment} {d : Draft} {s : Setting}

/-- The environment does not touch a setting that the draft has. -/
theorem within_of_has (h : d.has s = true) : d.within env s = d := by
  cases s with
  | brokerUrl | timeoutSecs | config | timeZone | granularity =>
    simp only [within, QueryArgs.within, Option.or_of_isSome h]
  | groupBy | longSum | doubleSum | count | filter | exclude | interval => rfl

theorem within_of_standIn_eq_none (h : s.standIn env = none) : d.within env s = d := by
  cases s with
  | brokerUrl | timeoutSecs | config | timeZone | granularity =>
    simp only [within, QueryArgs.within, h, Option.or_none]
  | groupBy | longSum | doubleSum | count | filter | exclude | interval => rfl

theorem within_of_standIn_eq_some (hhas : d.has s = false) {v : s.Value}
    (h : s.standIn env = some v) : d.within env s = d.add s v := by
  cases s with
  | brokerUrl | timeoutSecs | config | timeZone | granularity =>
    have hor := Option.isNone_iff_eq_none.mp (Option.isSome_eq_false_iff.mp hhas)
    simp only [within, QueryArgs.within, add, h, hor, Option.none_or]
  | groupBy | longSum | doubleSum | count | filter | exclude | interval => exact nomatch h

/-- What the environment has for a setting that is not there is put in like an argument. -/
theorem set_eq_within (h : env.Readable) (hhas : d.has s = false) {text : String}
    (htext : s.lookup env = some text) : d.set s text = .ok (d.within env s) := by
  obtain ⟨v, hv⟩ := h s text htext
  have hsome : s.standIn env = some v := by
    rw [Setting.standIn, htext, Option.bind_some, hv]; rfl
  rw [set, hhas, put_eq_map_add, hv, within_of_standIn_eq_some hhas hsome]; rfl

/-- The environment is asked for the settings one by one, and none of them is refused. -/
theorem fill_eq (h : env.Readable) (level : Level) (d : Draft) :
    d.fill env level = .ok (level.settings.foldl (within env) d) := by
  unfold fill
  induction level.settings generalizing d with
  | nil => rfl
  | cons s rest ih =>
    rw [List.foldlM_cons, List.foldl_cons, ← ih (d.within env s)]
    cases htext : s.lookup env with
    | none =>
      have hnone : s.standIn env = none := by
        rw [Setting.standIn, htext]; rfl
      rw [within_of_standIn_eq_none hnone]
      unfold Setting.lookup at htext
      rw [htext]; rfl
    | some text =>
      have hstep : (if d.has s then .ok d else d.set s text) = .ok (d.within env s) := by
        cases hhas : d.has s with
        | true => rw [within_of_has hhas]; rfl
        | false => exact set_eq_within h hhas htext
      unfold Setting.lookup at htext
      rw [htext]
      exact congrArg (· >>= _) hstep

/-- Every level has the settings that can be given everywhere. -/
theorem overrides_foldl_within (env : Environment) (level : Level) (d : Draft) :
    (level.settings.foldl (within env) d).overrides =
      d.overrides.or (Overrides.ofEnvironment env) := by
  cases level <;> rfl

theorem source_foldl_within (env : Environment) (level : Level) (d : Draft) :
    (level.settings.foldl (within env) d).source = d.source := by
  cases level <;> rfl

/-- Of the settings of a query alone, the environment has the granularity. -/
theorem args_foldl_within_query (env : Environment) (d : Draft) :
    (Level.query.settings.foldl (within env) d).args = d.args.within env := rfl

end Draft
end BrokerQuery
