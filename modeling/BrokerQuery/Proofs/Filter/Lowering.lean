import BrokerQuery.Filter.Wire
import BrokerQuery.Proofs.Filter.Canonical
import Mathlib.Data.List.Forall2
/-
  Filters as the broker reads them.

  `Json.selects` is the broker's side: it evaluates a filter as it was sent, a `selector` by equality,
  "and" and "or" over the list under `fields`, "not" over the one value under `field`.  Whatever has
  another form selects nothing, not even `false`.

  `Writes tests Means result` says what writing should give for a run of tests: if one of them has
  no value, the error that names the leftmost such test, and otherwise a value that means what it
  should.  Writing several things one after the other composes (`Writes.bind`), which is where "the
  leftmost" comes from.  `Canonical.writes_of` is the one induction over a canonical filter, for any
  reading of what was written; with the broker's reading it is `Canonical.writes`.
-/

namespace BrokerQuery

namespace Json

mutual
/-- Whether a filter as it was sent keeps a row; `none` if it is no filter. -/
def selects (row : String → String) : Json → Option Bool
  | .object fields =>
    match lookup "type" fields with
    | some (.string "selector") =>
      match lookup "dimension" fields, lookup "value" fields with
      | some (.string dimension), some (.string value) => some (row dimension == value)
      | _, _ => none
    | some (.string "and") => (selectsUnder row "fields" fields).map fun truths => truths.all id
    | some (.string "or") => (selectsUnder row "fields" fields).map fun truths => truths.any id
    | some (.string "not") => (selectsAt row "field" fields).map fun truth => !truth
    | _ => none
  | _ => none

/-- Whether the filter in the first field with this name keeps a row. -/
def selectsAt (row : String → String) (name : String) : List (String × Json) → Option Bool
  | [] => none
  | (k, v) :: fields => if k = name then selects row v else selectsAt row name fields

/-- Which of the filters listed in the first field with this name keep a row. -/
def selectsUnder (row : String → String) (name : String) :
    List (String × Json) → Option (List Bool)
  | [] => none
  | (k, v) :: fields => if k = name then selectsItems row v else selectsUnder row name fields

/-- Which of the filters of an array keep a row. -/
def selectsItems (row : String → String) : Json → Option (List Bool)
  | .array items => selectsEach row items
  | _ => none

/-- Which of several filters keep a row. -/
def selectsEach (row : String → String) : List Json → Option (List Bool)
  | [] => some []
  | v :: vs => (selects row v).bind fun truth => (selectsEach row vs).map (truth :: ·)
end

/-- A selector keeps the rows with its value. -/
theorem selects_selector (row : String → String) (dimension value : String) :
    selects row (.object [("type", .string "selector"), ("dimension", .string dimension),
      ("value", .string value)]) = some (row dimension == value) := by
  simp [selects, lookup]

theorem selects_junction (row : String → String) {op : Connective} (hop : op ≠ .not)
    (items : List Json) :
    selects row (.object [("type", .string op.name), ("fields", .array items)]) =
      (selectsEach row items).map op.join := by
  cases op with
  | and => rfl
  | or => rfl
  | not => exact absurd rfl hop

/-- A negation keeps the rows that its field drops. -/
theorem selects_negation (row : String → String) (v : Json) :
    selects row (.object [("type", .string Connective.not.name), ("field", v)]) =
      (selects row v).map fun truth => !truth := by
  simp [selects, lookup, selectsAt, Connective.name]

end Json

namespace Filter

/-- The leftmost test without a value. -/
def firstUnbound? (tests : List Predicate) : Option Predicate :=
  tests.find? (·.value.isNone)

/-- The test that is reported is one of those without a value. -/
theorem of_firstUnbound?_eq_some {tests : List Predicate} {p : Predicate}
    (h : firstUnbound? tests = some p) : p ∈ tests ∧ p.value = none := by
  unfold firstUnbound? at h
  refine ⟨List.mem_of_find?_eq_some h, ?_⟩
  have hp := List.find?_some h
  exact Option.isNone_iff_eq_none.mp hp

theorem firstUnbound?_eq_none_iff (tests : List Predicate) :
    firstUnbound? tests = none ↔ ∀ p ∈ tests, p.value.isSome := by
  unfold firstUnbound?
  simp [Option.isSome_iff_ne_none]

/-- The first test without a value is looked for from left to right. -/
theorem firstUnbound?_append (tests more : List Predicate) :
    firstUnbound? (tests ++ more) = (firstUnbound? tests).or (firstUnbound? more) :=
  List.find?_append

/-- What writing gives for a run of tests: the error of the leftmost test without a value, and if
there is none a value that means what it should. -/
def Writes (tests : List Predicate) (Means : α → Prop) (result : Except FilterError α) : Prop :=
  match firstUnbound? tests with
  | some p => result = .error (.missingValue p.dimension)
  | none => ∃ v, result = .ok v ∧ Means v

namespace Writes

variable {α β : Type} {tests more : List Predicate} {Means : α → Prop} {Means' : β → Prop}
  {result : Except FilterError α}

theorem pure {v : α} (h : Means v) : Writes [] Means (.ok v) :=
  ⟨v, rfl, h⟩

/-- Writing one thing and then another: a fault of the first comes first. -/
theorem bind {next : α → Except FilterError β} (h : Writes tests Means result)
    (hnext : ∀ v, Means v → Writes more Means' (next v)) :
    Writes (tests ++ more) Means' (result >>= next) := by
  unfold Writes at *
  rw [firstUnbound?_append]
  cases ht : firstUnbound? tests with
  | some p =>
    rw [ht] at h
    show (result >>= next) = _
    rw [h]; rfl
  | none =>
    rw [ht] at h
    obtain ⟨v, hv, hmeans⟩ := h
    rw [hv]
    exact hnext v hmeans

/-- Wrapping what was written adds no test. -/
theorem map {wrap : α → β} (h : Writes tests Means result)
    (hwrap : ∀ v, Means v → Means' (wrap v)) :
    Writes tests Means' (result >>= fun v => .ok (wrap v)) := by
  have hbind : Writes (tests ++ []) Means' (result >>= fun v => .ok (wrap v)) :=
    h.bind fun v hv => Writes.pure (hwrap v hv)
  rwa [List.append_nil] at hbind

/-- Writing succeeds iff each test has a value. -/
theorem ok_iff (h : Writes tests Means result) :
    (∃ v, result = .ok v) ↔ ∀ p ∈ tests, p.value.isSome := by
  rw [← firstUnbound?_eq_none_iff]
  unfold Writes at h
  cases ht : firstUnbound? tests with
  | some p =>
    rw [ht] at h
    refine iff_of_false ?_ (Option.some_ne_none p)
    rintro ⟨v, hv⟩
    rw [h] at hv
    exact absurd hv (by simp)
  | none =>
    rw [ht] at h
    obtain ⟨v, hv, _⟩ := h
    exact iff_of_true ⟨v, hv⟩ rfl

/-- Writing fails with the error of the leftmost test without a value, and with no other. -/
theorem error_iff (h : Writes tests Means result) (e : FilterError) :
    result = .error e ↔ ∃ p, firstUnbound? tests = some p ∧ e = .missingValue p.dimension := by
  unfold Writes at h
  cases ht : firstUnbound? tests with
  | some p =>
    rw [ht] at h
    rw [h]
    constructor
    · intro he
      exact ⟨p, rfl, (Except.error.inj he).symm⟩
    · rintro ⟨p', hp', he⟩
      rw [he, Option.some.inj hp']
  | none =>
    rw [ht] at h
    obtain ⟨v, hv, _⟩ := h
    rw [hv]
    refine iff_of_false (by simp) ?_
    rintro ⟨p, hp, _⟩
    exact absurd hp (Option.some_ne_none p).symm

/-- What was written means what it should. -/
theorem means (h : Writes tests Means result) {v : α} (hv : result = .ok v) : Means v := by
  unfold Writes at h
  split at h
  · rw [hv] at h
    exact absurd h (by simp)
  · obtain ⟨v', hv', hmeans⟩ := h
    rw [hv] at hv'
    rw [Except.ok.inj hv']; exact hmeans

end Writes

/-- An "and" or "or" is written as the list of its children. -/
theorem toJson_junction {op : Connective} (hop : op ≠ .not) (children : List Filter) :
    toJson (.node op children) = (toJsonAll children >>= fun fields =>
      .ok (.object [("type", .string op.name), ("fields", .array fields)])) := by
  cases op with
  | not => exact absurd rfl hop
  | and => rfl
  | or => rfl

section Writing

variable {Means : Filter → Json → Prop}

/-- A test is written as a `selector`. -/
theorem writes_test
    (test : ∀ dimension value, Means (.test ⟨dimension, some value⟩) (.object
      [("type", .string "selector"), ("dimension", .string dimension), ("value", .string value)]))
    (p : Predicate) : Writes [p] (Means (.test p)) (predicateJson p) := by
  obtain ⟨dimension, value?⟩ := p
  unfold Writes firstUnbound? predicateJson
  cases value? with
  | none => rfl
  | some value => exact ⟨_, rfl, test dimension value⟩

/-- Several filters are written in order, each after the faults of those before it. -/
theorem writes_all {fs : List Filter}
    (h : ∀ f ∈ fs, Writes (predicates f) (Means f) (toJson f)) :
    Writes (fs.flatMap predicates) (List.Forall₂ Means fs) (toJsonAll fs) := by
  induction fs with
  | nil => exact Writes.pure .nil
  | cons f fs ih =>
    have hf := h f List.mem_cons_self
    have hfs := ih fun g hg => h g (List.mem_cons_of_mem f hg)
    rw [List.flatMap_cons, toJsonAll]
    exact hf.bind fun v hv => hfs.map fun vs hvs => .cons hv hvs

/-- Induction on writing: where each node is written as it should be if the filters below it are,
the leftmost missing value is reported, and without one the filter is written as it should be. -/
theorem Canonical.writes_of (Means : Filter → Json → Prop)
    (test : ∀ dimension value, Means (.test ⟨dimension, some value⟩) (.object
      [("type", .string "selector"), ("dimension", .string dimension), ("value", .string value)]))
    (negation : ∀ {operand v}, Means operand v →
      Means (.node .not [operand]) (.object [("type", .string Connective.not.name), ("field", v)]))
    (junction : ∀ {op children vs}, op ≠ .not → List.Forall₂ Means children vs →
      Means (.node op children) (.object [("type", .string op.name), ("fields", .array vs)]))
    {f : Filter} (h : Canonical f) : Writes (predicates f) (Means f) (toJson f) := by
  induction h with
  | test p =>
    rw [predicates_test, toJson]
    exact writes_test test p
  | @negation operand _ _ ih =>
    rw [predicates_node, List.flatMap_cons, List.flatMap_nil, List.append_nil, toJson]
    exact ih.map fun v hv => negation hv
  | @junction op first second rest hop _ _ ih =>
    rw [predicates_node, toJson_junction hop]
    exact (writes_all ih).map fun vs hvs => junction hop hvs

end Writing

/-- The truths of several filters that were written, from those of each. -/
theorem selectsEach_of_forall₂ (row : String → String) {fs : List Filter} {vs : List Json}
    (h : List.Forall₂ (fun f v => ∀ row, Json.selects row v = some (holds row f)) fs vs) :
    Json.selectsEach row vs = some (fs.map (holds row)) := by
  induction h with
  | nil => rw [Json.selectsEach, List.map_nil]
  | cons hv _ ih =>
    rw [Json.selectsEach, hv, ih]
    rfl

/-- Writing a canonical filter: the leftmost missing value is reported, and what is written selects
the rows that the filter keeps. -/
theorem Canonical.writes {f : Filter} (h : Canonical f) :
    Writes (predicates f) (fun v => ∀ row, Json.selects row v = some (holds row f))
      (toJson f) := by
  refine Canonical.writes_of (fun f v => ∀ row, Json.selects row v = some (holds row f)) ?_ ?_ ?_ h
  · intro dimension value row
    rw [Json.selects_selector, holds_test]
    simp [BEq.comm]
  · intro operand v hv row
    rw [Json.selects_negation, hv, holds_node]
    rfl
  · intro op children vs hop hvs row
    rw [Json.selects_junction row hop, selectsEach_of_forall₂ row hvs, holds_node]
    rfl

end Filter
end BrokerQuery
