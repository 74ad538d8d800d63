import BrokerQuery.Proofs.Filter.Canonical
import BrokerQuery.Proofs.Query.Attachment
import Mathlib.Data.List.Forall2
/-
  Mappings from dimensions to values, as filters and on queries.

  An entry of a mapping is looked at twice: values without a leaf have an error of their own, and all
  others are flattened and go to the test of membership.

    1. One entry: flattening keeps the leaves, so an entry with a leaf is the test of its values
       (`ofEntry_of_ne`).  It gives `oneOf` of them, or one of two errors (`decides_ofEntry`).
    2. A mapping: the entries are traversed in order, so the first that fails decides the error.  If
       none does, the tests are joined; as none of them is a conjunction, the joined filter has one
       child for each entry.
    3. A query: attaching the entry tests one after the other is attaching them together
       (`filterEach_eq`), and without a filter before them that is the mapping
       (`mapping_of_entries`).
-/

namespace BrokerQuery

/-! ## Filters that join those of a query -/

namespace Query

/-- The query with further filters after its own, if it has one. -/
def andFilters (q : Query) (fs : List Filter) : Query :=
  { q with filter := Filter.all? (q.filter.toList ++ fs) }

theorem andFilters_nil (q : Query) : q.andFilters [] = q := by
  rw [andFilters, List.append_nil, Filter.all?_toList]

/-- Filters can be added in several goes. -/
theorem andFilters_andFilters (q : Query) (fs gs : List Filter) :
    (q.andFilters fs).andFilters gs = q.andFilters (fs ++ gs) := by
  simp only [andFilters, Filter.all?_all?_append, List.append_assoc]

theorem andFilter_eq (q : Query) (f : Filter) : q.andFilter f = q.andFilters [f] := by
  unfold andFilter andFilters
  cases q.filter <;> rfl

theorem andFilters_of_none {q : Query} (h : q.filter = none) (fs : List Filter) :
    q.andFilters fs = { q with filter := Filter.all? fs } := by
  rw [andFilters, h]
  rfl

/-- On a query without a filter, a mapping is the filter. -/
theorem filterEntries_of_none {q : Query} (h : q.filter = none)
    (entries : List (String × Operand)) :
    q.filterEntries entries = (Filter.ofEntries entries).map fun f? => { q with filter := f? } := by
  unfold filterEntries
  cases Filter.ofEntries entries with
  | error e => rfl
  | ok f? =>
    cases f? with
    | none =>
      show Except.ok q = .ok { q with filter := none }
      rw [← h]
    | some f =>
      show Except.ok (q.andFilter f) = _
      rw [andFilter_eq, andFilters_of_none h]
      rfl

end Query

/-! ## Entries -/

namespace Filter

open Fallible (Decides)

/-- The test of an entry whose values are usable. -/
def entryTest (entry : String × Operand) : Filter :=
  (Predicate.on entry.1).oneOf entry.2.texts

/-- An entry without values is refused under the name of its dimension. -/
theorem ofEntry_of_nil {entry : String × Operand} (h : entry.2.leaves = []) :
    ofEntry entry = .error (.notAFilter (.noValues entry.1)) := by
  rw [ofEntry, h]
  rfl

/-- The values are flattened before the test and by it, and once is enough. -/
theorem ofEntry_of_ne {entry : String × Operand} (h : entry.2.leaves ≠ []) :
    ofEntry entry = (Predicate.on entry.1).isIn entry.2 := by
  have hempty : ¬ entry.2.leaves.isEmpty = true := fun hnil => h (List.isEmpty_iff.mp hnil)
  rw [ofEntry, if_neg hempty, Predicate.isIn_congr _ (Operand.leaves_list_operand _)]

/-- An entry gives the test of usable values, and otherwise one of two errors. -/
theorem decides_ofEntry (entry : String × Operand) :
    Decides (ofEntry entry) (fun f => entry.2.Usable ∧ f = entryTest entry)
      (fun e => entry.2.leaves = [] ∧ e = .notAFilter (.noValues entry.1) ∨
        (∃ f, .expression f ∈ entry.2.leaves) ∧ e = .nestedExpression entry.1) := by
  refine .of_total ?_ ?_ ?_
  · rintro f ⟨husable, hf⟩
    rw [ofEntry_of_ne husable.1]
    exact (Predicate.isIn_eq_ok_iff _ _ f).mpr ⟨husable, hf⟩
  · rintro e (⟨hnil, he⟩ | ⟨⟨f, hf⟩, he⟩)
    · rw [he]; exact ofEntry_of_nil hnil
    · rw [he, ofEntry_of_ne (List.ne_nil_of_mem hf)]
      exact Predicate.isIn_of_expression _ hf
  · rcases entry.2.usable_or with h | h | h
    · exact .inl ⟨_, h, rfl⟩
    · exact .inr ⟨_, .inl ⟨h, rfl⟩⟩
    · exact .inr ⟨_, .inr ⟨h, rfl⟩⟩

/-! ## Mappings -/

/-- Entries are tests iff all of them can be used. -/
theorem mapM_ofEntry_eq_ok_iff (entries : List (String × Operand)) (fs : List Filter) :
    entries.mapM ofEntry = .ok fs ↔
      (∀ entry ∈ entries, entry.2.Usable) ∧ fs = entries.map entryTest :=
  Fallible.mapM_eq_ok_iff (fun entry f => (decides_ofEntry entry).ok_iff f) entries fs

/-- A mapping without a bad entry joins the tests of its entries. -/
theorem ofEntries_of_usable {entries : List (String × Operand)}
    (h : ∀ entry ∈ entries, entry.2.Usable) :
    ofEntries entries = .ok (all? (entries.map entryTest)) := by
  rw [ofEntries, (mapM_ofEntry_eq_ok_iff entries _).mpr ⟨h, rfl⟩]
  rfl

theorem usable_of_ofEntries {entries : List (String × Operand)} {f? : Option Filter}
    (h : ofEntries entries = .ok f?) : ∀ entry ∈ entries, entry.2.Usable := by
  obtain ⟨fs, hfs, _⟩ := Fallible.of_map_eq_ok h
  exact ((mapM_ofEntry_eq_ok_iff entries fs).mp hfs).1

/-- A mapping fails as its first bad entry. -/
theorem ofEntries_eq_error_iff (entries : List (String × Operand)) (e : FilterError) :
    ofEntries entries = .error e ↔ ∃ before dimension values after,
      entries = before ++ (dimension, values) :: after ∧
      (∀ entry ∈ before, entry.2.Usable) ∧
      (values.leaves = [] ∧ e = .notAFilter (.noValues dimension) ∨
        (∃ f, .expression f ∈ values.leaves) ∧ e = .nestedExpression dimension) := by
  have hok : ∀ entry, (∃ f, ofEntry entry = .ok f) ↔ entry.2.Usable := by
    intro entry
    simp only [(decides_ofEntry entry).ok_iff, exists_and_left, exists_eq, and_true]
  rw [ofEntries, Fallible.map_eq_error_iff, Fallible.mapM_eq_error_iff]
  simp only [hok, (decides_ofEntry _).error_iff, Prod.exists]

/-- The test of an entry is no conjunction, so joining never opens it. -/
theorem entryTest_flat (entries : List (String × Operand)) :
    ∀ f ∈ entries.map entryTest, f.connective? ≠ some .and := by
  rw [List.forall_mem_map]
  exact fun entry _ => Predicate.connective?_oneOf _ _ (by decide)

end Filter

/-! ## Mappings on queries -/

namespace Query

/-- Adds the entries of a mapping one at a time; the first that fails ends this. -/
def filterEach (q : Query) (entries : List (String × Operand)) : Except FilterError Query :=
  entries.foldlM (fun q entry => q.filterEntries [entry]) q

theorem filterEntries_singleton (q : Query) (entry : String × Operand) :
    q.filterEntries [entry] = (Filter.ofEntry entry).map q.andFilter := by
  rw [filterEntries, Filter.ofEntries, List.mapM_cons]
  cases Filter.ofEntry entry <;> rfl

/-- Attaching entries one after the other is attaching their tests together. -/
theorem filterEach_eq (entries : List (String × Operand)) (q : Query) :
    q.filterEach entries = (entries.mapM Filter.ofEntry).map q.andFilters := by
  induction entries generalizing q with
  | nil => exact congrArg Except.ok q.andFilters_nil.symm
  | cons entry entries ih =>
    rw [filterEach, List.foldlM_cons, List.mapM_cons, filterEntries_singleton]
    cases Filter.ofEntry entry with
    | error e => rfl
    | ok f =>
      show (q.andFilter f).filterEach entries = _
      rw [ih, andFilter_eq]
      cases entries.mapM Filter.ofEntry with
      | error e => rfl
      | ok fs => exact congrArg Except.ok (q.andFilters_andFilters [f] fs)

end Query

namespace Filter

/-- **Mappings.**  A mapping gives no filter iff it has no entry.  It fails iff some entry has no leaf
or a filter among its leaves, with the error of the first such entry, which is never that of a test
against an empty list.  Otherwise a single entry gives the test of its values, and several give one
conjunction with the test of each entry in order.  On a query without a filter it makes no difference
whether the entries are given at once or one at a time. -/
theorem mapping_of_entries (entries : List (String × Operand)) :
    (ofEntries entries = .ok none ↔ entries = []) ∧
    ((∃ e, ofEntries entries = .error e) ↔
      ∃ entry ∈ entries, entry.2.leaves = [] ∨ ∃ f, .expression f ∈ entry.2.leaves) ∧
    (∀ e, ofEntries entries = .error e ↔ ∃ before dimension values after,
      entries = before ++ (dimension, values) :: after ∧
      (∀ entry ∈ before, entry.2.Usable) ∧
      (values.leaves = [] ∧ e = .notAFilter (.noValues dimension) ∨
        (∃ f, .expression f ∈ values.leaves) ∧ e = .nestedExpression dimension)) ∧
    (∀ dimension, ofEntries entries ≠ .error (.emptyOperand dimension)) ∧
    ((∀ entry ∈ entries, entry.2.Usable) →
      (∀ dimension values, entries = [(dimension, values)] →
        ofEntries entries = ((Predicate.on dimension).isIn values).map some) ∧
      (2 ≤ entries.length → ∃ children, ofEntries entries = .ok (some (.node .and children)) ∧
        List.Forall₂ (fun entry child => (Predicate.on entry.1).isIn entry.2 = .ok child)
          entries children)) ∧
    (∀ q : Query, q.filter = none → q.filterEach entries = q.filterEntries entries) := by
  refine ⟨⟨fun h => ?_, fun h => by rw [h]; rfl⟩, ⟨?_, ?_⟩, ofEntries_eq_error_iff entries, ?_,
    fun husable => ⟨?_, ?_⟩, ?_⟩
  · have hjoined := (ofEntries_of_usable (usable_of_ofEntries h)).symm.trans h
    exact List.map_eq_nil_iff.mp ((all?_eq_none_iff _).mp (Except.ok.inj hjoined))
  · rintro ⟨e, he⟩
    obtain ⟨before, dimension, values, after, hentries, _, hbad⟩ :=
      (ofEntries_eq_error_iff entries e).mp he
    refine ⟨(dimension, values), ?_, hbad.imp And.left And.left⟩
    rw [hentries]; exact List.mem_append_right before List.mem_cons_self
  · rintro ⟨entry, hmem, hbad⟩
    -- Had the mapping been read, all of its entries could be used.
    cases h : ofEntries entries with
    | error e => exact ⟨e, rfl⟩
    | ok f? =>
      obtain ⟨hne, hno⟩ := usable_of_ofEntries h entry hmem
      exact (hbad.elim hne fun ⟨f, hf⟩ => hno f hf).elim
  · intro dimension h
    -- Values that are there and are refused are refused for a filter among them.
    obtain ⟨_, _, _, _, _, _, ⟨_, he⟩ | ⟨_, he⟩⟩ := (ofEntries_eq_error_iff entries _).mp h
    · exact nomatch he
    · exact nomatch he
  · intro dimension values hentries
    have hvalues : values.Usable := husable (dimension, values) (by rw [hentries]; simp)
    rw [ofEntries_of_usable husable, hentries,
      ((Predicate.on dimension).isIn_eq_ok_iff values _).mpr ⟨hvalues, rfl⟩]
    rfl
  · intro htwo
    refine ⟨entries.map entryTest, ?_, ?_⟩
    · rw [ofEntries_of_usable husable,
        all?_flat (entryTest_flat entries) (by rwa [List.length_map])]
    · rw [List.forall₂_map_right_iff, List.forall₂_same]
      exact fun entry hmem => (Predicate.isIn_eq_ok_iff _ _ _).mpr ⟨husable entry hmem, rfl⟩
  · intro q hq
    rw [Query.filterEach_eq, Query.filterEntries_of_none hq, ofEntries]
    cases entries.mapM ofEntry with
    | error e => rfl
    | ok fs => exact congrArg Except.ok (q.andFilters_of_none hq fs)

/-- Two entries, the values of the first one nested. -/
def alpineScreens : List (String × Operand) :=
  [("country", .list [.list [.scalar "AT"], .scalar "CH"]), ("device", .scalar "tv")]

theorem alpineScreens_usable : ∀ entry ∈ alpineScreens, entry.2.Usable := by
  unfold alpineScreens
  rw [List.forall_mem_cons, List.forall_mem_singleton]
  exact ⟨Operand.usable_iff.mpr ⟨["AT", "CH"], List.cons_ne_nil _ _, rfl⟩,
    Operand.usable_iff.mpr ⟨["tv"], List.cons_ne_nil _ _, rfl⟩⟩

/-- Entry by entry, `alpineScreens` gives one conjunction with two children. -/
theorem alpineScreens_attached :
    (∀ entry ∈ alpineScreens, entry.2.Usable) ∧ 2 ≤ alpineScreens.length ∧
    (Query.new (.ofSeconds 0) "shop/orders").filter = none ∧
    (∃ children, ofEntries alpineScreens = .ok (some (.node .and children)) ∧
      children.length = 2) ∧
    ((Query.new (.ofSeconds 0) "shop/orders").filterEach alpineScreens).map Query.filter =
      .ok (some (.node .and [.node .or [.test ⟨"country", some "AT"⟩, .test ⟨"country", some "CH"⟩],
        .test ⟨"device", some "tv"⟩])) := by
  have htwo : 2 ≤ alpineScreens.length := Nat.le_refl 2
  obtain ⟨_, _, _, _, hjoined, hquery⟩ := mapping_of_entries alpineScreens
  obtain ⟨children, hchildren, hall⟩ := (hjoined alpineScreens_usable).2 htwo
  refine ⟨alpineScreens_usable, htwo, rfl, ⟨children, hchildren, hall.length_eq.symm⟩, ?_⟩
  rw [hquery _ rfl]
  rfl

end Filter
end BrokerQuery
