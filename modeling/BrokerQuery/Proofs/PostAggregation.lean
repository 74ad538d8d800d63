import BrokerQuery.PostAggregation
import BrokerQuery.Proofs.FirstOccurrence
/-
  The fields that a post-aggregation reads.

  `Reads` says that a tree reads a field: some access in it, at whatever depth and under whatever
  name, is to that field.  `accesses` lists the field of every access from left to right, repeats
  kept, so it has the fields that are read and no others (`mem_accesses_iff`).

  Collecting field names walks a tree in the order of `accesses` and adds each name unless it is
  there (`addFieldNames_eq`).  So the field names of a tree are its accesses, each name at its first
  occurrence (`fieldNames_eq`), and those of an arithmetic node can be put together from those of the
  trees under it (`fieldNames_arithmetic`).
-/

namespace BrokerQuery.PostAggregation

/-- A tree reads a field if it is an access to that field or has a tree under it that reads it. -/
inductive Reads (field : String) : PostAggregation → Prop
  | access (name : String) : Reads field (.fieldAccess name field)
  | under {name : String} {operation : Arithmetic} {fields : List PostAggregation}
      {p : PostAggregation} (hp : p ∈ fields) (h : Reads field p) :
      Reads field (.arithmetic name operation fields)

mutual
/-- The field of every access in a tree, from left to right, repeats kept. -/
def accesses : PostAggregation → List String
  | .arithmetic _ _ fields => accessesAll fields
  | .fieldAccess _ fieldName => [fieldName]
  | .constant .. => []

/-- The accesses of several trees, one tree after the other. -/
def accessesAll : List PostAggregation → List String
  | [] => []
  | p :: ps => accesses p ++ accessesAll ps
end

theorem accessesAll_eq_flatMap : ∀ ps : List PostAggregation, accessesAll ps = ps.flatMap accesses
  | [] => rfl
  | p :: ps => by rw [accessesAll, List.flatMap_cons, accessesAll_eq_flatMap ps]

mutual
theorem reads_of_mem_accesses {field : String} :
    ∀ p : PostAggregation, field ∈ p.accesses → p.Reads field
  | .arithmetic name operation fields, h => by
    obtain ⟨p, hp, hreads⟩ := reads_of_mem_accessesAll fields (by rwa [accesses] at h)
    exact .under hp hreads
  | .fieldAccess name fieldName, h => by
    rw [accesses] at h
    rw [List.mem_singleton.mp h]
    exact .access name
  | .constant .., h => by
    rw [accesses] at h
    exact absurd h List.not_mem_nil

theorem reads_of_mem_accessesAll {field : String} :
    ∀ ps : List PostAggregation, field ∈ accessesAll ps → ∃ p ∈ ps, p.Reads field
  | [], h => absurd h List.not_mem_nil
  | p :: ps, h => by
    rw [accessesAll] at h
    rcases List.mem_append.mp h with hp | hps
    · exact ⟨p, List.mem_cons_self, reads_of_mem_accesses p hp⟩
    · obtain ⟨p', hp', hreads⟩ := reads_of_mem_accessesAll ps hps
      exact ⟨p', List.mem_cons_of_mem p hp', hreads⟩
end

/-- The accesses of a tree are to the fields that it reads, and to no others. -/
theorem mem_accesses_iff (p : PostAggregation) (field : String) :
    field ∈ p.accesses ↔ p.Reads field := by
  refine ⟨reads_of_mem_accesses p, fun h => ?_⟩
  induction h with
  | access name => rw [accesses]; exact List.mem_singleton_self field
  | under hp _ ih =>
    rw [accesses, accessesAll_eq_flatMap]
    exact List.mem_flatMap.mpr ⟨_, hp, ih⟩

mutual
/-- Collecting the names of a tree is adding its accesses one after the other. -/
theorem addFieldNames_eq (names : List String) :
    ∀ p : PostAggregation, addFieldNames names p = p.accesses.foldl addName names
  | .arithmetic _ _ fields => by rw [addFieldNames, accesses, addFieldNamesAll_eq]
  | .fieldAccess _ fieldName => by rw [addFieldNames, accesses]; rfl
  | .constant .. => by rw [addFieldNames, accesses]; rfl

theorem addFieldNamesAll_eq (names : List String) :
    ∀ ps : List PostAggregation, addFieldNamesAll names ps = (accessesAll ps).foldl addName names
  | [] => rfl
  | p :: ps => by
    rw [addFieldNamesAll, accessesAll, List.foldl_append, addFieldNames_eq names p,
      addFieldNamesAll_eq _ ps]
end

/-- The field names of a tree are its accesses, each name at its first occurrence. -/
theorem fieldNames_eq (p : PostAggregation) : p.fieldNames = p.accesses.eraseDups := by
  have hadd : ∀ names name, addName names name =
      if name ∈ names.map id then names else names ++ [name] := by
    intro names name
    rw [List.map_id]; rfl
  rw [fieldNames, addFieldNames_eq, FirstOccurrence.foldl_add (fun _ => rfl) hadd]
  simp

/-- The field names are the fields that are read. -/
theorem mem_fieldNames_iff (p : PostAggregation) (field : String) :
    field ∈ p.fieldNames ↔ p.Reads field := by
  rw [fieldNames_eq, List.mem_eraseDups, mem_accesses_iff]

/-- The field names of a node are those of the trees under it, put together. -/
theorem fieldNames_arithmetic (name : String) (operation : Arithmetic)
    (fields : List PostAggregation) :
    (arithmetic name operation fields).fieldNames = (fields.flatMap fieldNames).eraseDups := by
  have hnames : fieldNames = fun p => p.accesses.eraseDups := funext fieldNames_eq
  rw [fieldNames_eq, accesses, accessesAll_eq_flatMap, hnames,
    FirstOccurrence.eraseDups_flatMap_eraseDups]

/-- **Fields in the order of their first access.**  The field names of a tree are the fields of its
accesses from left to right, without repeats.  So no name is there twice, a name is there iff some
access in the tree reads it, and of two names the one that is read first comes first.  The names of an
arithmetic node are those of the trees under it, one tree after the other, without repeats. -/
theorem fieldNames_in_order_of_access (p : PostAggregation) :
    p.fieldNames = p.accesses.eraseDups ∧
    p.fieldNames.Nodup ∧
    (∀ field, field ∈ p.fieldNames ↔ p.Reads field) ∧
    (∀ field other, p.fieldNames.idxOf field < p.fieldNames.idxOf other ↔
      p.accesses.idxOf field < p.accesses.idxOf other) ∧
    ∀ name operation fields,
      (arithmetic name operation fields).fieldNames = (fields.flatMap fieldNames).eraseDups := by
  have hfirst := p.fieldNames_eq
  refine ⟨hfirst, ?_, p.mem_fieldNames_iff, ?_, fieldNames_arithmetic⟩
  · rw [hfirst]
    exact FirstOccurrence.nodup_eraseDups p.accesses
  · intro field other
    rw [hfirst]
    exact FirstOccurrence.idxOf_eraseDups_lt_iff p.accesses field other

end BrokerQuery.PostAggregation
