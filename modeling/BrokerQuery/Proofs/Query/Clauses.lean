import BrokerQuery.Proofs.Filter.Lowering
import BrokerQuery.Proofs.Json.Reading
/-
  The clauses of a query, read back.

  Each kind of clause has a reader, and reading what was written gives the clause.  Names are read
  by looking for them among all names of their kind.  Filters, having clauses and post-aggregations
  are trees; their readers say what one object means (`ofFields?`), and `Json.readTree` goes on.

  Two things are not written as they are.  An infinite number is null, so trees that hold numbers
  are read back if these are finite.  Of a "not" over several filters only the first is written, so
  filters are read back if they are canonical.
-/

namespace BrokerQuery

open Json (FieldView required named? list? readTree readItems readEach)

/-! ## Names -/

/-- Every type of a query. -/
def QueryType.all : List QueryType := [.groupBy, .topN, .timeSeries, .select]

/-- Every kind of aggregation. -/
def AggregationKind.all : List AggregationKind :=
  [.longSum, .doubleSum, .count, .min, .max, .hyperUnique]

/-- Both directions. -/
def Direction.all : List Direction := [.ascending, .descending]

/-- Every comparison. -/
def Relation.all : List Relation := [.greaterThan, .lessThan, .equalTo]

@[simp] theorem QueryType.named?_name (t : QueryType) :
    named? QueryType.name QueryType.all (.string t.name) = some t := by
  cases t <;> rfl

@[simp] theorem AggregationKind.named?_wireName (kind : AggregationKind) :
    named? AggregationKind.wireName AggregationKind.all (.string kind.wireName) = some kind := by
  cases kind <;> rfl

@[simp] theorem Direction.named?_name (direction : Direction) :
    named? Direction.name Direction.all (.string direction.name) = some direction := by
  cases direction <;> rfl

@[simp] theorem Arithmetic.ofSign?_sign (operation : Arithmetic) :
    Arithmetic.ofSign? operation.sign = some operation := by
  cases operation <;> rfl

@[simp] theorem NamedGranularity.ofName?_name (name : NamedGranularity) :
    NamedGranularity.ofName? name.name = some name := by
  cases name <;> rfl

/-! ## Clauses of one level -/

namespace Granularity

/-- The buckets that a value means. -/
def ofJson? : Json → Option Granularity
  | .string s => (NamedGranularity.ofName? s).map .named
  | .object fields => do
    let zone ← required "timeZone" Json.string? fields
    let type ← required "type" Json.string? fields
    if type = "period" then return .period (← required "period" Json.string? fields) zone
    else return .duration (← required "duration" Json.natural? fields) zone
  | _ => none

/-- Granularities are read back: a name, a period with its zone, or a duration. -/
theorem ofJson?_toJson (g : Granularity) : ofJson? g.toJson = some g := by
  cases g with
  | named name => simp [toJson, ofJson?]
  | period text zone => simp [toJson, ofJson?, required, Json.lookup]
  | duration milliseconds zone => simp [toJson, ofJson?, required, Json.lookup]

end Granularity

namespace Aggregation

/-- The aggregation that a value means. -/
def ofJson? (v : Json) : Option Aggregation := do
  let fields ← v.fields?
  return {
    kind := ← required "type" (named? AggregationKind.wireName AggregationKind.all) fields
    name := ← required "name" Json.string? fields
    fieldName := ← required "fieldName" Json.string? fields }

/-- Aggregations are read back. -/
theorem ofJson?_toJson (a : Aggregation) : ofJson? a.toJson = some a := by
  simp [toJson, ofJson?, Json.fields?, required, Json.lookup]

end Aggregation

namespace LimitSpec

/-- The column and the direction that a value means. -/
def columnOfJson? (v : Json) : Option (String × Direction) := do
  let fields ← v.fields?
  return (← required "dimension" Json.string? fields,
    ← required "direction" (named? Direction.name Direction.all) fields)

/-- The ordering that a value means. -/
def ofJson? (v : Json) : Option LimitSpec := do
  let fields ← v.fields?
  return {
    limit := ← required "limit" Json.natural? fields
    columns := ← required "columns" (list? columnOfJson?) fields }

theorem columnOfJson?_object (dimension : String) (direction : Direction) :
    columnOfJson? (.object
      [("dimension", .string dimension), ("direction", .string direction.name)]) =
      some (dimension, direction) := by
  simp [columnOfJson?, Json.fields?, required, Json.lookup]

theorem ofJson?_toJson (l : LimitSpec) : ofJson? l.toJson = some l := by
  simp only [toJson, ofJson?, Json.fields?, required, Json.lookup, reduceIte, String.reduceEq,
    Option.bind_eq_bind, Option.bind_some, Json.natural?_int]
  rw [Json.list?_map fun column _ => columnOfJson?_object column.1 column.2]
  rfl

end LimitSpec

namespace PagingSpec

/-- The page that a value means. -/
def ofJson? (v : Json) : Option PagingSpec := do
  let fields ← v.fields?
  let segments ← required "pagingIdentifiers" Json.fields? fields
  return {
    identifiers := ← segments.mapM fun (segment, offset) => offset.int?.map (segment, ·)
    threshold := ← required "threshold" Json.natural? fields }

theorem ofJson?_toJson (p : PagingSpec) : ofJson? p.toJson = some p := by
  have hsegments (identifiers threshold : Json) : required "pagingIdentifiers" Json.fields?
      [("pagingIdentifiers", identifiers), ("threshold", threshold)] = identifiers.fields? := by
    rw [required, Json.lookup, if_pos rfl, Option.bind_some]
  have hthreshold (identifiers threshold : Json) : required "threshold" Json.natural?
      [("pagingIdentifiers", identifiers), ("threshold", threshold)] = threshold.natural? := by
    rw [required, Json.lookup, if_neg (by decide), Json.lookup, if_pos rfl, Option.bind_some]
  have hidentifiers : (p.identifiers.map fun segment => (segment.1, Json.int segment.2)).mapM
      (fun field => field.2.int?.map (field.1, ·)) = some p.identifiers :=
    Json.mapM_map_of_read fun _ _ => rfl
  simp only [toJson, ofJson?, hsegments, hthreshold, hidentifiers, Json.fields?,
    Option.bind_eq_bind, Option.bind_some, Json.natural?_int]
  rfl

end PagingSpec

/-! ## Filters -/

namespace Filter

/-- The filter that an object means. -/
def ofFields? (fields : String → Option (FieldView Filter)) : Option Filter := do
  let type ← FieldView.textAt "type" fields
  if type = "selector" then
    return .test ⟨← FieldView.textAt "dimension" fields, some (← FieldView.textAt "value" fields)⟩
  else if type = Connective.and.name then return .node .and (← FieldView.treesAt "fields" fields)
  else if type = Connective.or.name then return .node .or (← FieldView.treesAt "fields" fields)
  else if type = Connective.not.name then return .node .not [← FieldView.treeAt "field" fields]
  else none

/-- The filter that a value means. -/
def ofJson? (v : Json) : Option Filter := readTree ofFields? v

/-- A canonical filter that was written is read back. -/
theorem ofJson?_of_toJson {f : Filter} (hf : Canonical f) {v : Json} (hv : f.toJson = .ok v) :
    ofJson? v = some f := by
  refine (Canonical.writes_of (fun f v => ofJson? v = some f) ?_ ?_ ?_ hf).means hv
  · intro dimension value
    rfl
  · intro operand v hv
    have hv' : readTree ofFields? v = some operand := hv
    simp [ofJson?, hv', ofFields?, Connective.name]
  · intro op children vs hop hvs
    have hvs' : readItems ofFields? (.array vs) = some children := Json.readEach_of_forall₂ _ hvs
    cases op with
    | not => exact absurd rfl hop
    | and => simp [ofJson?, hvs', ofFields?, Connective.name]
    | or => simp [ofJson?, hvs', ofFields?, Connective.name]

end Filter

/-! ## Having clauses -/

namespace Having

mutual
/-- The numbers that a clause compares with, from left to right. -/
def numbers : Having → List Binary64
  | .compare _ _ value => [value]
  | .conj children => numbersAll children
  | .disj children => numbersAll children
  | .neg child => numbers child

/-- The numbers that several clauses compare with. -/
def numbersAll : List Having → List Binary64
  | [] => []
  | h :: hs => numbers h ++ numbersAll hs
end

/-- The clause that an object means. -/
def ofFields? (fields : String → Option (FieldView Having)) : Option Having := do
  let type ← FieldView.textAt "type" fields
  if type = "and" then return .conj (← FieldView.treesAt "havingSpecs" fields)
  else if type = "or" then return .disj (← FieldView.treesAt "havingSpecs" fields)
  else if type = "not" then return .neg (← FieldView.treeAt "havingSpec" fields)
  else
    return .compare (← named? Relation.name Relation.all (.string type))
      (← FieldView.textAt "aggregation" fields) (← FieldView.numberAt "value" fields)

/-- The clause that a value means. -/
def ofJson? (v : Json) : Option Having := readTree ofFields? v

mutual
/-- A clause that was written is read back. -/
theorem ofJson?_toJson : ∀ h : Having, (∀ x ∈ h.numbers, x.isFinite) → ofJson? h.toJson = some h
  | .compare relation aggregation value, hx => by
    have hvalue := Json.float?_ofNumber (hx value (by simp [numbers]))
    cases relation <;>
      simp [toJson, ofJson?, ofFields?, hvalue, Relation.name, named?, Relation.all]
  | .conj children, hx => by
    have hitems : readItems ofFields? (.array (toJsonAll children)) = some children :=
      readEach_toJsonAll children hx
    simp [toJson, ofJson?, ofFields?, hitems]
  | .disj children, hx => by
    have hitems : readItems ofFields? (.array (toJsonAll children)) = some children :=
      readEach_toJsonAll children hx
    simp [toJson, ofJson?, ofFields?, hitems]
  | .neg child, hx => by
    have hchild : readTree ofFields? child.toJson = some child := ofJson?_toJson child hx
    simp [toJson, ofJson?, ofFields?, hchild]

theorem readEach_toJsonAll : ∀ hs : List Having, (∀ x ∈ numbersAll hs, x.isFinite) →
    readEach ofFields? (toJsonAll hs) = some hs
  | [], _ => by rw [toJsonAll, readEach]
  | h :: hs, hx => by
    rw [numbersAll, List.forall_mem_append] at hx
    have hhead : readTree ofFields? h.toJson = some h := ofJson?_toJson h hx.1
    rw [toJsonAll, readEach, hhead, readEach_toJsonAll hs hx.2]
    rfl
end

end Having

/-! ## Post-aggregations -/

namespace PostAggregation

mutual
/-- The constants of a tree, from left to right. -/
def constants : PostAggregation → List Binary64
  | .arithmetic _ _ fields => constantsAll fields
  | .fieldAccess .. => []
  | .constant _ value => [value]

/-- The constants of several trees. -/
def constantsAll : List PostAggregation → List Binary64
  | [] => []
  | p :: ps => constants p ++ constantsAll ps
end

/-- The computation that an object means. -/
def ofFields? (fields : String → Option (FieldView PostAggregation)) : Option PostAggregation := do
  let type ← FieldView.textAt "type" fields
  let name ← FieldView.textAt "name" fields
  if type = "arithmetic" then
    return .arithmetic name (← Arithmetic.ofSign? (← FieldView.textAt "fn" fields))
      (← FieldView.treesAt "fields" fields)
  else if type = "fieldAccess" then return .fieldAccess name (← FieldView.textAt "fieldName" fields)
  else if type = "constant" then return .constant name (← FieldView.numberAt "value" fields)
  else none

/-- The computation that a value means. -/
def ofJson? (v : Json) : Option PostAggregation := readTree ofFields? v

/-- The computations that an array means. -/
def listOfJson? (v : Json) : Option (List PostAggregation) := readItems ofFields? v

mutual
/-- A computation that was written is read back. -/
theorem ofJson?_toJson : ∀ p : PostAggregation, (∀ x ∈ p.constants, x.isFinite) →
    ofJson? p.toJson = some p
  | .arithmetic name operation fields, hx => by
    have hitems : readItems ofFields? (.array (toJsonAll fields)) = some fields :=
      readEach_toJsonAll fields hx
    simp [toJson, ofJson?, ofFields?, hitems]
  | .fieldAccess name fieldName, _ => rfl
  | .constant name value, hx => by
    have hvalue := Json.float?_ofNumber (hx value (by simp [constants]))
    simp [toJson, ofJson?, ofFields?, hvalue]

theorem readEach_toJsonAll : ∀ ps : List PostAggregation,
    (∀ x ∈ constantsAll ps, x.isFinite) → readEach ofFields? (toJsonAll ps) = some ps
  | [], _ => by rw [toJsonAll, readEach]
  | p :: ps, hx => by
    rw [constantsAll, List.forall_mem_append] at hx
    have hhead : readTree ofFields? p.toJson = some p := ofJson?_toJson p hx.1
    rw [toJsonAll, readEach, hhead, readEach_toJsonAll ps hx.2]
    rfl
end

/-- Post-aggregations are read back if their constants are finite. -/
theorem listOfJson?_toJsonAll {ps : List PostAggregation}
    (hx : ∀ x ∈ constantsAll ps, x.isFinite) :
    listOfJson? (.array (toJsonAll ps)) = some ps :=
  readEach_toJsonAll ps hx

end PostAggregation
end BrokerQuery
