import BrokerQuery.Proofs.Filter.Lowering
import BrokerQuery.Proofs.Query.Document
/-
  The time zones in the document of a query.

  `Json.under` collects what stands under a name, at any depth of a document.  In the document of a
  query, the name `timeZone` can stand in the granularity and nowhere else: no slot has this name,
  and no other clause has a field of this name (`under_zone_of_toJson`).  Queries with paging are
  left out, since paging takes the names of its fields from outside.
-/

namespace BrokerQuery

namespace Json

mutual
/-- The values of all fields with this name, at any depth. -/
def under (name : String) : Json → List Json
  | .array items => underItems name items
  | .object fields => underFields name fields
  | _ => []

/-- The values of all fields with this name in several values. -/
def underItems (name : String) : List Json → List Json
  | [] => []
  | v :: vs => under name v ++ underItems name vs

/-- The values of all fields with this name among some fields and below them. -/
def underFields (name : String) : List (String × Json) → List Json
  | [] => []
  | (k, v) :: fields => (if k = name then [v] else []) ++ under name v ++ underFields name fields
end

variable (name : String)

@[simp] theorem under_bool (b : Bool) : under name (.bool b) = [] := rfl

@[simp] theorem under_int (n : Int) : under name (.int n) = [] := rfl

@[simp] theorem under_string (s : String) : under name (.string s) = [] := rfl

@[simp] theorem under_ofNumber (x : Binary64) : under name (ofNumber x) = [] := by
  unfold ofNumber
  split <;> rfl

@[simp] theorem underItems_eq_flatMap (items : List Json) :
    underItems name items = items.flatMap (under name) := by
  induction items with
  | nil => rfl
  | cons v items ih => rw [underItems, ih, List.flatMap_cons]

@[simp] theorem under_array (items : List Json) :
    under name (.array items) = items.flatMap (under name) := by
  rw [under, underItems_eq_flatMap]

@[simp] theorem under_object (fields : List (String × Json)) :
    under name (.object fields) =
      fields.flatMap fun field =>
        (if field.1 = name then [field.2] else []) ++ under name field.2 := by
  rw [under]
  induction fields with
  | nil => rfl
  | cons field fields ih => rw [underFields, ih, List.flatMap_cons]

@[simp] theorem under_ofStrings (ss : List String) : under name (ofStrings ss) = [] := by
  simp [ofStrings]

/-- In a document without a slot of this name, the name stands below the slots. -/
theorem under_present {slots : List (String × Option Json)} (h : name ∉ slots.map Prod.fst) :
    under name (.object (present slots)) =
      slots.flatMap fun slot => slot.2.toList.flatMap (under name) := by
  rw [under_object]
  induction slots with
  | nil => rfl
  | cons slot slots ih =>
    obtain ⟨k, v?⟩ := slot
    rw [List.map_cons, List.mem_cons, not_or] at h
    rw [present_cons, List.flatMap_append, ih h.2, List.flatMap_cons]
    cases v? with
    | none => rfl
    | some v => simp [Ne.symm h.1]

end Json

/-! ## The clauses -/

theorem Aggregation.under_toJson (a : Aggregation) : a.toJson.under "timeZone" = [] := by
  simp [toJson]

theorem LimitSpec.under_toJson (l : LimitSpec) : l.toJson.under "timeZone" = [] := by
  simp [toJson, List.flatMap_map]

mutual
theorem PostAggregation.under_toJson : ∀ p : PostAggregation, p.toJson.under "timeZone" = []
  | .arithmetic name operation fields => by
    simp [toJson, PostAggregation.under_toJsonAll fields]
  | .fieldAccess name fieldName => by simp [toJson]
  | .constant name value => by simp [toJson]

theorem PostAggregation.under_toJsonAll :
    ∀ ps : List PostAggregation, (toJsonAll ps).flatMap (Json.under "timeZone") = []
  | [] => rfl
  | p :: ps => by
    rw [toJsonAll, List.flatMap_cons, PostAggregation.under_toJson p,
      PostAggregation.under_toJsonAll ps, List.append_nil]
end

mutual
theorem Having.under_toJson : ∀ h : Having, h.toJson.under "timeZone" = []
  | .compare relation aggregation value => by simp [toJson]
  | .conj children => by simp [toJson, Having.under_toJsonAll children]
  | .disj children => by simp [toJson, Having.under_toJsonAll children]
  | .neg child => by simp [toJson, Having.under_toJson child]

theorem Having.under_toJsonAll :
    ∀ hs : List Having, (toJsonAll hs).flatMap (Json.under "timeZone") = []
  | [] => rfl
  | h :: hs => by
    rw [toJsonAll, List.flatMap_cons, Having.under_toJson h, Having.under_toJsonAll hs,
      List.append_nil]
end

/-- A filter as it is written has no time zone. -/
theorem Filter.under_toJson {f : Filter} (hf : f.Canonical) {v : Json} (h : f.toJson = .ok v) :
    v.under "timeZone" = [] := by
  have hwrites : Writes f.predicates (fun v => v.under "timeZone" = []) f.toJson := by
    refine Canonical.writes_of (fun _ v => v.under "timeZone" = []) ?_ ?_ ?_ hf
    · intro dimension value
      simp
    · intro operand v hv
      simp [hv]
    · intro op children vs _ hvs
      have hall : ∀ v ∈ vs, v.under "timeZone" = [] := by
        induction hvs with
        | nil => exact fun v hv => absurd hv List.not_mem_nil
        | cons hv _ ih => exact List.forall_mem_cons.mpr ⟨hv, ih⟩
      simpa using hall
  exact hwrites.means h

/-- The time zone of buckets that have one. -/
def Granularity.ownZone? : Granularity → Option String
  | .named _ => none
  | .period _ zone => some zone
  | .duration _ zone => some zone

/-- A granularity writes the zone that is its own, if it has one. -/
theorem Granularity.under_toJson (g : Granularity) :
    g.toJson.under "timeZone" = g.ownZone?.toList.map .string := by
  cases g <;> simp [toJson, ownZone?]

namespace Query

/-- Without paging, the only time zone of a document is the one of its granularity. -/
theorem under_zone_of_toJson {q : Query} (hpaging : q.paging = none)
    (hfilter : ∀ f, q.filter = some f → f.Canonical) {v : Json} (h : q.toJson = .ok v) :
    v.under "timeZone" = q.granularity.ownZone?.toList.map .string := by
  obtain ⟨filter?, hwritten, hv⟩ := slots_of_toJson h
  have hfilter? : filter?.toList.flatMap (Json.under "timeZone") = [] := by
    cases hf : q.filter with
    | none =>
      rw [hf] at hwritten
      rw [← Except.ok.inj hwritten]; rfl
    | some f =>
      rw [hf] at hwritten
      obtain ⟨w, hw, hsome⟩ := Fallible.of_map_eq_ok hwritten
      rw [← hsome, Option.toList_some, List.flatMap_singleton]
      exact Filter.under_toJson (hfilter f hf) hw
  rw [hv, Json.under_present _ (by rw [names_slots]; decide)]
  -- What remains is a list of sixteen slots; of a clause in a slot its own lemma speaks.
  cases hcache : q.useCache <;>
    simp [slots, hpaging, hcache, hfilter?, Granularity.under_toJson, Aggregation.under_toJson,
      PostAggregation.under_toJsonAll, Having.under_toJson, LimitSpec.under_toJson]

end Query
end BrokerQuery
