import BrokerQuery.Config.Settings
import BrokerQuery.Proofs.Json.Rereading
/-
  Which texts are files of settings, and what they set.

  A configuration file is read in a pass of its own, which keeps the known fields and the names of
  the others.  The pass goes field by field next to the general reader of documents.

    1. One field: `Takes` lists what it can do to the settings.  Whether it is refused depends on its
       name and value alone (`exists_takes_iff`), and it changes only what is set under its own name,
       where a null takes back what was there (`given?_of_takes`).
    2. All fields: at each of them the settings are those of the object so far, and no known name was
       there before (`agrees_withFields?`).  Where the known fields of the object fit and none of them
       is written twice, nothing is refused (`exists_withFields?`).
    3. So a text is a file of settings iff it is `Acceptable`, and then each setting is the field of
       its name (`acceptable_of_ofText?`, `ofText?_of_acceptable`).
-/

namespace BrokerQuery.FileSettings

open Json (Piece Written lookup setField lookup_setField_self lookup_setField_ne names_setField)

/-! ## What a file may hold -/

/-- The values of a known field: null, or a text, or a whole number for the timeout. -/
def Fits (name : String) (v : Json) : Prop :=
  v = .null ∨ if name = "timeout_secs" then ∃ n : Nat, v = .int n else ∃ text, v = .string text

/-- The names of fields, each as often as it is written. -/
def names (written : List (List Piece × Written)) : List String :=
  written.filterMap fun field => Piece.text? field.1

/-- The names of the fields of an object, each as often as it is written. -/
def writtenNames (content : String) : List String :=
  match Written.ofChars? content.toList with
  | some (.object written) => names written
  | _ => []

/-- No known name comes twice. -/
def KnownOnce (names : List String) : Prop := ∀ name ∈ knownNames, names.count name ≤ 1

/-- The text is an object with these fields; those that are known fit, and none of them is written
twice. -/
structure Acceptable (content : String) (fields : List (String × Json)) : Prop where
  isObject : Json.ofText? content = some (.object fields)
  once : KnownOnce (writtenNames content)
  fits : ∀ name ∈ knownNames, ∀ v, lookup name fields = some v → Fits name v

/-- Each setting is the field of its name, where a field that is null sets nothing; the names of the
other fields are kept. -/
structure Sets (s : FileSettings) (fields : List (String × Json)) : Prop where
  brokerUrl : ∀ url, s.brokerUrl = some url ↔ lookup "broker_url" fields = some (.string url)
  timeoutSecs : ∀ n : Nat, s.timeoutSecs = some n ↔ lookup "timeout_secs" fields = some (.int n)
  granularity : ∀ text, s.granularity = some text ↔
    lookup "granularity" fields = some (.string text)
  timeZone : ∀ zone, s.timeZone = some zone ↔ lookup "time_zone" fields = some (.string zone)
  unknown : s.unknown = (fields.map Prod.fst).filter (· ∉ knownNames)

/-! ## One field -/

/-- What a field does to settings: a known one sets what it is for, and of any other the name is kept
unless it is there. -/
inductive Takes (s : FileSettings) : String → Json → FileSettings → Prop
  | brokerUrl {v : Json} {x : Option String} (h : text? v = some x) :
      Takes s "broker_url" v { s with brokerUrl := x }
  | timeoutSecs {v : Json} {x : Option Nat} (h : natural? v = some x) :
      Takes s "timeout_secs" v { s with timeoutSecs := x }
  | granularity {v : Json} {x : Option String} (h : text? v = some x) :
      Takes s "granularity" v { s with granularity := x }
  | timeZone {v : Json} {x : Option String} (h : text? v = some x) :
      Takes s "time_zone" v { s with timeZone := x }
  | unknown {name : String} {v : Json} (h : name ∉ knownNames) :
      Takes s name v (if name ∈ s.unknown then s else { s with unknown := s.unknown ++ [name] })

theorem mem_knownNames_iff (name : String) :
    name ∈ knownNames ↔
      name = "broker_url" ∨ name = "timeout_secs" ∨ name = "granularity" ∨ name = "time_zone" := by
  simp only [knownNames, List.mem_cons, List.not_mem_nil, or_false]

theorem withField?_of_unknown {name : String} (h : name ∉ knownNames) (s : FileSettings)
    (v : Json) : s.withField? name v =
      some (if name ∈ s.unknown then s else { s with unknown := s.unknown ++ [name] }) := by
  rw [mem_knownNames_iff, not_or, not_or, not_or] at h
  obtain ⟨hurl, htimeout, hgranularity, hzone⟩ := h
  rw [withField?, if_neg hurl, if_neg htimeout, if_neg hgranularity, if_neg hzone]

/-- Adding a field does what `Takes` says. -/
theorem withField?_eq_some_iff (s s' : FileSettings) (name : String) (v : Json) :
    s.withField? name v = some s' ↔ s.Takes name v s' := by
  constructor
  · intro hs
    by_cases hname : name ∈ knownNames
    · rcases (mem_knownNames_iff name).mp hname with rfl | rfl | rfl | rfl
      · obtain ⟨x, hx, rfl⟩ := Option.map_eq_some_iff.mp hs
        exact .brokerUrl hx
      · obtain ⟨x, hx, rfl⟩ := Option.map_eq_some_iff.mp hs
        exact .timeoutSecs hx
      · obtain ⟨x, hx, rfl⟩ := Option.map_eq_some_iff.mp hs
        exact .granularity hx
      · obtain ⟨x, hx, rfl⟩ := Option.map_eq_some_iff.mp hs
        exact .timeZone hx
    · rw [withField?_of_unknown hname] at hs
      rw [← Option.some.inj hs]
      exact .unknown hname
  · intro h
    cases h with
    | unknown h => exact withField?_of_unknown h s v
    | brokerUrl h => exact Option.map_eq_some_iff.mpr ⟨_, h, rfl⟩
    | timeoutSecs h => exact Option.map_eq_some_iff.mpr ⟨_, h, rfl⟩
    | granularity h => exact Option.map_eq_some_iff.mpr ⟨_, h, rfl⟩
    | timeZone h => exact Option.map_eq_some_iff.mpr ⟨_, h, rfl⟩

/-- A text is wanted: null and texts will do. -/
theorem exists_text?_iff (v : Json) :
    (∃ x, text? v = some x) ↔ v = .null ∨ ∃ text, v = .string text := by
  cases v <;> simp [text?]

/-- A number is wanted: null and whole numbers that are not negative will do. -/
theorem exists_natural?_iff (v : Json) :
    (∃ x, natural? v = some x) ↔ v = .null ∨ ∃ n : Nat, v = .int n := by
  cases v with
  | int m =>
    have hnat : 0 ≤ m ↔ ∃ n : Nat, m = n := ⟨Int.eq_ofNat_of_zero_le, fun ⟨n, hn⟩ => by omega⟩
    simp [natural?, hnat]
  | _ => simp [natural?]

/-- A field is taken unless it is known and does not fit; the settings do not matter. -/
theorem exists_takes_iff (s : FileSettings) (name : String) (v : Json) :
    (∃ s', s.Takes name v s') ↔ (name ∈ knownNames → Fits name v) := by
  constructor
  · rintro ⟨s', h⟩ hknown
    cases h with
    | timeoutSecs hx => exact (exists_natural?_iff v).mp ⟨_, hx⟩
    | unknown hname => exact absurd hknown hname
    | _ hx => exact (exists_text?_iff v).mp ⟨_, hx⟩
  · intro hfits
    by_cases hknown : name ∈ knownNames
    · have hv := hfits hknown
      rcases (mem_knownNames_iff name).mp hknown with rfl | rfl | rfl | rfl
      · obtain ⟨x, hx⟩ := (exists_text?_iff v).mpr hv
        exact ⟨_, .brokerUrl hx⟩
      · obtain ⟨x, hx⟩ := (exists_natural?_iff v).mpr hv
        exact ⟨_, .timeoutSecs hx⟩
      · obtain ⟨x, hx⟩ := (exists_text?_iff v).mpr hv
        exact ⟨_, .granularity hx⟩
      · obtain ⟨x, hx⟩ := (exists_text?_iff v).mpr hv
        exact ⟨_, .timeZone hx⟩
    · exact ⟨_, .unknown hknown⟩

/-! ## The settings and the object -/

/-- A value that says something: null does not. -/
def notNull? : Json → Option Json
  | .null => none
  | v => some v

theorem notNull?_eq_some_iff {v w : Json} (hw : w ≠ .null) : notNull? v = some w ↔ v = w := by
  cases v <;> simp [notNull?, hw.symm]

theorem notNull?_of_text? {v : Json} {x : Option String} (h : text? v = some x) :
    notNull? v = x.map .string := by
  cases v <;> cases h <;> rfl

theorem notNull?_of_natural? {v : Json} {x : Option Nat} (h : natural? v = some x) :
    notNull? v = x.map fun n : Nat => .int n := by
  rcases (exists_natural?_iff v).mp ⟨x, h⟩ with rfl | ⟨n, rfl⟩
  · cases h; rfl
  · obtain rfl : some n = x := Option.some.inj h
    rfl

/-- The value that is set under a known name. -/
def given? (s : FileSettings) (name : String) : Option Json :=
  if name = "broker_url" then s.brokerUrl.map .string
  else if name = "timeout_secs" then s.timeoutSecs.map fun n : Nat => .int n
  else if name = "granularity" then s.granularity.map .string
  else if name = "time_zone" then s.timeZone.map .string
  else none

/-- A field changes what is set under its name, and nothing else. -/
theorem given?_of_takes {s s' : FileSettings} {name : String} {v : Json} (h : s.Takes name v s')
    {known : String} (hknown : known ∈ knownNames) :
    s'.given? known = if known = name then notNull? v else s.given? known := by
  have hcases := (mem_knownNames_iff known).mp hknown
  cases h with
  | brokerUrl hx =>
    rw [notNull?_of_text? hx]
    rcases hcases with rfl | rfl | rfl | rfl <;> rfl
  | timeoutSecs hx =>
    rw [notNull?_of_natural? hx]
    rcases hcases with rfl | rfl | rfl | rfl <;> rfl
  | granularity hx =>
    rw [notNull?_of_text? hx]
    rcases hcases with rfl | rfl | rfl | rfl <;> rfl
  | timeZone hx =>
    rw [notNull?_of_text? hx]
    rcases hcases with rfl | rfl | rfl | rfl <;> rfl
  | unknown hname =>
    rw [if_neg (ne_of_mem_of_not_mem hknown hname)]
    split <;> rfl

/-- A name that is not known is kept, but not twice. -/
theorem unknown_of_takes {s s' : FileSettings} {name : String} {v : Json} (h : s.Takes name v s') :
    s'.unknown =
      if name ∈ knownNames ∨ name ∈ s.unknown then s.unknown else s.unknown ++ [name] := by
  cases h with
  | unknown hname =>
    simp only [hname, false_or]
    split <;> rfl
  | _ => rfl

/-- The settings are those of an object whose known fields fit. -/
structure Agrees (s : FileSettings) (fields : List (String × Json)) : Prop where
  given : ∀ name ∈ knownNames, s.given? name = (lookup name fields).bind notNull?
  unknown : s.unknown = (fields.map Prod.fst).filter (· ∉ knownNames)
  fits : ∀ name ∈ knownNames, ∀ v, lookup name fields = some v → Fits name v

/-- The start: no settings and no fields. -/
theorem agrees_nil : Agrees {} [] where
  given := by
    intro name hname
    rcases (mem_knownNames_iff name).mp hname with rfl | rfl | rfl | rfl <;> rfl
  unknown := rfl
  fits := nofun

/-- The step: settings that take a field are those of the object with that field set. -/
theorem Agrees.takes {s s' : FileSettings} {fields : List (String × Json)} (h : s.Agrees fields)
    {name : String} {v : Json} (ht : s.Takes name v s') : s'.Agrees (setField name v fields) where
  given := by
    intro known hknown
    rw [given?_of_takes ht hknown]
    split
    next hname => rw [hname, lookup_setField_self, Option.bind_some]
    next hne => rw [lookup_setField_ne hne, h.given known hknown]
  unknown := by
    rw [unknown_of_takes ht, names_setField, h.unknown]
    by_cases hmem : name ∈ fields.map Prod.fst
    · -- A name that the object has is known, or was kept when it came first.
      have hthere : name ∈ knownNames ∨ name ∈ (fields.map Prod.fst).filter (· ∉ knownNames) := by
        rw [List.mem_filter, decide_eq_true_eq]
        exact (Decidable.em (name ∈ knownNames)).imp_right fun hname => ⟨hmem, hname⟩
      rw [if_pos hthere, if_pos hmem]
    · rw [if_neg hmem, List.filter_append]
      by_cases hknown : name ∈ knownNames
      · simp [hknown]
      · simp [hknown, hmem]
  fits := by
    intro known hknown w hw
    by_cases hname : known = name
    · rw [hname, lookup_setField_self] at hw
      rw [hname, ← Option.some.inj hw]
      exact (exists_takes_iff s name v).mp ⟨s', ht⟩ (hname ▸ hknown)
    · rw [lookup_setField_ne hname] at hw
      exact h.fits known hknown w hw

/-! ## All fields -/

theorem names_cons {key : List Piece} {name : String} (h : Piece.text? key = some name) (w : Written)
    (written : List (List Piece × Written)) : names ((key, w) :: written) = name :: names written :=
  List.filterMap_cons_some h

/-- A field that is not written any more keeps its value. -/
theorem lookup_of_fields? {room : Nat} {before fields : List (String × Json)}
    {written : List (List Piece × Written)} (h : Written.fields? room before written = some fields)
    {name : String} (hname : name ∉ names written) : lookup name fields = lookup name before := by
  induction written generalizing before with
  | nil =>
    rw [Written.fields?] at h
    rw [Option.some.inj h]
  | cons field written ih =>
    obtain ⟨key, w⟩ := field
    rw [Written.fields?] at h
    obtain ⟨k, hk, h⟩ := Option.bind_eq_some_iff.mp h
    obtain ⟨v, _, h⟩ := Option.bind_eq_some_iff.mp h
    rw [names_cons hk, List.mem_cons, not_or] at hname
    rw [ih h hname.2, lookup_setField_ne hname.1]

/-- One more name of which a known one is new. -/
theorem KnownOnce.cons {name : String} {seen : List String} (h : KnownOnce seen)
    (hnew : ¬ (name ∈ knownNames ∧ name ∈ seen)) : KnownOnce (name :: seen) := by
  intro known hknown
  by_cases hname : known = name
  · subst hname
    have hzero : seen.count known = 0 := List.count_eq_zero.mpr fun hmem => hnew ⟨hknown, hmem⟩
    exact (List.count_cons_self.trans (congrArg Nat.succ hzero)).le
  · rw [List.count_cons_of_ne (Ne.symm hname)]
    exact h known hknown

/-- The order of the names does not matter. -/
theorem knownOnce_middle (name : String) (seen names : List String) :
    KnownOnce (name :: seen ++ names) ↔ KnownOnce (seen ++ name :: names) := by
  have hperm : (seen ++ name :: names).Perm (name :: seen ++ names) := List.perm_middle
  simp only [KnownOnce, hperm.count_eq]

/-- The run: the pass succeeds only where the general reader does, its settings are those of what that
one gives, and it has seen no known name twice. -/
theorem agrees_withFields? {s s' : FileSettings} {seen : List String}
    {written : List (List Piece × Written)} (hs : s.withFields? seen written = some s')
    {before : List (String × Json)} (h : s.Agrees before) (hseen : KnownOnce seen) :
    KnownOnce (seen ++ names written) ∧
      ∃ fields, Written.fields? (Json.depth - 1) before written = some fields ∧
        s'.Agrees fields := by
  induction written generalizing s seen before with
  | nil =>
    rw [names, List.filterMap_nil, List.append_nil]
    exact ⟨hseen, before, rfl, Option.some.inj hs ▸ h⟩
  | cons field written ih =>
    obtain ⟨key, w⟩ := field
    obtain ⟨name, hname, hs⟩ := Option.bind_eq_some_iff.mp hs
    obtain ⟨v, hv, hs⟩ := Option.bind_eq_some_iff.mp hs
    split at hs
    next => exact nomatch hs
    next hnew =>
      obtain ⟨s₁, hs₁, hs⟩ := Option.bind_eq_some_iff.mp hs
      have htakes := (withField?_eq_some_iff s s₁ name v).mp hs₁
      obtain ⟨honce, fields, hfields, hagrees⟩ := ih hs (h.takes htakes) (hseen.cons hnew)
      refine ⟨?_, fields, ?_, hagrees⟩
      · rw [names_cons hname]
        exact (knownOnce_middle name seen _).mp honce
      · rw [Written.fields?, hname, hv]
        exact hfields

/-- The pass succeeds where the known fields fit and none of them is written twice: a known field that
comes once keeps its value to the end, so it fits when it is read. -/
theorem exists_withFields? {written : List (List Piece × Written)}
    {before fields : List (String × Json)}
    (h : Written.fields? (Json.depth - 1) before written = some fields)
    (hfits : ∀ name ∈ knownNames, ∀ v, lookup name fields = some v → Fits name v)
    {seen : List String} (honce : KnownOnce (seen ++ names written)) (s : FileSettings) :
    ∃ s', s.withFields? seen written = some s' := by
  induction written generalizing s seen before with
  | nil => exact ⟨s, rfl⟩
  | cons field written ih =>
    obtain ⟨key, w⟩ := field
    rw [Written.fields?] at h
    obtain ⟨name, hname, h⟩ := Option.bind_eq_some_iff.mp h
    obtain ⟨v, hv, h⟩ := Option.bind_eq_some_iff.mp h
    rw [names_cons hname] at honce
    -- A known name is written here, and so neither before nor after.
    have hcount : name ∈ knownNames → seen.count name = 0 ∧ (names written).count name = 0 := by
      intro hknown
      have hle := honce name hknown
      rw [List.count_append, List.count_cons_self] at hle
      omega
    have hnew : ¬ (name ∈ knownNames ∧ name ∈ seen) := fun ⟨hknown, hmem⟩ =>
      List.count_eq_zero.mp (hcount hknown).1 hmem
    have hfield : name ∈ knownNames → Fits name v := by
      intro hknown
      refine hfits name hknown v ?_
      rw [lookup_of_fields? h (List.count_eq_zero.mp (hcount hknown).2), lookup_setField_self]
    obtain ⟨s₁, htakes⟩ := (exists_takes_iff s name v).mpr hfield
    obtain ⟨s', hs'⟩ := ih h ((knownOnce_middle name seen _).mpr honce) s₁
    refine ⟨s', ?_⟩
    rw [withFields?, hname, hv]
    show (if _ then _ else _) = _
    rw [if_neg hnew, (withField?_eq_some_iff s s₁ name v).mpr htakes]
    exact hs'

/-! ## Files of settings -/

/-- What is set under a name is what the object has there. -/
theorem Agrees.map_eq_some_iff {s : FileSettings} {fields : List (String × Json)}
    (h : s.Agrees fields) {name : String} (hname : name ∈ knownNames) {x : Option α}
    {write : α → Json} (hgiven : s.given? name = x.map write) (hwrite : ∀ a, write a ≠ .null)
    (hinj : ∀ a b, write a = write b → a = b) (a : α) :
    x = some a ↔ lookup name fields = some (write a) := by
  have hagrees := h.given name hname
  rw [hgiven] at hagrees
  constructor
  · rintro rfl
    obtain ⟨v, hv, hnull⟩ := Option.bind_eq_some_iff.mp hagrees.symm
    rw [hv, (notNull?_eq_some_iff (hwrite a)).mp hnull]
  · intro hlookup
    rw [hlookup, Option.bind_some, (notNull?_eq_some_iff (hwrite a)).mpr rfl] at hagrees
    obtain ⟨b, hb, hwritten⟩ := Option.map_eq_some_iff.mp hagrees
    rw [hb, hinj b a hwritten]

/-- Settings that agree with an object are what it sets. -/
theorem Agrees.sets {s : FileSettings} {fields : List (String × Json)} (h : s.Agrees fields) :
    s.Sets fields where
  brokerUrl := h.map_eq_some_iff (by decide) rfl nofun fun _ _ => Json.string.inj
  timeoutSecs := h.map_eq_some_iff (by decide) rfl nofun fun _ _ hn =>
    Int.ofNat.inj (Json.int.inj hn)
  granularity := h.map_eq_some_iff (by decide) rfl nofun fun _ _ => Json.string.inj
  timeZone := h.map_eq_some_iff (by decide) rfl nofun fun _ _ => Json.string.inj
  unknown := h.unknown

/-- A file of settings is an object whose known fields will do, and it sets what they say. -/
theorem acceptable_of_ofText? {content : String} {s : FileSettings} (h : ofText? content = some s) :
    ∃ fields, Acceptable content fields ∧ s.Sets fields := by
  obtain ⟨document, hdocument, h⟩ := Option.bind_eq_some_iff.mp h
  cases document with
  | object written =>
    obtain ⟨honce, fields, hfields, hagrees⟩ :=
      agrees_withFields? h agrees_nil fun _ _ => Nat.zero_le 1
    have hobject := (Json.ofText?_eq_object_iff content fields).mpr ⟨written, hdocument, hfields⟩
    refine ⟨fields, ⟨hobject, ?_, hagrees.fits⟩, hagrees.sets⟩
    rw [writtenNames, hdocument]
    exact honce
  | _ => exact nomatch h

/-- Every object whose known fields will do is a file of settings. -/
theorem ofText?_of_acceptable {content : String} {fields : List (String × Json)}
    (h : Acceptable content fields) : ∃ s, ofText? content = some s ∧ s.Sets fields := by
  obtain ⟨written, hdocument, hfields⟩ := (Json.ofText?_eq_object_iff content fields).mp h.isObject
  have honce : KnownOnce ([] ++ names written) := by
    have hwritten := h.once
    rwa [writtenNames, hdocument] at hwritten
  obtain ⟨s, hs⟩ := exists_withFields? hfields h.fits honce {}
  have hcontent : ofText? content = some s := by
    rw [ofText?, hdocument]
    exact hs
  obtain ⟨fields', hacceptable, hsets⟩ := acceptable_of_ofText? hcontent
  have hsame : fields' = fields :=
    Json.object.inj (Option.some.inj (hacceptable.isObject.symm.trans h.isObject))
  exact ⟨s, hcontent, hsame ▸ hsets⟩

end BrokerQuery.FileSettings
