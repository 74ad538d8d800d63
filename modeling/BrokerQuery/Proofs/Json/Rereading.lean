import BrokerQuery.Proofs.Json.RoundTrip
/-
  Values that were read.

  A value that comes out of a document is `Readable`, as long as none of its numbers is a
  floating-point number (`Integral`): the reader gives whole numbers of 64 bits only
  (`Numeral.has64Bits_of_value?`), a field that comes twice is there once (`Collected.setField`),
  and what nests too deep is not read at all.  So written again it is read as the same value.

  What the reader does at each node is said once (`says_of_value?`), and the induction follows it
  (`readable_of_value?`).  A field that is written twice loses its first value, which may be
  anything; so what is kept of the fields before is not that their values are readable but that
  those without floating-point numbers are (`Collected`).
-/

namespace BrokerQuery.Json

/-- No number in the value is a floating-point number. -/
inductive Integral : Json → Prop
  | null : Integral .null
  | bool (b : Bool) : Integral (.bool b)
  | int (n : Int) : Integral (.int n)
  | string (s : String) : Integral (.string s)
  | array {items : List Json} (h : ∀ v ∈ items, Integral v) : Integral (.array items)
  | object {fields : List (String × Json)} (h : ∀ field ∈ fields, Integral field.2) :
      Integral (.object fields)

/-- A number that is read is a floating-point number or a whole number of 64 bits. -/
theorem Numeral.has64Bits_of_value? {n : Numeral} {v : Json} (h : n.value? = some v) :
    (∃ m, v = .int m ∧ Has64Bits m) ∨ ∃ x, v = .float x := by
  have hfloat : n.float?.map .float = some v → ∃ x, v = .float x := by
    intro hmap
    obtain ⟨x, _, rfl⟩ := Option.map_eq_some_iff.mp hmap
    exact ⟨x, rfl⟩
  unfold value? at h
  simp only at h
  split_ifs at h with hwhole hnegative hsmall hsize
  · refine .inl ⟨_, (Option.some.inj h).symm, ?_⟩
    unfold Has64Bits
    omega
  · exact .inr (hfloat h)
  · refine .inl ⟨_, (Option.some.inj h).symm, ?_⟩
    unfold maxUnsigned at hsize
    unfold Has64Bits
    omega
  · exact .inr (hfloat h)
  · exact .inr (hfloat h)

/-! ## Fields -/

/-- A field is the one that was set or was there before. -/
theorem mem_setField {name : String} {v : Json} {fields : List (String × Json)}
    {field : String × Json} (h : field ∈ setField name v fields) :
    field = (name, v) ∨ field ∈ fields := by
  induction fields with
  | nil => exact .inl (List.mem_singleton.mp h)
  | cons first fields ih =>
    obtain ⟨k, w⟩ := first
    rw [setField] at h
    split at h
    next hk =>
      rcases List.mem_cons.mp h with hfirst | hrest
      · exact .inl (hk ▸ hfirst)
      · exact .inr (List.mem_cons_of_mem _ hrest)
    next =>
      rcases List.mem_cons.mp h with hfirst | hrest
      · exact .inr (hfirst ▸ List.mem_cons_self)
      · exact (ih hrest).imp_right (List.mem_cons_of_mem _)

/-- A field that is set keeps its place, or goes to the end if it is new. -/
theorem nodup_setField (name : String) (v : Json) {fields : List (String × Json)}
    (h : (fields.map Prod.fst).Nodup) : ((setField name v fields).map Prod.fst).Nodup := by
  rw [names_setField]
  split
  next => exact h
  next hnew =>
    exact (List.perm_append_singleton name _).nodup_iff.mpr (List.nodup_cons.mpr ⟨hnew, h⟩)

/-- Fields as they are collected: no two of one name, and the values without floating-point numbers
can be read back. -/
structure Collected (room : Nat) (fields : List (String × Json)) : Prop where
  names : (fields.map Prod.fst).Nodup
  values : ∀ field ∈ fields, field.2.Integral → Readable room field.2

theorem collected_nil (room : Nat) : Collected room [] :=
  ⟨List.nodup_nil, List.forall_mem_nil _⟩

/-- One more field; a value that it takes the place of does not matter any more. -/
theorem Collected.setField {room : Nat} {fields : List (String × Json)} (h : Collected room fields)
    (name : String) {v : Json} (hv : v.Integral → Readable room v) :
    Collected room (setField name v fields) where
  names := nodup_setField name v h.names
  values := by
    intro field hfield
    rcases mem_setField hfield with rfl | hold
    · exact hv
    · exact h.values field hold

/-! ## Values -/

/-- What a document says, by its kind. -/
inductive Says : Nat → Written → Json → Prop
  | null (room : Nat) : Says room .null .null
  | bool (room : Nat) (b : Bool) : Says room (.bool b) (.bool b)
  | int (room : Nat) (n : Numeral) {m : Int} (h : Has64Bits m) : Says room (.number n) (.int m)
  | float (room : Nat) (n : Numeral) (x : Binary64) : Says room (.number n) (.float x)
  | string (room : Nat) (pieces : List Piece) (s : String) : Says room (.string pieces) (.string s)
  | array {room : Nat} {ws : List Written} {items : List Json}
      (h : Written.values? room ws = some items) : Says (room + 1) (.array ws) (.array items)
  | object {room : Nat} {ws : List (List Piece × Written)} {fields : List (String × Json)}
      (h : Written.fields? room [] ws = some fields) : Says (room + 1) (.object ws) (.object fields)

/-- What is read of a document is of the same kind as the document. -/
theorem says_of_value? {room : Nat} {w : Written} {v : Json} (h : w.value? room = some v) :
    Says room w v := by
  cases w with
  | null =>
    rw [Written.value?] at h
    exact Option.some.inj h ▸ .null room
  | bool b =>
    rw [Written.value?] at h
    exact Option.some.inj h ▸ .bool room b
  | number n =>
    rw [Written.value?] at h
    rcases Numeral.has64Bits_of_value? h with ⟨m, rfl, hm⟩ | ⟨x, rfl⟩
    · exact .int room n hm
    · exact .float room n x
  | string pieces =>
    rw [Written.value?] at h
    obtain ⟨s, _, rfl⟩ := Option.map_eq_some_iff.mp h
    exact .string room pieces s
  | array ws =>
    cases room with
    | zero =>
      rw [Written.value?] at h
      cases h
    | succ room =>
      rw [Written.value?] at h
      obtain ⟨items, hitems, rfl⟩ := Option.map_eq_some_iff.mp h
      exact .array hitems
  | object ws =>
    cases room with
    | zero =>
      rw [Written.value?] at h
      cases h
    | succ room =>
      rw [Written.value?] at h
      obtain ⟨fields, hfields, rfl⟩ := Option.map_eq_some_iff.mp h
      exact .object hfields

mutual
/-- A value that is read has a floating-point number in it or can be read back. -/
theorem readable_of_value? (room : Nat) (w : Written) (v : Json) (h : w.value? room = some v)
    (hintegral : v.Integral) : Readable room v := by
  cases says_of_value? h with
  | null => exact .null
  | bool _ b => exact .bool b
  | int _ _ hm => exact .int hm
  | float => exact nomatch hintegral
  | string _ _ s => exact .string s
  | array hitems =>
    cases hintegral with
    | array hall =>
      exact .array fun v hv => readable_of_values? _ _ _ hitems v hv (hall v hv)
  | object hfields =>
    have hcollected := collected_of_fields? _ [] _ _ hfields (collected_nil _)
    cases hintegral with
    | object hall =>
      exact .object hcollected.names fun field hfield =>
        hcollected.values field hfield (hall field hfield)

theorem readable_of_values? : ∀ (room : Nat) (ws : List Written) (items : List Json),
    Written.values? room ws = some items → ∀ v ∈ items, v.Integral → Readable room v
  | room, [], items, h => by
    rw [Written.values?] at h
    rw [← Option.some.inj h]
    exact List.forall_mem_nil _
  | room, w :: ws, items, h => by
    rw [Written.values?] at h
    obtain ⟨v, hv, h⟩ := Option.bind_eq_some_iff.mp h
    obtain ⟨vs, hvs, h⟩ := Option.bind_eq_some_iff.mp h
    rw [← Option.some.inj h]
    exact List.forall_mem_cons.mpr
      ⟨readable_of_value? room w v hv, readable_of_values? room ws vs hvs⟩

theorem collected_of_fields? : ∀ (room : Nat) (before : List (String × Json))
    (ws : List (List Piece × Written)) (fields : List (String × Json)),
    Written.fields? room before ws = some fields → Collected room before → Collected room fields
  | room, before, [], fields, h, hbefore => by
    rw [Written.fields?] at h
    rwa [← Option.some.inj h]
  | room, before, (key, w) :: ws, fields, h, hbefore => by
    rw [Written.fields?] at h
    obtain ⟨k, _, h⟩ := Option.bind_eq_some_iff.mp h
    obtain ⟨v, hv, h⟩ := Option.bind_eq_some_iff.mp h
    have hcollected := hbefore.setField k (readable_of_value? room w v hv)
    exact collected_of_fields? room _ ws fields h hcollected
end

/-- What can be read back can be read back where more may nest. -/
theorem Readable.mono {room more : Nat} {v : Json} (h : Readable room v) (hle : room ≤ more) :
    Readable more v := by
  induction h generalizing more with
  | null => exact .null
  | bool b => exact .bool b
  | int h => exact .int h
  | string s => exact .string s
  | array _ ih =>
    obtain ⟨more, rfl⟩ := Nat.exists_eq_add_of_le' (Nat.le_of_add_left_le hle)
    exact .array fun v hv => ih v hv (Nat.le_of_succ_le_succ hle)
  | object hnames _ ih =>
    obtain ⟨more, rfl⟩ := Nat.exists_eq_add_of_le' (Nat.le_of_add_left_le hle)
    exact .object hnames fun field hfield => ih field hfield (Nat.le_of_succ_le_succ hle)

/-- What is read as an array was written as one, and its items are read with less room. -/
theorem exists_values?_of_array {room : Nat} {w : Written} {items : List Json}
    (h : w.value? room = some (.array items)) :
    ∃ less ws, room = less + 1 ∧ Written.values? less ws = some items := by
  cases says_of_value? h with
  | array hitems => exact ⟨_, _, rfl, hitems⟩

/-- What is read as an object was written as one. -/
theorem ofText?_eq_object_iff (s : String) (fields : List (String × Json)) :
    ofText? s = some (.object fields) ↔
      ∃ ws, Written.ofChars? s.toList = some (.object ws) ∧
        Written.fields? (depth - 1) [] ws = some fields := by
  rw [ofText?, Option.bind_eq_some_iff]
  constructor
  · rintro ⟨w, hw, hvalue⟩
    generalize hroom : depth = room at hvalue
    cases says_of_value? hvalue with
    | object hfields => exact ⟨_, hw, hfields⟩
  · rintro ⟨ws, hw, hfields⟩
    refine ⟨.object ws, hw, ?_⟩
    show (Written.fields? (depth - 1) [] ws).map Json.object = _
    rw [hfields]
    rfl

/-- An item of an array that was read is read back from a text of its own, if it has no
floating-point number in it. -/
theorem ofText?_compact_of_mem {s : String} {items : List Json}
    (h : ofText? s = some (.array items)) {v : Json} (hv : v ∈ items) (hintegral : v.Integral) :
    ofText? v.compact = some v := by
  obtain ⟨w, _, hw⟩ := Option.bind_eq_some_iff.mp h
  obtain ⟨less, ws, hdepth, hvalues⟩ := exists_values?_of_array hw
  have hreadable := readable_of_values? less ws items hvalues v hv hintegral
  have hless : less ≤ depth := by omega
  exact (hreadable.mono hless).ofText?_compact

end BrokerQuery.Json
