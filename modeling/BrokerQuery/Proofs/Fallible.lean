/-
  Computations that may fail.

  What can be read off a result of `Except`: a success of a composite computation is a success of
  each part, and a traversal gives one result for each item, each from a success.

  `Yields` is the other direction: a property that the result of each part has, if there is one, is a
  property of the result of the whole.

  `Decides` says all about a computation: exactly what it gives and exactly how it fails.  Of a
  composite computation it tells which failure comes first.
-/

namespace BrokerQuery.Fallible

variable {ε δ α β : Type}

theorem of_map_eq_ok {x : Except ε α} {f : α → β} {b : β} (h : x.map f = .ok b) :
    ∃ a, x = .ok a ∧ f a = b := by
  cases x with
  | error e => exact absurd h (by simp [Except.map])
  | ok a => exact ⟨a, rfl, Except.ok.inj h⟩

theorem of_mapError_eq_ok {x : Except ε α} {f : ε → δ} {a : α} (h : x.mapError f = .ok a) :
    x = .ok a := by
  cases x with
  | error e =>
    have herror : (Except.error (f e) : Except δ α) = .ok a := h
    exact nomatch herror
  | ok b => exact congrArg Except.ok (Except.ok.inj h)

/-- Mapping the result leaves the errors alone. -/
theorem map_eq_error_iff (x : Except ε α) (f : α → β) (e : ε) :
    x.map f = .error e ↔ x = .error e := by
  cases x <;> simp [Except.map]

theorem mapError_eq_error_iff (x : Except ε α) (f : ε → δ) (d : δ) :
    x.mapError f = .error d ↔ ∃ e, x = .error e ∧ d = f e := by
  constructor
  · intro h
    cases x with
    | error e => exact ⟨e, rfl, (Except.error.inj h).symm⟩
    | ok a =>
      have hok : (Except.ok a : Except δ α) = .error d := h
      exact nomatch hok
  · rintro ⟨e, hx, hd⟩
    rw [hx, hd]; rfl

/-- A composite succeeds only where both parts do. -/
theorem of_bind_eq_ok {x : Except ε α} {f : α → Except ε β} {b : β} (h : (x >>= f) = .ok b) :
    ∃ a, x = .ok a ∧ f a = .ok b := by
  cases x with
  | error e => exact absurd h (by simp [bind, Except.bind])
  | ok a => exact ⟨a, rfl, h⟩

/-- Each result of a traversal that succeeds comes from an item. -/
theorem mem_of_mapM_eq_ok {f : α → Except ε β} {as : List α} {bs : List β}
    (h : as.mapM f = .ok bs) : ∀ b ∈ bs, ∃ a ∈ as, f a = .ok b := by
  induction as generalizing bs with
  | nil =>
    have hbs : [] = bs := Except.ok.inj h
    intro b hb
    rw [← hbs] at hb
    exact absurd hb List.not_mem_nil
  | cons a as ih =>
    rw [List.mapM_cons] at h
    obtain ⟨b, hb, h⟩ := of_bind_eq_ok h
    obtain ⟨bs', hbs', h⟩ := of_bind_eq_ok h
    have hbs : b :: bs' = bs := Except.ok.inj h
    intro c hc
    rw [← hbs] at hc
    rcases List.mem_cons.mp hc with hc | hc
    · exact ⟨a, List.mem_cons_self, by rw [hc]; exact hb⟩
    · obtain ⟨a', ha', hf⟩ := ih hbs' c hc
      exact ⟨a', List.mem_cons_of_mem a ha', hf⟩

/-- A traversal by a function whose successes are known: it succeeds iff each item does, and the
results are those of the items. -/
theorem mapM_eq_ok_iff {f : α → Except ε β} {Succeeds : α → Prop} {value : α → β}
    (hf : ∀ a b, f a = .ok b ↔ Succeeds a ∧ b = value a) (as : List α) (bs : List β) :
    as.mapM f = .ok bs ↔ (∀ a ∈ as, Succeeds a) ∧ bs = as.map value := by
  constructor
  · intro h
    induction as generalizing bs with
    | nil => exact ⟨fun a ha => absurd ha List.not_mem_nil, (Except.ok.inj h).symm⟩
    | cons a as ih =>
      rw [List.mapM_cons] at h
      obtain ⟨b, hb, h⟩ := of_bind_eq_ok h
      obtain ⟨bs', hbs', h⟩ := of_bind_eq_ok h
      obtain ⟨ha, hvalue⟩ := (hf a b).mp hb
      obtain ⟨has, hvalues⟩ := ih bs' hbs'
      refine ⟨List.forall_mem_cons.mpr ⟨ha, has⟩, ?_⟩
      rw [← Except.ok.inj h, hvalue, hvalues, List.map_cons]
  · rintro ⟨has, hbs⟩
    rw [hbs]
    clear hbs
    -- The results are those of the items, so that each item succeeds is all there is to show.
    induction as with
    | nil => rfl
    | cons a as ih =>
      obtain ⟨ha, has⟩ := List.forall_mem_cons.mp has
      rw [List.mapM_cons, (hf a _).mpr ⟨ha, rfl⟩, ih has]
      rfl

/-- A traversal fails as its first item that fails: all items before it succeed. -/
theorem mapM_eq_error_iff (f : α → Except ε β) (as : List α) (e : ε) :
    as.mapM f = .error e ↔ ∃ before a after, as = before ++ a :: after ∧
      (∀ x ∈ before, ∃ b, f x = .ok b) ∧ f a = .error e := by
  induction as with
  | nil =>
    have hok : ([] : List α).mapM f = .ok [] := rfl
    rw [hok]
    refine iff_of_false nofun ?_
    rintro ⟨before, a, after, h, _⟩
    exact absurd h (by simp)
  | cons a as ih =>
    rw [List.mapM_cons]
    cases ha : f a with
    | error e' =>
      constructor
      · intro h
        have he : e' = e := Except.error.inj h
        exact ⟨[], a, as, rfl, fun x hx => absurd hx List.not_mem_nil, by rw [ha, he]⟩
      · rintro ⟨before, a', after, h, hbefore, ha'⟩
        cases before with
        | nil =>
          obtain ⟨rfl, _⟩ := List.cons.inj h
          rw [Except.error.inj (ha.symm.trans ha')]; rfl
        | cons x before =>
          -- An item before the first failure succeeds, and this one fails.
          obtain ⟨rfl, _⟩ := List.cons.inj h
          obtain ⟨b, hb⟩ := hbefore a List.mem_cons_self
          exact nomatch ha.symm.trans hb
    | ok b =>
      have hrest : (do let b ← (Except.ok b : Except ε β); let bs ← as.mapM f; pure (b :: bs)) =
          (as.mapM f).map (b :: ·) := rfl
      rw [hrest, map_eq_error_iff, ih]
      constructor
      · rintro ⟨before, a', after, h, hbefore, ha'⟩
        exact ⟨a :: before, a', after, by rw [h]; rfl,
          List.forall_mem_cons.mpr ⟨⟨b, ha⟩, hbefore⟩, ha'⟩
      · rintro ⟨before, a', after, h, hbefore, ha'⟩
        cases before with
        | nil =>
          obtain ⟨rfl, _⟩ := List.cons.inj h
          exact nomatch ha.symm.trans ha'
        | cons x before =>
          exact ⟨before, a', after, (List.cons.inj h).2,
            (List.forall_mem_cons.mp hbefore).2, ha'⟩

/-- What a computation gives, if it gives anything, has a property. -/
def Yields (P : α → Prop) (x : Except ε α) : Prop := ∀ a, x = .ok a → P a

namespace Yields

variable {P : α → Prop} {Q : β → Prop} {x : Except ε α}

theorem ok {a : α} (h : P a) : Yields P (.ok a : Except ε α) := by
  intro a' ha
  rw [← Except.ok.inj ha]; exact h

theorem any : Yields (fun _ => True) x :=
  fun _ _ => trivial

theorem error {e : ε} : Yields P (.error e : Except ε α) :=
  fun _ h => nomatch h

/-- What holds of the first result can be used for the second. -/
theorem bind {f : α → Except ε β} (h : Yields P x) (hf : ∀ a, P a → Yields Q (f a)) :
    Yields Q (x >>= f) := by
  intro b hb
  obtain ⟨a, ha, hb⟩ := of_bind_eq_ok hb
  exact hf a (h a ha) b hb

theorem map {f : α → β} (h : Yields P x) (hf : ∀ a, P a → Q (f a)) : Yields Q (x.map f) := by
  intro b hb
  obtain ⟨a, ha, hb⟩ := of_map_eq_ok hb
  rw [← hb]; exact hf a (h a ha)

theorem mapError {f : ε → δ} (h : Yields P x) : Yields P (x.mapError f) :=
  fun a ha => h a (of_mapError_eq_ok ha)

/-- What each step preserves, a fold preserves. -/
theorem foldlM {f : α → β → Except ε α} (hf : ∀ a b, P a → Yields P (f a b)) {a : α} (ha : P a)
    (bs : List β) : Yields P (bs.foldlM f a) := by
  induction bs generalizing a with
  | nil => exact ok ha
  | cons b bs ih =>
    rw [List.foldlM_cons]
    exact (hf a b ha).bind fun a' ha' => ih ha'

end Yields

/-- A computation gives exactly what it is said to give and fails exactly as it is said to fail. -/
structure Decides (x : Except ε α) (Gives : α → Prop) (Fails : ε → Prop) : Prop where
  ok_iff : ∀ a, x = .ok a ↔ Gives a
  error_iff : ∀ e, x = .error e ↔ Fails e

namespace Decides

variable {x : Except ε α} {Gives : α → Prop} {Fails : ε → Prop}

/-- It is enough that both descriptions are right where they apply, and that one of them applies. -/
theorem of_total (hok : ∀ a, Gives a → x = .ok a) (herror : ∀ e, Fails e → x = .error e)
    (htotal : (∃ a, Gives a) ∨ ∃ e, Fails e) : Decides x Gives Fails := by
  refine ⟨fun a => ⟨fun h => ?_, hok a⟩, fun e => ⟨fun h => ?_, herror e⟩⟩
  · rcases htotal with ⟨a', ha⟩ | ⟨e, he⟩
    · rw [hok a' ha] at h
      rwa [← Except.ok.inj h]
    · exact nomatch (herror e he).symm.trans h
  · rcases htotal with ⟨a, ha⟩ | ⟨e', he⟩
    · exact nomatch (hok a ha).symm.trans h
    · rw [herror e' he] at h
      rwa [← Except.error.inj h]

/-- What follows a computation is reached iff the computation succeeds. -/
theorem bind {f : α → Except ε β} {Gives' : α → β → Prop} {Fails' : α → ε → Prop}
    (h : Decides x Gives Fails) (hf : ∀ a, Gives a → Decides (f a) (Gives' a) (Fails' a)) :
    Decides (x >>= f) (fun b => ∃ a, Gives a ∧ Gives' a b)
      (fun e => Fails e ∨ ∃ a, Gives a ∧ Fails' a e) := by
  cases hx : x with
  | error e =>
    have hnone : ∀ a, ¬ Gives a := fun a ha => nomatch hx.symm.trans ((h.ok_iff a).mpr ha)
    refine ⟨fun b => iff_of_false nofun fun ⟨a, ha, _⟩ => hnone a ha, fun e' => ?_⟩
    have hiff : (Except.error e : Except ε β) = .error e' ↔ Fails e' := by
      rw [← h.error_iff, hx, Except.error.injEq, Except.error.injEq]
    exact hiff.trans ⟨.inl, fun hfails => hfails.elim id fun ⟨a, ha, _⟩ => absurd ha (hnone a)⟩
  | ok a =>
    have hgives : ∀ a', Gives a' ↔ a' = a := by
      intro a'
      rw [← h.ok_iff, hx, Except.ok.injEq, eq_comm]
    have hfails : ∀ e, ¬ Fails e := fun e he => nomatch hx.symm.trans ((h.error_iff e).mpr he)
    have hrest := hf a ((hgives a).mpr rfl)
    refine ⟨fun b => (hrest.ok_iff b).trans ?_, fun e => (hrest.error_iff e).trans ?_⟩
    · simp [hgives]
    · simp [hgives, hfails]

end Decides
end BrokerQuery.Fallible
