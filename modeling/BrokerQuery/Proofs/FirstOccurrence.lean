import Mathlib.Data.List.Induction
/-
  Lists that grow by what they do not have yet.

  An item is added to a list unless the list has its key already.  Adding several items one after
  the other adds the first occurrence of each key that the list did not have, in order
  (`foldl_add`).  The induction takes the items from the end: the last one is new iff its key is
  neither in the list nor among the items before it.

  In the same way a list without its repeats has every item once (`nodup_eraseDups`), in the order of
  the first occurrences (`idxOf_eraseDups_lt_iff`).  When lists are put together it does not matter
  whether each of them lost its repeats before (`eraseDups_flatMap_eraseDups`).
-/

namespace BrokerQuery.FirstOccurrence

variable {α β : Type} [DecidableEq α]

theorem eraseDups_concat (as : List α) (a : α) :
    (as ++ [a]).eraseDups = as.eraseDups ++ if a ∈ as then [] else [a] := by
  rw [List.eraseDups_append]
  by_cases ha : a ∈ as <;> simp [List.removeAll, List.eraseDups_cons, ha]

theorem eraseDups_eraseDups (as : List α) : as.eraseDups.eraseDups = as.eraseDups := by
  induction as using List.reverseRecOn with
  | nil => rfl
  | append_singleton as a ih =>
    rw [eraseDups_concat]
    by_cases ha : a ∈ as
    · rw [if_pos ha, List.append_nil, ih]
    · rw [if_neg ha, eraseDups_concat, ih, if_neg (mt List.mem_eraseDups.mp ha)]

/-- Without its repeats a list has every item once. -/
theorem nodup_eraseDups (as : List α) : as.eraseDups.Nodup := by
  induction as using List.reverseRecOn with
  | nil => exact List.nodup_nil
  | append_singleton as a ih =>
    rw [eraseDups_concat]
    by_cases ha : a ∈ as
    · rwa [if_pos ha, List.append_nil]
    · rw [if_neg ha]
      refine List.nodup_append.mpr ⟨ih, List.pairwise_singleton _ a, fun b hb c hc => ?_⟩
      rw [List.mem_singleton.mp hc]
      exact ne_of_mem_of_not_mem (List.mem_eraseDups.mp hb) ha

/-- Without the repeats, items stand in the order in which they first occur; an item that does not
occur counts as standing behind the end. -/
theorem idxOf_eraseDups_lt_iff (as : List α) (a b : α) :
    as.eraseDups.idxOf a < as.eraseDups.idxOf b ↔ as.idxOf a < as.idxOf b := by
  induction as using List.reverseRecOn with
  | nil => rfl
  | append_singleton as c ih =>
    -- Both lists have the same items, so an item is behind the end of both or of neither.
    have hbound (x : α) : as.eraseDups.idxOf x < as.eraseDups.length ↔ as.idxOf x < as.length := by
      rw [List.idxOf_lt_length_iff, List.idxOf_lt_length_iff, List.mem_eraseDups]
    have ha := hbound a
    have hb := hbound b
    rw [eraseDups_concat]
    by_cases hc : c ∈ as
    · grind
    · grind

/-- The first of two lists may lose its repeats before. -/
theorem eraseDups_eraseDups_append (as bs : List α) :
    (as.eraseDups ++ bs).eraseDups = (as ++ bs).eraseDups := by
  induction bs using List.reverseRecOn with
  | nil => rw [List.append_nil, List.append_nil, eraseDups_eraseDups]
  | append_singleton bs b ih =>
    rw [← List.append_assoc, ← List.append_assoc, eraseDups_concat, eraseDups_concat, ih]
    simp only [List.mem_append, List.mem_eraseDups]

/-- So may the second. -/
theorem eraseDups_append_eraseDups (as bs : List α) :
    (as ++ bs.eraseDups).eraseDups = (as ++ bs).eraseDups := by
  induction bs using List.reverseRecOn with
  | nil => rfl
  | append_singleton bs b ih =>
    rw [← List.append_assoc as, eraseDups_concat (as ++ bs), ← ih, eraseDups_concat bs]
    by_cases hb : b ∈ bs
    · rw [if_pos hb, if_pos (List.mem_append_right as hb), List.append_nil, List.append_nil]
    · rw [if_neg hb, ← List.append_assoc, eraseDups_concat]
      simp only [List.mem_append, List.mem_eraseDups]

/-- Lists that are put together lose their repeats, whether or not each lost its own before. -/
theorem eraseDups_flatMap_eraseDups (f : β → List α) (bs : List β) :
    (bs.flatMap fun b => (f b).eraseDups).eraseDups = (bs.flatMap f).eraseDups := by
  induction bs with
  | nil => rfl
  | cons b bs ih =>
    rw [List.flatMap_cons, List.flatMap_cons, eraseDups_eraseDups_append,
      ← eraseDups_append_eraseDups, ih, eraseDups_append_eraseDups]

/-- Items that are added unless their key is there: what is added are the first occurrences of the
keys that were not there. -/
theorem foldl_add {key : β → α} {make : α → β} {add : List β → α → List β}
    (hkey : ∀ a, key (make a) = a)
    (hadd : ∀ bs a, add bs a = if a ∈ bs.map key then bs else bs ++ [make a])
    (bs : List β) (as : List α) :
    as.foldl add bs = bs ++ (as.eraseDups.filter (· ∉ bs.map key)).map make := by
  induction as using List.reverseRecOn with
  | nil => simp
  | append_singleton as a ih =>
    rw [List.foldl_append, ih, List.foldl_cons, List.foldl_nil, hadd, eraseDups_concat]
    have hmake : key ∘ make = id := funext hkey
    -- The keys so far are those of the list and those of the items before `a`.
    have hkeys : a ∈ (bs ++ (as.eraseDups.filter (· ∉ bs.map key)).map make).map key ↔
        a ∈ bs.map key ∨ a ∈ as := by
      rw [List.map_append, List.map_map, hmake, List.map_id, List.mem_append, List.mem_filter,
        List.mem_eraseDups, decide_eq_true_iff]
      by_cases hbs : a ∈ bs.map key
      · exact iff_of_true (.inl hbs) (.inl hbs)
      · exact or_congr_right (and_iff_left hbs)
    by_cases has : a ∈ as
    · rw [if_pos (hkeys.mpr (.inr has)), if_pos has, List.append_nil]
    · rw [if_neg has, List.filter_append]
      by_cases hbs : a ∈ bs.map key
      · rw [if_pos (hkeys.mpr (.inl hbs)), List.filter_cons_of_neg (by simpa using hbs),
          List.filter_nil, List.append_nil]
      · rw [if_neg fun h => (hkeys.mp h).elim hbs has,
          List.filter_cons_of_pos (by simpa using hbs), List.filter_nil, List.map_append,
          List.append_assoc]
        rfl

end BrokerQuery.FirstOccurrence
