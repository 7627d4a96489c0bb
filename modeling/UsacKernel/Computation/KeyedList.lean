import Mathlib

/-!
# Lists searched by key

A list of records that is searched from the front for the first record with a given
key. When no two records share a key the list is a finite partial map: putting a record
in front, changing the first match in place and removing the first match are the three
updates of that map.
-/

set_option autoImplicit false

namespace UsacKernel.Computation.KeyedList

variable {α κ β : Type} [DecidableEq κ] (key : α → κ) (val : α → β)

/-- The value of the first record with key `k`. -/
def valueAt (l : List α) (k : κ) : Option β :=
  (l.find? (fun e => decide (key e = k))).map val

def UniqueKeys (l : List α) : Prop := (l.map key).Nodup

/-- Change the first record with key `k`. -/
def modifyFirst (k : κ) (f : α → α) : List α → List α
  | [] => []
  | e :: l => if key e = k then f e :: l else e :: modifyFirst k f l

/-- INTERNAL: the empty list has no values. -/
@[simp] theorem valueAt_nil (k : κ) : valueAt key val [] k = none := rfl

/-- INTERNAL: the first element decides for its key. -/
theorem valueAt_cons (e : α) (l : List α) (k : κ) :
    valueAt key val (e :: l) k = if key e = k then some (val e) else valueAt key val l k := by
  unfold valueAt
  by_cases h : key e = k <;> simp [h]

/-- INTERNAL: a key has no value when no element has the key. -/
theorem valueAt_eq_none_iff (l : List α) (k : κ) :
    valueAt key val l k = none ↔ ∀ e ∈ l, key e ≠ k := by
  simp [valueAt]

/-- INTERNAL: the records of a list with unique keys are the pairs of its map. -/
theorem valueAt_eq_some_iff (l : List α) (h : UniqueKeys key l) (k : κ) (v : β) :
    valueAt key val l k = some v ↔ ∃ e ∈ l, key e = k ∧ val e = v := by
  induction l with
  | nil => simp
  | cons e l ih =>
    obtain ⟨hfresh, htail⟩ := List.nodup_cons.mp h
    rw [valueAt_cons]
    by_cases hk : key e = k
    · subst hk
      simp only [if_true, Option.some.injEq, List.mem_cons, exists_eq_or_imp, true_and]
      refine ⟨Or.inl, ?_⟩
      rintro (hv | ⟨f, hf, hkey, -⟩)
      · exact hv
      · exact absurd (List.mem_map.mpr ⟨f, hf, hkey⟩) hfresh
    · simp [hk, ih htail]

/-- INTERNAL: an element in front updates the map at its key. -/
theorem valueAt_cons_eq_update (e : α) (l : List α) :
    valueAt key val (e :: l) = Function.update (valueAt key val l) (key e) (some (val e)) := by
  funext k
  rw [valueAt_cons]
  by_cases h : key e = k
  · subst h
    simp
  · simp [h, Ne.symm h]

/-- INTERNAL: an element with a new key keeps the keys unique. -/
theorem UniqueKeys.cons {e : α} {l : List α} (h : UniqueKeys key l)
    (hfresh : valueAt key val l (key e) = none) : UniqueKeys key (e :: l) := by
  rw [valueAt_eq_none_iff] at hfresh
  refine List.nodup_cons.mpr ⟨?_, h⟩
  intro hmem
  obtain ⟨f, hf, hkey⟩ := List.mem_map.mp hmem
  exact hfresh f hf hkey

/-- INTERNAL: changing an element but not its key keeps the list of keys. -/
theorem map_key_modifyFirst (k : κ) (f : α → α) (hf : ∀ e, key (f e) = key e) (l : List α) :
    (modifyFirst key k f l).map key = l.map key := by
  induction l with
  | nil => rfl
  | cons e l ih =>
    unfold modifyFirst
    split
    · simp [hf]
    · simp [ih]

/-- INTERNAL: changing the value of the first match changes the map at its key. -/
theorem valueAt_modifyFirst (k : κ) (f : α → α) (v : β) (hf : ∀ e, key (f e) = key e)
    (hv : ∀ e, val (f e) = v) (l : List α) (hmem : valueAt key val l k ≠ none) :
    valueAt key val (modifyFirst key k f l) =
      Function.update (valueAt key val l) k (some v) := by
  induction l with
  | nil => simp at hmem
  | cons e l ih =>
    rw [valueAt_cons] at hmem
    unfold modifyFirst
    by_cases hk : key e = k
    · subst hk
      simp only [if_true]
      rw [valueAt_cons_eq_update, valueAt_cons_eq_update, hf, hv, Function.update_idem]
    · simp only [hk, if_false] at hmem ⊢
      rw [valueAt_cons_eq_update, valueAt_cons_eq_update, ih hmem,
        Function.update_comm (Ne.symm hk)]

/-- INTERNAL: with unique keys, removing the first match removes the key. -/
theorem valueAt_eraseP (k : κ) (l : List α) (h : UniqueKeys key l) :
    valueAt key val (l.eraseP (fun e => decide (key e = k))) =
      Function.update (valueAt key val l) k none := by
  induction l with
  | nil =>
    funext j
    by_cases hj : j = k <;> simp [hj]
  | cons e l ih =>
    obtain ⟨hfresh, htail⟩ := List.nodup_cons.mp h
    by_cases hk : key e = k
    · subst hk
      have hnone : valueAt key val l (key e) = none := by
        rw [valueAt_eq_none_iff]
        intro f hf hkey
        exact hfresh (List.mem_map.mpr ⟨f, hf, hkey⟩)
      rw [List.eraseP_cons_of_pos (by simp), valueAt_cons_eq_update, Function.update_idem,
        ← hnone, Function.update_eq_self]
    · rw [List.eraseP_cons_of_neg (by simp [hk]), valueAt_cons_eq_update,
        valueAt_cons_eq_update, ih htail, Function.update_comm (Ne.symm hk)]

omit [DecidableEq κ] in
/-- INTERNAL: removing an element keeps the keys unique. -/
theorem UniqueKeys.eraseP {l : List α} (h : UniqueKeys key l) (p : α → Bool) :
    UniqueKeys key (l.eraseP p) :=
  h.sublist (List.eraseP_sublist.map key)

omit [DecidableEq κ] in
/-- INTERNAL: keys that are different numbers of a range are no more than the range. -/
theorem UniqueKeys.length_le {l : List α} (h : UniqueKeys key l) (f : κ → ℕ)
    (hf : Function.Injective f) (lo hi : ℕ) (hrange : ∀ e ∈ l, lo ≤ f (key e) ∧ f (key e) < hi) :
    l.length ≤ hi - lo := by
  have hnodup : ((l.map key).map f).Nodup := List.Nodup.map hf h
  have hsubset : ((l.map key).map f).toFinset ⊆ Finset.Ico lo hi := by
    intro n hn
    simp only [List.mem_toFinset, List.mem_map, exists_exists_and_eq_and] at hn
    obtain ⟨e, he, rfl⟩ := hn
    exact Finset.mem_Ico.mpr (hrange e he)
  have hcard := Finset.card_le_card hsubset
  rwa [List.toFinset_card_of_nodup hnodup, List.length_map, List.length_map, Nat.card_Ico] at hcard

end UsacKernel.Computation.KeyedList
