import Mathlib

/-!
# Gaps between intervals

Records with half-open intervals `[lo x, hi x)` of natural numbers, in ascending order and
apart. `lowestGap` walks up the list for the lowest place of a given size between two bounds
that no interval meets, `highestGap` is its mirror image. `lowestGap_isLeast` and
`highestGap_isGreatest` say that they find what they look for whenever it exists.
-/

set_option autoImplicit false

namespace UsacKernel.Computation.GapSearch

variable {α : Type}

/-- The intervals are not empty, and each ends before the next begins. -/
structure Ascending (lo hi : α → ℕ) (l : List α) : Prop where
  nonempty : ∀ x ∈ l, lo x < hi x
  ordered : l.Pairwise (fun x y => hi x ≤ lo y)

/-- `[a, a + size)` meets no interval. -/
def Fits (lo hi : α → ℕ) (size : ℕ) (l : List α) (a : ℕ) : Prop :=
  ∀ x ∈ l, a + size ≤ lo x ∨ hi x ≤ a

/-- The lowest place from `a` on for `size` numbers below `top`. -/
def lowestGap (lo hi : α → ℕ) (size top : ℕ) : List α → ℕ → Option ℕ
  | [], a => if a + size ≤ top then some a else none
  | x :: xs, a =>
    if hi x ≤ a then lowestGap lo hi size top xs a
    else if a + size ≤ lo x ∧ a + size ≤ top then some a
    else lowestGap lo hi size top xs (hi x)

section Ascending

variable {lo hi : α → ℕ} {l : List α}

/-- INTERNAL: the rest of an ascending list is ascending. -/
theorem Ascending.tail {x : α} (h : Ascending lo hi (x :: l)) : Ascending lo hi l :=
  ⟨fun y hy => h.nonempty y (List.mem_cons_of_mem x hy), (List.pairwise_cons.mp h.ordered).2⟩

/-- INTERNAL: what follows the first interval lies above it. -/
theorem Ascending.above {x : α} (h : Ascending lo hi (x :: l)) : ∀ y ∈ l, hi x ≤ lo y :=
  (List.pairwise_cons.mp h.ordered).1

/-- INTERNAL: a place fits among intervals when it is clear of the first and fits among the
rest. -/
theorem fits_cons {size a : ℕ} {x : α} :
    Fits lo hi size (x :: l) a ↔ (a + size ≤ lo x ∨ hi x ≤ a) ∧ Fits lo hi size l a :=
  List.forall_mem_cons

/-- INTERNAL: a place below the first interval is below all of them. -/
theorem Ascending.fits_below {x : α} {size a : ℕ} (h : Ascending lo hi (x :: l))
    (ha : a + size ≤ lo x) : Fits lo hi size l a := by
  intro y hy
  have hx := h.nonempty x List.mem_cons_self
  have hxy := h.above y hy
  exact Or.inl (by omega)

/-- INTERNAL: when there is a place, the lowest one is found. -/
theorem lowestGap_isLeast {size top : ℕ} (h : Ascending lo hi l) {a r : ℕ}
    (hr : lowestGap lo hi size top l a = some r) :
    IsLeast {b | a ≤ b ∧ b + size ≤ top ∧ Fits lo hi size l b} r := by
  induction l generalizing a with
  | nil =>
    rw [lowestGap, Option.ite_none_right_eq_some] at hr
    obtain ⟨htop, hr⟩ := hr
    cases hr
    exact ⟨⟨le_rfl, htop, fun x hx => absurd hx List.not_mem_nil⟩, fun b hb => hb.1⟩
  | cons x xs ih =>
    have hx := h.nonempty x List.mem_cons_self
    unfold lowestGap at hr
    split_ifs at hr with hbelow hroom
    · -- the interval lies below `a`, so it is in nobody's way
      obtain ⟨⟨hle, htop, hfits⟩, hleast⟩ := ih h.tail hr
      refine ⟨⟨hle, htop, fits_cons.mpr ⟨Or.inr (by omega), hfits⟩⟩, ?_⟩
      rintro b ⟨hb, hbtop, hbfits⟩
      exact hleast ⟨hb, hbtop, (fits_cons.mp hbfits).2⟩
    · cases hr
      exact ⟨⟨le_rfl, hroom.2, fits_cons.mpr ⟨Or.inl hroom.1, h.fits_below hroom.1⟩⟩,
        fun b hb => hb.1⟩
    · -- nothing fits below the interval: a place from `a` on is above it
      obtain ⟨⟨hle, htop, hfits⟩, hleast⟩ := ih h.tail hr
      refine ⟨⟨by omega, htop, fits_cons.mpr ⟨Or.inr hle, hfits⟩⟩, ?_⟩
      rintro b ⟨hb, hbtop, hbfits⟩
      obtain ⟨hbx, hbrest⟩ := fits_cons.mp hbfits
      exact hleast ⟨by omega, hbtop, hbrest⟩

/-- INTERNAL: the search starts at its bound or at the end of an interval. -/
theorem lowestGap_eq_some {size top a r : ℕ} (hr : lowestGap lo hi size top l a = some r) :
    r = a ∨ ∃ x ∈ l, r = hi x := by
  induction l generalizing a with
  | nil =>
    rw [lowestGap, Option.ite_none_right_eq_some] at hr
    exact Or.inl (Option.some.inj hr.2).symm
  | cons x xs ih =>
    unfold lowestGap at hr
    split_ifs at hr
    · rcases ih hr with h | ⟨y, hy, h⟩
      · exact Or.inl h
      · exact Or.inr ⟨y, List.mem_cons_of_mem x hy, h⟩
    · exact Or.inl (Option.some.inj hr).symm
    · rcases ih hr with h | ⟨y, hy, h⟩
      · exact Or.inr ⟨x, List.mem_cons_self, h⟩
      · exact Or.inr ⟨y, List.mem_cons_of_mem x hy, h⟩

/-- INTERNAL: when none is found there is no place. -/
theorem lowestGap_eq_none {size top : ℕ} (h : Ascending lo hi l) {a : ℕ}
    (hr : lowestGap lo hi size top l a = none) :
    ∀ b, a ≤ b → b + size ≤ top → ¬ Fits lo hi size l b := by
  induction l generalizing a with
  | nil =>
    rw [lowestGap, ite_eq_right_iff] at hr
    intro b hb htop
    exact absurd (hr (by omega)) (by simp)
  | cons x xs ih =>
    have hx := h.nonempty x List.mem_cons_self
    unfold lowestGap at hr
    intro b hb htop hfits
    obtain ⟨hbx, hrest⟩ := fits_cons.mp hfits
    split_ifs at hr with hbelow hroom
    · exact ih h.tail hr b hb htop hrest
    · exact ih h.tail hr b (by omega) htop hrest

end Ascending

/-! ## From above -/

/-- The highest place below `top` for `size` numbers from `bottom` on: the lowest one of the
intervals reflected at `bound`. -/
def highestGap (lo hi : α → ℕ) (bound size bottom : ℕ) (l : List α) (top : ℕ) : Option ℕ :=
  (lowestGap (fun x => bound - hi x) (fun x => bound - lo x) size (bound - bottom) l.reverse
    (bound - top)).map (fun r => bound - r)

section Reflection

variable {lo hi : α → ℕ} {l : List α} {bound : ℕ}

/-- INTERNAL: seen from the other end, an ascending list is ascending in reverse. -/
theorem Ascending.reflect (h : Ascending lo hi l) (hbound : ∀ x ∈ l, hi x ≤ bound) :
    Ascending (fun x => bound - hi x) (fun x => bound - lo x) l.reverse := by
  constructor
  · intro x hx
    have hmem := List.mem_reverse.mp hx
    have hlt := h.nonempty x hmem
    have hle := hbound x hmem
    omega
  · rw [List.pairwise_reverse]
    exact h.ordered.imp (fun hxy => by omega)

/-- INTERNAL: seen from the other end, the same places fit, measured by their ends. -/
theorem fits_reflect {size b : ℕ} (hbound : ∀ x ∈ l, lo x < hi x ∧ hi x ≤ bound)
    (hb : b + size ≤ bound) :
    Fits (fun x => bound - hi x) (fun x => bound - lo x) size l.reverse (bound - (b + size)) ↔
      Fits lo hi size l b := by
  unfold Fits
  simp only [List.mem_reverse]
  refine forall₂_congr fun x hx => ?_
  have hle := hbound x hx
  omega

/-- INTERNAL: when there is a place, the end of the highest one is found. -/
theorem highestGap_isGreatest {size bottom top : ℕ} (hsize : 0 < size) (h : Ascending lo hi l)
    (hbound : ∀ x ∈ l, hi x ≤ bound) (htop : top ≤ bound) {r : ℕ}
    (hr : highestGap lo hi bound size bottom l top = some r) :
    size ≤ r ∧
      IsGreatest {b | bottom ≤ b ∧ b + size ≤ top ∧ Fits lo hi size l b} (r - size) := by
  obtain ⟨s, hs, rfl⟩ := Option.map_eq_some_iff.mp hr
  obtain ⟨⟨hle, hbottom, hfits⟩, hleast⟩ := lowestGap_isLeast (h.reflect hbound) hs
  have hrange : ∀ x ∈ l, lo x < hi x ∧ hi x ≤ bound :=
    fun x hx => ⟨h.nonempty x hx, hbound x hx⟩
  have hend : bound - (bound - s - size + size) = s := by omega
  refine ⟨by omega, ⟨by omega, by omega, ?_⟩, ?_⟩
  · rw [← fits_reflect hrange (by omega), hend]
    exact hfits
  · rintro b ⟨hb, hbtop, hbfits⟩
    have hsb : s ≤ bound - (b + size) :=
      hleast ⟨by omega, by omega, (fits_reflect hrange (by omega)).mpr hbfits⟩
    omega

/-- INTERNAL: when none is found there is no place. -/
theorem highestGap_eq_none {size bottom top : ℕ} (h : Ascending lo hi l)
    (hbound : ∀ x ∈ l, hi x ≤ bound) (htop : top ≤ bound)
    (hr : highestGap lo hi bound size bottom l top = none) :
    ∀ b, bottom ≤ b → b + size ≤ top → ¬ Fits lo hi size l b := by
  intro b hb hbtop hfits
  have hrange : ∀ x ∈ l, lo x < hi x ∧ hi x ≤ bound :=
    fun x hx => ⟨h.nonempty x hx, hbound x hx⟩
  refine lowestGap_eq_none (h.reflect hbound) (Option.map_eq_none_iff.mp hr)
    (bound - (b + size)) (by omega) (by omega) ?_
  exact (fits_reflect hrange (by omega)).mpr hfits

end Reflection

/-! ## The neighbours of a gap -/

/-- The first interval that begins at `a` or above. -/
def nextOf (lo : α → ℕ) (l : List α) (a : ℕ) : Option α := l.find? (fun x => decide (a ≤ lo x))

/-- The last interval that ends at `a` or below. -/
def prevOf (hi : α → ℕ) (l : List α) (a : ℕ) : Option α :=
  l.reverse.find? (fun x => decide (hi x ≤ a))

section Neighbours

variable {lo hi : α → ℕ} {l : List α}

/-- INTERNAL: the next interval is one of the list, and does not start below the address. -/
theorem nextOf_eq_some {a : ℕ} {x : α} (h : nextOf lo l a = some x) : x ∈ l ∧ a ≤ lo x := by
  have hx := List.find?_some h
  exact ⟨List.mem_of_find?_eq_some h, of_decide_eq_true hx⟩

/-- INTERNAL: the previous interval is one of the list, and does not end above the address. -/
theorem prevOf_eq_some {a : ℕ} {x : α} (h : prevOf hi l a = some x) : x ∈ l ∧ hi x ≤ a := by
  have hx := List.find?_some h
  exact ⟨List.mem_reverse.mp (List.mem_of_find?_eq_some h), of_decide_eq_true hx⟩

/-- INTERNAL: what begins at `a` or above does not begin before the next interval. -/
theorem Ascending.nextOf_le {a : ℕ} {x y : α} (h : Ascending lo hi l)
    (hx : nextOf lo l a = some x) (hy : y ∈ l) (ha : a ≤ lo y) : lo x ≤ lo y := by
  obtain ⟨-, before, after, rfl, hbefore⟩ := List.find?_eq_some_iff_append.mp hx
  rcases List.mem_append.mp hy with hy | hy
  · exact absurd ha (by simpa using hbefore y hy)
  · rcases List.mem_cons.mp hy with rfl | hy
    · exact le_rfl
    · have hxy := (List.pairwise_cons.mp (List.pairwise_append.mp h.ordered).2.1).1 y hy
      have hlt := h.nonempty x (by simp)
      omega

/-- INTERNAL: two places without an interval between them have the same neighbour above. -/
theorem nextOf_congr {a b : ℕ} (h : ∀ x ∈ l, a ≤ lo x ↔ b ≤ lo x) : nextOf lo l a = nextOf lo l b :=
  List.find?_congr (fun x hx => by simp [h x hx])

end Neighbours

end UsacKernel.Computation.GapSearch
