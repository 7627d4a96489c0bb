import Mathlib

/-!
# Maps from ranges of numbers

`RangeMap α` stores values under half-open ranges that are in ascending order and apart, the
shape of a range-indexed tree. `store` overwrites: an entry that the new range meets is cut to
what lies outside of it, or dropped. `clear` cuts in the same way and stores nothing.

A map is worked with through a division of its entries `A ++ M ++ B` with `A` below and `B`
above the range that is written: then `store` and `clear` change the middle only
(`store_spans`, `clear_spans`).
-/

set_option autoImplicit false

namespace UsacKernel.Computation

/-- A value under the range `[lo, hi)`. -/
structure Span (α : Type) where
  lo : ℕ
  hi : ℕ
  val : α
  deriving DecidableEq

namespace Span

variable {α : Type}

/-- The number lies in the range. -/
def contains (s : Span α) (a : ℕ) : Bool := decide (s.lo ≤ a ∧ a < s.hi)

/-- The range meets `[a, b)`. -/
def meets (s : Span α) (a b : ℕ) : Bool := decide (a < b ∧ a < s.hi ∧ s.lo < b)

/-- What is left of the entries below `a`. -/
def below (a : ℕ) (l : List (Span α)) : List (Span α) :=
  l.filterMap (fun s => if s.lo < a then some { s with hi := min s.hi a } else none)

/-- What is left of the entries from `a` on. -/
def above (a : ℕ) (l : List (Span α)) : List (Span α) :=
  l.filterMap (fun s => if a < s.hi then some { s with lo := max s.lo a } else none)

/-- The ranges are not empty, and each ends before the next begins. -/
structure Ordered (l : List (Span α)) : Prop where
  nonempty : ∀ s ∈ l, s.lo < s.hi
  apart : l.Pairwise (fun s t => s.hi ≤ t.lo)

variable {l A B : List (Span α)} {a : ℕ}

/-- INTERNAL: what is below a point: the spans that start there, cut off at the point. -/
theorem mem_below {s : Span α} :
    s ∈ below a l ↔ ∃ t ∈ l, t.lo < a ∧ s = { t with hi := min t.hi a } := by
  simp only [below, List.mem_filterMap, Option.ite_none_right_eq_some, Option.some.injEq]
  constructor
  · rintro ⟨t, ht, hlo, rfl⟩
    exact ⟨t, ht, hlo, rfl⟩
  · rintro ⟨t, ht, hlo, rfl⟩
    exact ⟨t, ht, hlo, rfl⟩

/-- INTERNAL: what is above a point: the spans that end there, from the point on. -/
theorem mem_above {s : Span α} :
    s ∈ above a l ↔ ∃ t ∈ l, a < t.hi ∧ s = { t with lo := max t.lo a } := by
  simp only [above, List.mem_filterMap, Option.ite_none_right_eq_some, Option.some.injEq]
  constructor
  · rintro ⟨t, ht, hhi, rfl⟩
    exact ⟨t, ht, hhi, rfl⟩
  · rintro ⟨t, ht, hhi, rfl⟩
    exact ⟨t, ht, hhi, rfl⟩

/-- INTERNAL: the part below a point of two lists is the parts of each. -/
theorem below_append : below a (A ++ B) = below a A ++ below a B := List.filterMap_append

/-- INTERNAL: the part above a point of two lists is the parts of each. -/
theorem above_append : above a (A ++ B) = above a A ++ above a B := List.filterMap_append

/-- INTERNAL: nothing is below a point of nothing. -/
@[simp] theorem below_nil : below a ([] : List (Span α)) = [] := rfl

/-- INTERNAL: nothing is above a point of nothing. -/
@[simp] theorem above_nil : above a ([] : List (Span α)) = [] := rfl

/-- INTERNAL: the first span gives its part below the point, if it starts below. -/
theorem below_cons (s : Span α) :
    below a (s :: l) = (if s.lo < a then [{ s with hi := min s.hi a }] else []) ++ below a l := by
  unfold below
  rw [List.filterMap_cons]
  split_ifs <;> rfl

/-- INTERNAL: the first span gives its part above the point, if it ends above. -/
theorem above_cons (s : Span α) :
    above a (s :: l) = (if a < s.hi then [{ s with lo := max s.lo a }] else []) ++ above a l := by
  unfold above
  rw [List.filterMap_cons]
  split_ifs <;> rfl

/-- INTERNAL: entries that end before `a` are all left below it. -/
theorem below_eq_self (hne : ∀ s ∈ l, s.lo < s.hi) (h : ∀ s ∈ l, s.hi ≤ a) : below a l = l := by
  induction l with
  | nil => rfl
  | cons s l ih =>
    have hs := hne s List.mem_cons_self
    have ha := h s List.mem_cons_self
    rw [below_cons, if_pos (by omega), Nat.min_eq_left ha,
      ih (fun t ht => hne t (List.mem_cons_of_mem s ht))
        (fun t ht => h t (List.mem_cons_of_mem s ht))]
    rfl

/-- INTERNAL: nothing is below a point where all spans start later. -/
theorem below_eq_nil (h : ∀ s ∈ l, a ≤ s.lo) : below a l = [] := by
  rw [below, List.filterMap_eq_nil_iff]
  intro s hs
  rw [if_neg (by have := h s hs; omega)]

/-- INTERNAL: entries that begin at `a` or above are all left from `a` on. -/
theorem above_eq_self (hne : ∀ s ∈ l, s.lo < s.hi) (h : ∀ s ∈ l, a ≤ s.lo) : above a l = l := by
  induction l with
  | nil => rfl
  | cons s l ih =>
    have hs := hne s List.mem_cons_self
    have ha := h s List.mem_cons_self
    rw [above_cons, if_pos (by omega), Nat.max_eq_left ha,
      ih (fun t ht => hne t (List.mem_cons_of_mem s ht))
        (fun t ht => h t (List.mem_cons_of_mem s ht))]
    rfl

/-- INTERNAL: nothing is above a point where all spans end before. -/
theorem above_eq_nil (h : ∀ s ∈ l, s.hi ≤ a) : above a l = [] := by
  rw [above, List.filterMap_eq_nil_iff]
  intro s hs
  rw [if_neg (by have := h s hs; omega)]

/-- INTERNAL: the part below a point is in order. -/
theorem Ordered.below (h : Ordered l) (a : ℕ) : Ordered (Span.below a l) := by
  constructor
  · intro s hs
    obtain ⟨t, ht, hlo, rfl⟩ := mem_below.mp hs
    have hne := h.nonempty t ht
    exact lt_min hne hlo
  · refine h.apart.filterMap _ ?_
    intro s t hst s' hs' t' ht'
    rw [Option.ite_none_right_eq_some, Option.some.injEq] at hs' ht'
    obtain ⟨_, rfl⟩ := hs'
    obtain ⟨_, rfl⟩ := ht'
    exact (min_le_left _ _).trans hst

/-- INTERNAL: the part above a point is in order. -/
theorem Ordered.above (h : Ordered l) (a : ℕ) : Ordered (Span.above a l) := by
  constructor
  · intro s hs
    obtain ⟨t, ht, hhi, rfl⟩ := mem_above.mp hs
    have hne := h.nonempty t ht
    exact max_lt hne hhi
  · refine h.apart.filterMap _ ?_
    intro s t hst s' hs' t' ht'
    rw [Option.ite_none_right_eq_some, Option.some.injEq] at hs' ht'
    obtain ⟨_, rfl⟩ := hs'
    obtain ⟨_, rfl⟩ := ht'
    exact hst.trans (le_max_left _ _)

/-- INTERNAL: the part below a point ends there. -/
theorem hi_le_of_mem_below {s : Span α} (hs : s ∈ Span.below a l) : s.hi ≤ a := by
  obtain ⟨t, _, _, rfl⟩ := mem_below.mp hs
  exact min_le_right _ _

/-- INTERNAL: the part above a point starts there. -/
theorem le_lo_of_mem_above {s : Span α} (hs : s ∈ Span.above a l) : a ≤ s.lo := by
  obtain ⟨t, _, _, rfl⟩ := mem_above.mp hs
  exact le_max_right _ _

/-- INTERNAL: two lists in order, one below the other, are in order together. -/
theorem Ordered.append (hA : Ordered A) (hB : Ordered B) (h : ∀ s ∈ A, ∀ t ∈ B, s.hi ≤ t.lo) :
    Ordered (A ++ B) := by
  constructor
  · intro s hs
    rcases List.mem_append.mp hs with hs | hs
    · exact hA.nonempty s hs
    · exact hB.nonempty s hs
  · exact List.pairwise_append.mpr ⟨hA.apart, hB.apart, h⟩

/-- INTERNAL: two parts of an ordered list are in order, one below the other. -/
theorem Ordered.of_append (h : Ordered (A ++ B)) :
    Ordered A ∧ Ordered B ∧ ∀ s ∈ A, ∀ t ∈ B, s.hi ≤ t.lo := by
  obtain ⟨hA, hB, hAB⟩ := List.pairwise_append.mp h.apart
  exact ⟨⟨fun s hs => h.nonempty s (List.mem_append_left B hs), hA⟩,
    ⟨fun s hs => h.nonempty s (List.mem_append_right A hs), hB⟩, hAB⟩

/-- INTERNAL: one span that is not empty is in order. -/
theorem ordered_singleton {s : Span α} (h : s.lo < s.hi) : Ordered [s] := by
  constructor
  · intro t ht
    rw [List.mem_singleton.mp ht]
    exact h
  · exact List.pairwise_singleton _ _

end Span

/-- Values under ascending ranges that are apart. -/
structure RangeMap (α : Type) where
  spans : List (Span α)
  ordered : Span.Ordered spans

namespace RangeMap

variable {α : Type}

def empty : RangeMap α := ⟨[], ⟨by simp, List.Pairwise.nil⟩⟩

/-- The entry that contains `a`. -/
def lookup (m : RangeMap α) (a : ℕ) : Option α :=
  (m.spans.find? (fun s => s.contains a)).map Span.val

/-- The first entry that meets `[a, b)`. -/
def find (m : RangeMap α) (a b : ℕ) : Option α :=
  (m.spans.find? (fun s => s.meets a b)).map Span.val

/-- The entries that meet `[a, b)`, in ascending order. -/
def findAll (m : RangeMap α) (a b : ℕ) : List α :=
  (m.spans.filter (fun s => s.meets a b)).map Span.val

/-- The last entry that begins below `a`. -/
def prev (m : RangeMap α) (a : ℕ) : Option α :=
  (m.spans.reverse.find? (fun s => decide (s.lo < a))).map Span.val

/-- The first entry that begins at `a` or above. -/
def next (m : RangeMap α) (a : ℕ) : Option α :=
  (m.spans.find? (fun s => decide (a ≤ s.lo))).map Span.val

/-- INTERNAL: what is left around a range leaves room for it. -/
theorem cut_apart {l : List (Span α)} {lo hi : ℕ} (h : lo ≤ hi) :
    ∀ s ∈ Span.below lo l, ∀ t ∈ Span.above hi l, s.hi ≤ t.lo := by
  intro s hs t ht
  have hs' := Span.hi_le_of_mem_below hs
  have ht' := Span.le_lo_of_mem_above ht
  omega

/-- Put `x` under `[lo, hi)`, over whatever is there. -/
def store (m : RangeMap α) (lo hi : ℕ) (x : α) : RangeMap α :=
  if h : lo < hi then
    { spans := Span.below lo m.spans ++ ([⟨lo, hi, x⟩] ++ Span.above hi m.spans)
      ordered := by
        have hnew : Span.Ordered ([⟨lo, hi, x⟩] ++ Span.above hi m.spans) := by
          refine (Span.ordered_singleton h).append (m.ordered.above hi) ?_
          intro s hs t ht
          rw [List.mem_singleton.mp hs]
          exact Span.le_lo_of_mem_above ht
        refine (m.ordered.below lo).append hnew ?_
        intro s hs t ht
        rcases List.mem_append.mp ht with ht | ht
        · rw [List.mem_singleton.mp ht]
          exact Span.hi_le_of_mem_below hs
        · exact cut_apart h.le s hs t ht }
  else m

/-- Remove everything from `[lo, hi)`. -/
def clear (m : RangeMap α) (lo hi : ℕ) : RangeMap α :=
  if h : lo < hi then
    { spans := Span.below lo m.spans ++ Span.above hi m.spans
      ordered := (m.ordered.below lo).append (m.ordered.above hi) (cut_apart h.le) }
  else m

section Division

variable {m : RangeMap α} {A M B : List (Span α)} {lo hi : ℕ}

/-- INTERNAL: what is below a range, when only the middle entries meet it. -/
theorem below_division (hm : m.spans = A ++ M ++ B) (hA : ∀ s ∈ A, s.hi ≤ lo)
    (hB : ∀ s ∈ B, lo ≤ s.lo) : Span.below lo m.spans = A ++ Span.below lo M := by
  obtain ⟨hAM, _, _⟩ := Span.Ordered.of_append (hm ▸ m.ordered)
  rw [hm, Span.below_append, Span.below_append,
    Span.below_eq_self hAM.of_append.1.nonempty hA, Span.below_eq_nil hB, List.append_nil]

/-- INTERNAL: what is above a point behind the first of three parts is what the middle part has
there, and the last part. -/
theorem above_division (hm : m.spans = A ++ M ++ B) (hA : ∀ s ∈ A, s.hi ≤ hi)
    (hB : ∀ s ∈ B, hi ≤ s.lo) : Span.above hi m.spans = Span.above hi M ++ B := by
  obtain ⟨_, hordB, _⟩ := Span.Ordered.of_append (hm ▸ m.ordered)
  rw [hm, Span.above_append, Span.above_append, Span.above_eq_nil hA,
    Span.above_eq_self hordB.nonempty hB, List.nil_append]

/-- INTERNAL: storing changes the entries that meet the range. -/
theorem store_spans (hm : m.spans = A ++ M ++ B) (h : lo < hi) (hA : ∀ s ∈ A, s.hi ≤ lo)
    (hB : ∀ s ∈ B, hi ≤ s.lo) (x : α) :
    (m.store lo hi x).spans =
      A ++ (Span.below lo M ++ ([⟨lo, hi, x⟩] ++ Span.above hi M)) ++ B := by
  rw [store, dif_pos h]
  dsimp only
  rw [below_division hm hA (fun s hs => h.le.trans (hB s hs)),
    above_division hm (fun s hs => (hA s hs).trans h.le) hB]
  simp only [List.append_assoc]

/-- INTERNAL: clearing changes the entries that meet the range. -/
theorem clear_spans (hm : m.spans = A ++ M ++ B) (h : lo < hi) (hA : ∀ s ∈ A, s.hi ≤ lo)
    (hB : ∀ s ∈ B, hi ≤ s.lo) :
    (m.clear lo hi).spans = A ++ (Span.below lo M ++ Span.above hi M) ++ B := by
  rw [clear, dif_pos h]
  dsimp only
  rw [below_division hm hA (fun s hs => h.le.trans (hB s hs)),
    above_division hm (fun s hs => (hA s hs).trans h.le) hB]
  simp only [List.append_assoc]

end Division

end RangeMap

end UsacKernel.Computation
