import Mathlib

/-!
# Disjoint intervals

Half-open intervals of natural numbers, given by two functions on a list of records. Their
lengths add up to no more than a common upper bound when no two of them overlap.
-/

set_option autoImplicit false

namespace UsacKernel.Computation.Intervals

variable {α : Type}

/-- The two intervals have no point in common. -/
def Apart (lo hi : α → ℕ) (x y : α) : Prop := hi x ≤ lo y ∨ hi y ≤ lo x

/-- INTERNAL: being apart does not depend on the order. -/
theorem Apart.symm {lo hi : α → ℕ} {x y : α} (h : Apart lo hi x y) : Apart lo hi y x :=
  Or.symm h

/-- INTERNAL: intervals that are apart have no point in common. -/
theorem Apart.disjoint {lo hi : α → ℕ} {x y : α} (h : Apart lo hi x y) :
    List.Disjoint (List.range' (lo x) (hi x - lo x)) (List.range' (lo y) (hi y - lo y)) := by
  intro n hx hy
  rw [List.mem_range'_1] at hx hy
  unfold Apart at h
  omega

/-- INTERNAL: intervals below `bound`, apart from each other, have together at most
`bound` points. -/
theorem sum_length_le (lo hi : α → ℕ) (bound : ℕ) (l : List α) (hbound : ∀ x ∈ l, hi x ≤ bound)
    (happart : l.Pairwise (Apart lo hi)) : (l.map (fun x => hi x - lo x)).sum ≤ bound := by
  have hnodup : (l.flatMap (fun x => List.range' (lo x) (hi x - lo x))).Nodup := by
    rw [List.nodup_flatMap]
    exact ⟨fun x _ => List.nodup_range', happart.imp Apart.disjoint⟩
  have hsub : l.flatMap (fun x => List.range' (lo x) (hi x - lo x)) ⊆ List.range bound := by
    intro n hn
    obtain ⟨x, hx, hn⟩ := List.mem_flatMap.mp hn
    rw [List.mem_range'_1] at hn
    have hle := hbound x hx
    rw [List.mem_range]
    omega
  have hlen := (List.subperm_of_subset hnodup hsub).length_le
  rw [List.length_flatMap, List.length_range] at hlen
  simpa using hlen

end UsacKernel.Computation.Intervals
