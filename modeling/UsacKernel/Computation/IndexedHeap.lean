import UsacKernel.Computation.RangeMap

/-!
# Records in a heap, indexed by their ranges

Records that know their own range live in a heap of pointers, and a range map leads from a
number to the record whose range contains it. The two are kept by hand: a record's bounds and
its entry in the index are written separately. `Represents heap index cells` says that they
agree, and that together they stand for the list `cells` of pointers and records.

An operation is verified by giving the middle part of the list that it changes
(`Represents.replace`): the heap may be written only at the pointers of that part, and the
index must come out as the ranges of the new records.
-/

set_option autoImplicit false

namespace UsacKernel.Computation.IndexedHeap

/-- Records with a range. -/
class Ranged (ρ : Type) where
  lo : ρ → ℕ
  hi : ρ → ℕ

variable {ρ : Type} [Ranged ρ]

/-- The entry of a record in the index. -/
def span (c : ℕ × ρ) : Span ℕ := ⟨Ranged.lo c.2, Ranged.hi c.2, c.1⟩

/-- The heap and the index stand for a list of pointers and records. -/
structure Represents (heap : ℕ → ρ) (index : RangeMap ℕ) (cells : List (ℕ × ρ)) : Prop where
  spans : index.spans = cells.map span
  read : ∀ c ∈ cells, heap c.1 = c.2
  nodup : (cells.map Prod.fst).Nodup

variable {heap heap' : ℕ → ρ} {index index' : RangeMap ℕ} {cells A M M' B : List (ℕ × ρ)}

/-- INTERNAL: the ranges of the records are in order. -/
theorem Represents.ordered (h : Represents heap index cells) : Span.Ordered (cells.map span) :=
  h.spans ▸ index.ordered

/-- INTERNAL: records are not empty. -/
theorem Represents.nonempty (h : Represents heap index cells) {c : ℕ × ρ} (hc : c ∈ cells) :
    Ranged.lo c.2 < Ranged.hi c.2 :=
  h.ordered.nonempty (span c) (List.mem_map_of_mem hc)

/-- INTERNAL: a part of the list before another lies below it. -/
theorem Represents.below (h : Represents heap index (A ++ B)) {c d : ℕ × ρ} (hc : c ∈ A)
    (hd : d ∈ B) : Ranged.hi c.2 ≤ Ranged.lo d.2 := by
  have hord := h.ordered
  rw [List.map_append] at hord
  exact hord.of_append.2.2 (span c) (List.mem_map_of_mem hc) (span d) (List.mem_map_of_mem hd)

/-- INTERNAL: different parts of the list have different pointers. -/
theorem Represents.ne (h : Represents heap index (A ++ B)) {c d : ℕ × ρ} (hc : c ∈ A)
    (hd : d ∈ B) : c.1 ≠ d.1 := by
  have hnodup := h.nodup
  rw [List.map_append, List.nodup_append] at hnodup
  exact hnodup.2.2 c.1 (List.mem_map_of_mem hc) d.1 (List.mem_map_of_mem hd)

/-- INTERNAL: a record of the middle part is what the heap has at its pointer. -/
theorem Represents.mem_middle (h : Represents heap index (A ++ M ++ B)) {c : ℕ × ρ} (hc : c ∈ M) :
    heap c.1 = c.2 :=
  h.read c (List.mem_append_left B (List.mem_append_right A hc))

/-- INTERNAL: the middle of the list is rewritten. The heap changes at its pointers only, and
new pointers are not in use outside of it. -/
theorem Represents.replace (h : Represents heap index (A ++ M ++ B))
    (hspans : index'.spans = A.map span ++ M'.map span ++ B.map span)
    (hframe : ∀ q, (∀ c ∈ M, q ≠ c.1) → (∀ c ∈ M', q ≠ c.1) → heap' q = heap q)
    (hread : ∀ c ∈ M', heap' c.1 = c.2) (hnodup : (M'.map Prod.fst).Nodup)
    (hnew : ∀ c ∈ M', (∃ d ∈ M, c.1 = d.1) ∨ ∀ d ∈ A ++ B, d.1 ≠ c.1) :
    Represents heap' index' (A ++ M' ++ B) := by
  have hfresh : ∀ c ∈ M', ∀ d ∈ A ++ B, d.1 ≠ c.1 := by
    intro c hc d hd
    rcases hnew c hc with ⟨e, he, hce⟩ | hout
    · rw [hce]
      rcases List.mem_append.mp hd with hd | hd
      · exact (List.append_assoc A M B ▸ h).ne hd (List.mem_append_left B he)
      · exact (h.ne (List.mem_append_right A he) hd).symm
    · exact hout d hd
  have hkeep : ∀ d ∈ A ++ B, heap' d.1 = d.2 := by
    intro d hd
    have hmid : ∀ c ∈ M, d.1 ≠ c.1 := by
      intro c hc
      rcases List.mem_append.mp hd with hd | hd
      · exact (List.append_assoc A M B ▸ h).ne hd (List.mem_append_left B hc)
      · exact (h.ne (List.mem_append_right A hc) hd).symm
    rw [hframe d.1 hmid (fun c hc => hfresh c hc d hd)]
    rcases List.mem_append.mp hd with hd | hd
    · exact h.read d (List.mem_append_left B (List.mem_append_left M hd))
    · exact h.read d (List.mem_append_right _ hd)
  refine ⟨?_, ?_, ?_⟩
  · rw [hspans, List.map_append, List.map_append]
  · intro c hc
    rcases List.mem_append.mp hc with hc | hc
    · rcases List.mem_append.mp hc with hc | hc
      · exact hkeep c (List.mem_append_left B hc)
      · exact hread c hc
    · exact hkeep c (List.mem_append_right A hc)
  · have hold := h.nodup
    simp only [List.map_append, List.nodup_append, List.mem_append, List.mem_map] at hold ⊢
    obtain ⟨⟨hA, _, _⟩, hB, hAB⟩ := hold
    refine ⟨⟨hA, hnodup, ?_⟩, hB, ?_⟩
    · rintro _ ⟨d, hd, rfl⟩ _ ⟨c, hc, rfl⟩
      exact hfresh c hc d (List.mem_append_left B hd)
    · rintro _ (⟨d, hd, rfl⟩ | ⟨c, hc, rfl⟩) _ ⟨e, he, rfl⟩
      · exact hAB d.1 (Or.inl ⟨d, hd, rfl⟩) e.1 ⟨e, he, rfl⟩
      · exact (hfresh c hc e (List.mem_append_right A he)).symm

/-- INTERNAL: records outside of the list may change. -/
theorem Represents.frame (h : Represents heap index cells)
    (hheap : ∀ c ∈ cells, heap' c.1 = heap c.1) : Represents heap' index cells :=
  ⟨h.spans, fun c hc => (hheap c hc).trans (h.read c hc), h.nodup⟩

/-- INTERNAL: a record is stored over the middle of the list. `L` and `R` are what the records
there become when they are cut at the range of the new one. -/
theorem Represents.store {L R : List (ℕ × ρ)} {q : ℕ} {w : ρ}
    (h : Represents heap index (A ++ M ++ B)) (hlt : Ranged.lo w < Ranged.hi w)
    (hA : ∀ c ∈ A, Ranged.hi c.2 ≤ Ranged.lo w) (hB : ∀ c ∈ B, Ranged.hi w ≤ Ranged.lo c.2)
    (hL : Span.below (Ranged.lo w) (M.map span) = L.map span)
    (hR : Span.above (Ranged.hi w) (M.map span) = R.map span)
    (hframe : ∀ p, (∀ c ∈ M, p ≠ c.1) → (∀ c ∈ L ++ (q, w) :: R, p ≠ c.1) → heap' p = heap p)
    (hread : ∀ c ∈ L ++ (q, w) :: R, heap' c.1 = c.2)
    (hnodup : ((L ++ (q, w) :: R).map Prod.fst).Nodup)
    (hnew : ∀ c ∈ L ++ (q, w) :: R, (∃ d ∈ M, c.1 = d.1) ∨ ∀ d ∈ A ++ B, d.1 ≠ c.1) :
    Represents heap' (index.store (Ranged.lo w) (Ranged.hi w) q) (A ++ (L ++ (q, w) :: R) ++ B) := by
  refine h.replace ?_ hframe hread hnodup hnew
  have hspans : index.spans = A.map span ++ M.map span ++ B.map span := by
    rw [h.spans, List.map_append, List.map_append]
  rw [RangeMap.store_spans hspans hlt ?_ ?_, hL, hR]
  · simp [span]
  · intro s hs
    obtain ⟨c, hc, rfl⟩ := List.mem_map.mp hs
    exact hA c hc
  · intro s hs
    obtain ⟨c, hc, rfl⟩ := List.mem_map.mp hs
    exact hB c hc

/-- INTERNAL: a record is written and stored over a part of the list that lies inside its
range; it is one of that part, or new. -/
theorem Represents.storeOver {q : ℕ} {w : ρ} (h : Represents heap index (A ++ M ++ B))
    (hlt : Ranged.lo w < Ranged.hi w)
    (hA : ∀ c ∈ A, Ranged.hi c.2 ≤ Ranged.lo w) (hB : ∀ c ∈ B, Ranged.hi w ≤ Ranged.lo c.2)
    (hM : ∀ c ∈ M, Ranged.lo w ≤ Ranged.lo c.2 ∧ Ranged.hi c.2 ≤ Ranged.hi w)
    (hq : (∃ d ∈ M, q = d.1) ∨ ∀ d ∈ A ++ B, d.1 ≠ q) :
    Represents (Function.update heap q w) (index.store (Ranged.lo w) (Ranged.hi w) q)
      (A ++ [(q, w)] ++ B) := by
  refine h.store (L := []) (R := []) hlt hA hB ?_ ?_ ?_ ?_ ?_ ?_
  · refine Span.below_eq_nil fun s hs => ?_
    obtain ⟨c, hc, rfl⟩ := List.mem_map.mp hs
    exact (hM c hc).1
  · refine Span.above_eq_nil fun s hs => ?_
    obtain ⟨c, hc, rfl⟩ := List.mem_map.mp hs
    exact (hM c hc).2
  · intro p _ hp
    exact Function.update_of_ne (hp (q, w) List.mem_cons_self) w heap
  · intro c hc
    rw [List.nil_append, List.mem_singleton] at hc
    rw [hc]
    exact Function.update_self q w heap
  · exact List.nodup_singleton q
  · intro c hc
    rw [List.nil_append, List.mem_singleton] at hc
    rw [hc]
    exact hq

/-- INTERNAL: a part of the list is removed. -/
theorem Represents.clear {lo hi : ℕ} (h : Represents heap index (A ++ M ++ B)) (hlt : lo < hi)
    (hA : ∀ c ∈ A, Ranged.hi c.2 ≤ lo) (hB : ∀ c ∈ B, hi ≤ Ranged.lo c.2)
    (hM : ∀ c ∈ M, lo ≤ Ranged.lo c.2 ∧ Ranged.hi c.2 ≤ hi) :
    Represents heap (index.clear lo hi) (A ++ B) := by
  have hspans : index.spans = A.map span ++ M.map span ++ B.map span := by
    rw [h.spans, List.map_append, List.map_append]
  have hclear : (index.clear lo hi).spans =
      A.map span ++ ([] : List (ℕ × ρ)).map span ++ B.map span := by
    rw [RangeMap.clear_spans hspans hlt ?_ ?_, Span.below_eq_nil, Span.above_eq_nil]
    · rfl
    · intro s hs
      obtain ⟨c, hc, rfl⟩ := List.mem_map.mp hs
      exact (hM c hc).2
    · intro s hs
      obtain ⟨c, hc, rfl⟩ := List.mem_map.mp hs
      exact (hM c hc).1
    · intro s hs
      obtain ⟨c, hc, rfl⟩ := List.mem_map.mp hs
      exact hA c hc
    · intro s hs
      obtain ⟨c, hc, rfl⟩ := List.mem_map.mp hs
      exact hB c hc
  have hrep : Represents heap (index.clear lo hi) (A ++ [] ++ B) :=
    h.replace hclear (fun _ _ _ => rfl) (by simp) (by simp) (by simp)
  rwa [List.append_nil] at hrep

/-- INTERNAL: a record gives up one end of its range. -/
theorem Represents.shrink {q lo hi : ℕ} {v w : ρ} (h : Represents heap index (A ++ [(q, v)] ++ B))
    (hlt : lo < hi) (hw : Ranged.lo w < Ranged.hi w)
    (hcut : (lo = Ranged.lo v ∧ hi = Ranged.lo w ∧ Ranged.hi w = Ranged.hi v) ∨
      (Ranged.lo w = Ranged.lo v ∧ Ranged.hi w = lo ∧ hi = Ranged.hi v)) :
    Represents (Function.update heap q w) (index.clear lo hi) (A ++ [(q, w)] ++ B) := by
  have hspans : index.spans = A.map span ++ [(q, v)].map span ++ B.map span := by
    rw [h.spans, List.map_append, List.map_append]
  have hbounds : Ranged.lo v ≤ lo ∧ hi ≤ Ranged.hi v := by omega
  refine h.replace ?_ ?_ ?_ (List.nodup_singleton q) ?_
  · rw [RangeMap.clear_spans hspans hlt ?_ ?_]
    · congr 2
      simp only [List.map_cons, List.map_nil, Span.below_cons, Span.below_nil, Span.above_cons,
        Span.above_nil, span]
      rcases hcut with ⟨hlo, hhi, hend⟩ | ⟨hstart, hlo, hhi⟩
      · rw [if_neg (by omega), if_pos (by omega), Nat.max_eq_right (by omega), hhi, hend]
        rfl
      · rw [if_pos (by omega), if_neg (by omega), Nat.min_eq_right (by omega), hstart, hlo]
        rfl
    · intro s hs
      obtain ⟨d, hd, rfl⟩ := List.mem_map.mp hs
      have := (List.append_assoc A _ B ▸ h).below hd (List.mem_append_left B List.mem_cons_self)
      exact this.trans hbounds.1
    · intro s hs
      obtain ⟨d, hd, rfl⟩ := List.mem_map.mp hs
      have := h.below (List.mem_append_right A List.mem_cons_self) hd
      exact hbounds.2.trans this
  · intro p hp _
    exact Function.update_of_ne (hp (q, v) List.mem_cons_self) w heap
  · intro c hc
    rw [List.mem_singleton.mp hc]
    exact Function.update_self q w heap
  · intro c hc
    rw [List.mem_singleton.mp hc]
    exact Or.inl ⟨(q, v), List.mem_cons_self, rfl⟩

/-- INTERNAL: a record is written without a change of its range. -/
theorem Represents.write {q : ℕ} {v w : ρ} (h : Represents heap index (A ++ [(q, v)] ++ B))
    (hlo : Ranged.lo w = Ranged.lo v) (hhi : Ranged.hi w = Ranged.hi v) :
    Represents (Function.update heap q w) index (A ++ [(q, w)] ++ B) := by
  refine h.replace ?_ ?_ ?_ (List.nodup_singleton q) ?_
  · rw [h.spans, List.map_append, List.map_append]
    simp [span, hlo, hhi]
  · intro p hp _
    exact Function.update_of_ne (hp (q, v) List.mem_cons_self) w heap
  · intro c hc
    rw [List.mem_singleton.mp hc]
    exact Function.update_self q w heap
  · intro c hc
    rw [List.mem_singleton.mp hc]
    exact Or.inl ⟨(q, v), List.mem_cons_self, rfl⟩

/-- INTERNAL: the list divides at a range: what lies below it, what meets it, what lies above. -/
theorem Represents.divide (h : Represents heap index cells) (lo hi : ℕ) :
    ∃ A M B, cells = A ++ M ++ B ∧ (∀ c ∈ A, Ranged.hi c.2 ≤ lo) ∧
      (∀ c ∈ M, lo < Ranged.hi c.2 ∧ Ranged.lo c.2 < hi) ∧ ∀ c ∈ B, hi ≤ Ranged.lo c.2 := by
  have hordered := h.ordered
  clear h
  -- from the front: a record decides that what follows it lies above what precedes it
  induction cells with
  | nil => exact ⟨[], [], [], rfl, by simp, by simp, by simp⟩
  | cons c rest ih =>
    have hcons : (c :: rest).map span = [span c] ++ rest.map span := rfl
    rw [hcons] at hordered
    obtain ⟨hc, hrest, hapart⟩ := hordered.of_append
    have hafter : ∀ d ∈ rest, Ranged.hi c.2 ≤ Ranged.lo d.2 := fun d hd =>
      hapart (span c) List.mem_cons_self (span d) (List.mem_map_of_mem hd)
    have hne : ∀ d ∈ rest, Ranged.lo d.2 < Ranged.hi d.2 := fun d hd =>
      hrest.nonempty (span d) (List.mem_map_of_mem hd)
    have hself : Ranged.lo c.2 < Ranged.hi c.2 := hc.nonempty (span c) List.mem_cons_self
    obtain ⟨A, M, B, rfl, hA, hM, hB⟩ := ih hrest
    by_cases hbelow : Ranged.hi c.2 ≤ lo
    · refine ⟨c :: A, M, B, rfl, ?_, hM, hB⟩
      intro d hd
      rcases List.mem_cons.mp hd with rfl | hd
      · exact hbelow
      · exact hA d hd
    · have hnoA : A = [] := by
        rw [List.eq_nil_iff_forall_not_mem]
        intro d hd
        have h1 := hA d hd
        have h2 := hafter d (by simp [hd])
        have h3 := hne d (by simp [hd])
        omega
      subst hnoA
      by_cases hmeets : Ranged.lo c.2 < hi
      · refine ⟨[], c :: M, B, rfl, by simp, ?_, hB⟩
        intro d hd
        rcases List.mem_cons.mp hd with rfl | hd
        · exact ⟨by omega, hmeets⟩
        · exact hM d hd
      · refine ⟨[], [], c :: (M ++ B), by simp, by simp, by simp, ?_⟩
        intro d hd
        rcases List.mem_cons.mp hd with rfl | hd
        · omega
        · have := hafter d (by simpa using hd)
          omega

/-! ## Moving a boundary -/

section Boundary

variable {p q x : ℕ} {v w v' w' : ρ}

omit [Ranged ρ] in
/-- INTERNAL: two records are written; the frame and the reads that the rules above ask for. -/
theorem update_pair_read (hpq : p ≠ q) :
    ∀ c ∈ [(p, v'), (q, w')],
      Function.update (Function.update heap p v') q w' c.1 = c.2 := by
  intro c hc
  simp only [List.mem_cons, List.not_mem_nil, or_false] at hc
  rcases hc with rfl | rfl
  · exact (Function.update_of_ne hpq _ _).trans (Function.update_self p _ _)
  · exact Function.update_self q _ _

omit [Ranged ρ] in
/-- INTERNAL: two updates leave the other records alone. -/
theorem update_pair_frame :
    ∀ r, (∀ c ∈ [(p, v'), (q, w')], r ≠ c.1) →
      Function.update (Function.update heap p v') q w' r = heap r := by
  intro r hr
  rw [Function.update_of_ne (hr _ (List.mem_cons_of_mem _ List.mem_cons_self)),
    Function.update_of_ne (hr _ List.mem_cons_self)]

/-- INTERNAL: two neighbours have different pointers. -/
theorem Represents.pair_ne (h : Represents heap index (A ++ [(p, v), (q, w)] ++ B)) : p ≠ q := by
  have hnodup := h.nodup
  simp only [List.map_append, List.map_cons, List.map_nil, List.nodup_append] at hnodup
  have hmid := hnodup.1.2.1
  rintro rfl
  simp at hmid

/-- INTERNAL: the boundary between two records moves up; the first is stored. -/
theorem Represents.moveUp (h : Represents heap index (A ++ [(p, v), (q, w)] ++ B))
    (hlo : Ranged.lo v' = Ranged.lo v) (hhi : Ranged.hi v' = x) (hlo' : Ranged.lo w' = x)
    (hhi' : Ranged.hi w' = Ranged.hi w) (hvx : Ranged.hi v ≤ x) (hwx : Ranged.lo w ≤ x)
    (hxw : x < Ranged.hi w) :
    Represents (Function.update (Function.update heap p v') q w')
      (index.store (Ranged.lo v) x p) (A ++ [(p, v'), (q, w')] ++ B) := by
  have hpq := h.pair_ne
  have hv : Ranged.lo v < Ranged.hi v :=
    h.nonempty (c := (p, v)) (List.mem_append_left B (List.mem_append_right A List.mem_cons_self))
  have hvw : Ranged.hi v ≤ Ranged.lo w := by
    have hsplit : A ++ [(p, v), (q, w)] ++ B = (A ++ [(p, v)]) ++ ((q, w) :: B) := by simp
    rw [hsplit] at h
    exact h.below (c := (p, v)) (d := (q, w)) (List.mem_append_right A List.mem_cons_self)
      List.mem_cons_self
  rw [← hlo, ← hhi]
  refine Represents.store (L := []) (R := [(q, w')]) (q := p) (w := v') h ?_ ?_ ?_ ?_ ?_ ?_ ?_ ?_ ?_
  · omega
  · intro d hd
    rw [hlo]
    exact (List.append_assoc A _ B ▸ h).below hd (List.mem_append_left B List.mem_cons_self)
  · intro d hd
    have := h.below (List.mem_append_right A (List.mem_cons_of_mem _ List.mem_cons_self)) hd
    dsimp only at this
    omega
  · refine Span.below_eq_nil fun s hs => ?_
    simp only [List.map_cons, List.map_nil, List.mem_cons, List.not_mem_nil, or_false] at hs
    rcases hs with rfl | rfl
    · exact hlo.le
    · show Ranged.lo v' ≤ Ranged.lo w
      omega
  · simp only [List.map_cons, List.map_nil, Span.above_cons, Span.above_nil, span, hhi, hlo', hhi']
    rw [if_neg (by omega), if_pos hxw, Nat.max_eq_right hwx]
    rfl
  · intro r _ hr
    exact update_pair_frame r hr
  · exact update_pair_read hpq
  · simpa using hpq
  · intro d hd
    simp only [List.nil_append, List.mem_cons, List.not_mem_nil, or_false] at hd
    rcases hd with rfl | rfl
    · exact Or.inl ⟨(p, v), List.mem_cons_self, rfl⟩
    · exact Or.inl ⟨(q, w), List.mem_cons_of_mem _ List.mem_cons_self, rfl⟩

/-- INTERNAL: the boundary between two records moves down; the second is stored. -/
theorem Represents.moveDown (h : Represents heap index (A ++ [(p, v), (q, w)] ++ B))
    (hlo : Ranged.lo v' = Ranged.lo v) (hhi : Ranged.hi v' = x) (hlo' : Ranged.lo w' = x)
    (hhi' : Ranged.hi w' = Ranged.hi w) (hvx : Ranged.lo v < x) (hxv : x ≤ Ranged.hi v) :
    Represents (Function.update (Function.update heap p v') q w')
      (index.store x (Ranged.hi w) q) (A ++ [(p, v'), (q, w')] ++ B) := by
  have hpq := h.pair_ne
  have hw : Ranged.lo w < Ranged.hi w :=
    h.nonempty (c := (q, w))
      (List.mem_append_left B (List.mem_append_right A (List.mem_cons_of_mem _ List.mem_cons_self)))
  have hvw : Ranged.hi v ≤ Ranged.lo w := by
    have hsplit : A ++ [(p, v), (q, w)] ++ B = (A ++ [(p, v)]) ++ ((q, w) :: B) := by simp
    rw [hsplit] at h
    exact h.below (c := (p, v)) (d := (q, w)) (List.mem_append_right A List.mem_cons_self)
      List.mem_cons_self
  rw [← hhi', ← hlo']
  refine Represents.store (L := [(p, v')]) (R := []) (q := q) (w := w') h ?_ ?_ ?_ ?_ ?_ ?_ ?_ ?_ ?_
  · omega
  · intro d hd
    have := (List.append_assoc A _ B ▸ h).below hd (List.mem_append_left B List.mem_cons_self)
    dsimp only at this
    omega
  · intro d hd
    have := h.below (List.mem_append_right A (List.mem_cons_of_mem _ List.mem_cons_self)) hd
    dsimp only at this
    omega
  · simp only [List.map_cons, List.map_nil, Span.below_cons, Span.below_nil, span, hhi, hlo', hlo]
    rw [if_pos hvx, if_neg (by omega), Nat.min_eq_right hxv]
    rfl
  · refine Span.above_eq_nil fun s hs => ?_
    simp only [List.map_cons, List.map_nil, List.mem_cons, List.not_mem_nil, or_false] at hs
    rcases hs with rfl | rfl
    · show Ranged.hi v ≤ Ranged.hi w'
      omega
    · exact hhi'.ge
  · intro r _ hr
    exact update_pair_frame r hr
  · exact update_pair_read hpq
  · simpa using hpq
  · intro d hd
    simp only [List.cons_append, List.nil_append, List.mem_cons, List.not_mem_nil, or_false] at hd
    rcases hd with rfl | rfl
    · exact Or.inl ⟨(p, v), List.mem_cons_self, rfl⟩
    · exact Or.inl ⟨(q, w), List.mem_cons_of_mem _ List.mem_cons_self, rfl⟩

/-- INTERNAL: a record is cut and the upper part, at a new pointer, is stored. -/
theorem Represents.splitAbove (h : Represents heap index (A ++ [(p, v)] ++ B)) (v' w' : ρ)
    (hnew : ∀ c ∈ A ++ [(p, v)] ++ B, c.1 ≠ q) (hlo : Ranged.lo v' = Ranged.lo v)
    (hhi : Ranged.hi v' = x) (hlo' : Ranged.lo w' = x) (hhi' : Ranged.hi w' = Ranged.hi v)
    (hvx : Ranged.lo v < x) (hxv : x < Ranged.hi v) :
    Represents (Function.update (Function.update heap p v') q w')
      (index.store x (Ranged.hi v) q) (A ++ [(p, v'), (q, w')] ++ B) := by
  have hpq : p ≠ q := hnew (p, v) (by simp)
  rw [← hhi', ← hlo']
  refine Represents.store (L := [(p, v')]) (R := []) (q := q) (w := w') h ?_ ?_ ?_ ?_ ?_ ?_ ?_ ?_ ?_
  · omega
  · intro d hd
    have := (List.append_assoc A _ B ▸ h).below hd (List.mem_append_left B List.mem_cons_self)
    dsimp only at this
    omega
  · intro d hd
    have := h.below (List.mem_append_right A List.mem_cons_self) hd
    dsimp only at this
    omega
  · simp only [List.map_cons, List.map_nil, Span.below_cons, Span.below_nil, span, hhi, hlo', hlo]
    rw [if_pos hvx, Nat.min_eq_right hxv.le]
    rfl
  · refine Span.above_eq_nil fun s hs => ?_
    rw [List.map_singleton, List.mem_singleton] at hs
    rw [hs]
    exact hhi'.ge
  · intro r _ hr
    exact update_pair_frame r hr
  · exact update_pair_read hpq
  · simpa using hpq
  · intro d hd
    simp only [List.cons_append, List.nil_append, List.mem_cons, List.not_mem_nil, or_false] at hd
    rcases hd with rfl | rfl
    · exact Or.inl ⟨(p, v), List.mem_cons_self, rfl⟩
    · refine Or.inr fun e he => hnew e ?_
      simp only [List.mem_append] at he ⊢
      tauto

/-- INTERNAL: a record is cut and the lower part, at a new pointer, is stored. -/
theorem Represents.splitBelow (h : Represents heap index (A ++ [(p, v)] ++ B)) (w' v' : ρ)
    (hnew : ∀ c ∈ A ++ [(p, v)] ++ B, c.1 ≠ q) (hlo : Ranged.lo w' = Ranged.lo v)
    (hhi : Ranged.hi w' = x) (hlo' : Ranged.lo v' = x) (hhi' : Ranged.hi v' = Ranged.hi v)
    (hvx : Ranged.lo v < x) (hxv : x < Ranged.hi v) :
    Represents (Function.update (Function.update heap q w') p v')
      (index.store (Ranged.lo v) x q) (A ++ [(q, w'), (p, v')] ++ B) := by
  have hqp : q ≠ p := (hnew (p, v) (by simp)).symm
  rw [← hlo, ← hhi]
  refine Represents.store (L := []) (R := [(p, v')]) (q := q) (w := w') h ?_ ?_ ?_ ?_ ?_ ?_ ?_ ?_ ?_
  · omega
  · intro d hd
    have := (List.append_assoc A _ B ▸ h).below hd (List.mem_append_left B List.mem_cons_self)
    dsimp only at this
    omega
  · intro d hd
    have := h.below (List.mem_append_right A List.mem_cons_self) hd
    dsimp only at this
    omega
  · refine Span.below_eq_nil fun s hs => ?_
    rw [List.map_singleton, List.mem_singleton] at hs
    rw [hs]
    exact hlo.le
  · simp only [List.map_cons, List.map_nil, Span.above_cons, Span.above_nil, span, hhi, hlo', hhi']
    rw [if_pos hxv, Nat.max_eq_right hvx.le]
    rfl
  · intro r _ hr
    exact update_pair_frame r hr
  · exact update_pair_read hqp
  · simpa using hqp
  · intro d hd
    simp only [List.nil_append, List.mem_cons, List.not_mem_nil, or_false] at hd
    rcases hd with rfl | rfl
    · refine Or.inr fun e he => hnew e ?_
      simp only [List.mem_append] at he ⊢
      tauto
    · exact Or.inl ⟨(p, v), List.mem_cons_self, rfl⟩

end Boundary

/-! ## Lookups -/

/-- The record that contains a number. -/
def recordAt (cells : List (ℕ × ρ)) (a : ℕ) : Option (ℕ × ρ) :=
  cells.find? (fun c => (span c).contains a)

/-- INTERNAL: the index gives the pointer of the record at an address. -/
theorem Represents.lookup (h : Represents heap index cells) (a : ℕ) :
    index.lookup a = (recordAt cells a).map Prod.fst := by
  rw [RangeMap.lookup, h.spans, List.find?_map, Option.map_map]
  rfl

/-- INTERNAL: the first range that the index finds between two addresses is that of the first
record that meets them. -/
theorem Represents.find (h : Represents heap index cells) (a b : ℕ) :
    index.find a b = (cells.find? (fun c => (span c).meets a b)).map Prod.fst := by
  rw [RangeMap.find, h.spans, List.find?_map, Option.map_map]
  rfl

/-- INTERNAL: the ranges that the index finds between two addresses are those of the records
that meet them, in order. -/
theorem Represents.findAll (h : Represents heap index cells) (a b : ℕ) :
    index.findAll a b = (cells.filter (fun c => (span c).meets a b)).map Prod.fst := by
  rw [RangeMap.findAll, h.spans, List.filter_map, List.map_map]
  rfl

/-- INTERNAL: the range before an address is that of the last record that starts below it. -/
theorem Represents.prev (h : Represents heap index cells) (a : ℕ) :
    index.prev a = (cells.reverse.find? (fun c => decide (Ranged.lo c.2 < a))).map Prod.fst := by
  rw [RangeMap.prev, h.spans, ← List.map_reverse, List.find?_map, Option.map_map]
  rfl

/-- INTERNAL: the range from an address on is that of the first record that starts there or
above. -/
theorem Represents.next (h : Represents heap index cells) (a : ℕ) :
    index.next a = (cells.find? (fun c => decide (a ≤ Ranged.lo c.2))).map Prod.fst := by
  rw [RangeMap.next, h.spans, List.find?_map, Option.map_map]
  rfl

/-- INTERNAL: the record at an address is in the first list, or else in the second. -/
theorem recordAt_append (a : ℕ) :
    recordAt (A ++ B) a = (recordAt A a).or (recordAt B a) :=
  List.find?_append

/-- INTERNAL: the record at an address is the first one within whose range it lies. -/
theorem recordAt_cons (c : ℕ × ρ) (a : ℕ) :
    recordAt (c :: cells) a =
      if Ranged.lo c.2 ≤ a ∧ a < Ranged.hi c.2 then some c else recordAt cells a := by
  rw [recordAt, List.find?_cons]
  by_cases h : Ranged.lo c.2 ≤ a ∧ a < Ranged.hi c.2
  · rw [if_pos h, show (span c).contains a = true from decide_eq_true h]
  · rw [if_neg h, show (span c).contains a = false from decide_eq_false h]
    rfl

/-- INTERNAL: no records, none at any address. -/
@[simp] theorem recordAt_nil (a : ℕ) : recordAt ([] : List (ℕ × ρ)) a = none := rfl

/-- INTERNAL: there is no record at an address outside all ranges. -/
theorem recordAt_eq_none {a : ℕ} (h : ∀ c ∈ cells, ¬ (Ranged.lo c.2 ≤ a ∧ a < Ranged.hi c.2)) :
    recordAt cells a = none := by
  rw [recordAt, List.find?_eq_none]
  intro c hc hcontains
  exact h c hc (of_decide_eq_true hcontains)

end UsacKernel.Computation.IndexedHeap
