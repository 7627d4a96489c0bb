import UsacKernel.Analysis.AreaSplit
import UsacKernel.Model.AreaUnmap

/-!
# Unmapping a range

`do_vmi_align_munmap` either removes exactly the range, or fails and changes no meaning.

The loop gathers areas by marking them in the heap, so that the invariant does not hold while it
runs. What holds is that taking the marks back gives an address space with the invariant
(`Gathering`); the only thing that changes this address space is the cut at the end of the range,
which commutes with the marks (`splitVmaUnchecked_markAll`).
-/

set_option autoImplicit false

namespace UsacKernel.Analysis

open UsacKernel.Computation UsacKernel.Model UsacKernel.Interface IndexedHeap

/-! ## Marks -/

section Marks

variable {as : AddressSpace} {l : List Ptr}

/-- INTERNAL: of two marks on an area the last one counts. -/
theorem markDetached_markDetached (v : VmAreaStruct) (d d' : Bool) :
    (v.markDetached d).markDetached d' = v.markDetached d' := rfl

/-- INTERNAL: marking changes the marked areas and nothing else. -/
theorem markAll_eq (d : Bool) (l : List Ptr) (as : AddressSpace) :
    as.markAll d l =
      { as with heap := fun q => if q ∈ l then (as.heap q).markDetached d else as.heap q } := by
  unfold AddressSpace.markAll
  induction l generalizing as with
  | nil => simp
  | cons p l ih =>
    rw [List.foldl_cons, ih]
    ext1
    · funext q
      by_cases hqp : q = p
      · subst hqp
        by_cases hql : q ∈ l
        · simp [hql, markDetached_markDetached]
        · simp [hql]
      · simp [hqp]
    all_goals rfl

/-- INTERNAL: marking areas leaves the other records alone. -/
theorem markAll_heap_of_not_mem {d : Bool} {q : Ptr} (h : q ∉ l) :
    (as.markAll d l).heap q = as.heap q := by
  rw [markAll_eq]
  exact if_neg h

/-- INTERNAL: marking areas allocates nothing. -/
theorem markAll_fresh (d : Bool) : (as.markAll d l).fresh = as.fresh := by
  rw [markAll_eq]

/-- INTERNAL: the area gathered last is marked last. -/
theorem markAll_append_singleton (d : Bool) (l : List Ptr) (p : Ptr) :
    as.markAll d (l ++ [p]) = (as.markAll d l).modify p (VmAreaStruct.markDetached d) := by
  unfold AddressSpace.markAll
  rw [List.foldl_append]
  rfl

/-- INTERNAL: the marks can be taken back. -/
theorem markAll_undo (h : ∀ p ∈ l, (as.heap p).detached = false) :
    (as.markAll true l).markAll false l = as := by
  rw [markAll_eq, markAll_eq]
  ext1
  · funext q
    by_cases hq : q ∈ l
    · have hd := h q hq
      simp only [hq, if_true, markDetached_markDetached]
      rw [VmAreaStruct.markDetached, ← hd]
    · simp only [hq, if_false]
  all_goals rfl

section Commute

variable (d : Bool) {p : Ptr}

/-- INTERNAL: a warning and the marks can be exchanged. -/
theorem markAll_warnOn (cond : Prop) [Decidable cond] :
    (as.markAll d l).warnOn cond = (as.warnOn cond).markAll d l := by
  rw [markAll_eq, markAll_eq]
  rfl

/-- INTERNAL: an allocation and the marks on older areas can be exchanged. -/
theorem markAll_vmAreaAlloc (v : VmAreaStruct) (h : as.fresh ∉ l) :
    (as.markAll d l).vmAreaAlloc v = (as.vmAreaAlloc v).markAll d l := by
  rw [markAll_eq, markAll_eq]
  ext1
  · funext q
    by_cases hq : q = as.fresh
    · subst hq
      simp [AddressSpace.vmAreaAlloc, h]
    · simp [AddressSpace.vmAreaAlloc, Function.update_of_ne hq]
  all_goals rfl

/-- INTERNAL: a change of one area and the marks on others can be exchanged. -/
theorem markAll_modify (f : VmAreaStruct → VmAreaStruct) (h : p ∉ l) :
    (as.markAll d l).modify p f = (as.modify p f).markAll d l := by
  rw [markAll_eq, markAll_eq]
  ext1
  · funext q
    by_cases hq : q = p
    · subst hq
      simp [AddressSpace.modify, h]
    · simp [AddressSpace.modify, Function.update_of_ne hq]
  all_goals rfl

/-- INTERNAL: storing one area in the tree and the marks on others can be exchanged. -/
theorem markAll_vmaIterStore (h : p ∉ l) :
    (as.markAll d l).vmaIterStore p = (as.vmaIterStore p).markAll d l := by
  rw [AddressSpace.vmaIterStore, markAll_heap_of_not_mem h, markAll_eq, markAll_eq]
  rfl

/-- INTERNAL: counting areas and the marks can be exchanged. -/
theorem markAll_addMapCount (n : ℤ) :
    (as.markAll d l).addMapCount n = (as.addMapCount n).markAll d l := by
  rw [markAll_eq, markAll_eq]
  rfl

end Commute

/-- INTERNAL: a split of an area that is not marked does not see the marks. -/
theorem splitVmaUnchecked_markAll (ans : SplitAnswers) {p : Ptr} (addr : ULong) (newBelow : Bool)
    (hp : p ∉ l) (hfresh : as.fresh ∉ l) :
    splitVmaUnchecked ans (as.markAll true l) p addr newBelow =
      ((splitVmaUnchecked ans as p addr newBelow).1,
        (splitVmaUnchecked ans as p addr newBelow).2.markAll true l) := by
  unfold splitVmaUnchecked
  simp only [markAll_heap_of_not_mem hp, markAll_warnOn]
  cases ans.error with
  | some e => rfl
  | none =>
    dsimp only
    have hfresh' : ((as.warnOn ((as.heap p).vmStart ≥ addr)).warnOn
        ((as.heap p).vmEnd ≤ addr)).fresh ∉ l := hfresh
    generalize (as.warnOn ((as.heap p).vmStart ≥ addr)).warnOn ((as.heap p).vmEnd ≤ addr) = b at *
    simp only [markAll_fresh, markAll_vmAreaAlloc _ _ hfresh', markAll_heap_of_not_mem hfresh',
      markAll_modify _ _ hp, markAll_vmaIterStore _ hfresh', markAll_addMapCount]

end Marks

/-! ## The loop -/

/-- The state of the loop: `M1` has been gathered, `M2` is still to come. `s` is the address
space without the marks. -/
structure Gathering (as0 : AddressSpace) (cells0 : List Cell) (start stop : ULong)
    (A M1 M2 B : List Cell) (s : AddressSpace) (g : Gathered) : Prop where
  same : SameMeaning as0 s cells0 (A ++ (M1 ++ M2) ++ B)
  space : g.space = s.markAll true (M1.map Prod.fst)
  detach : g.detach = M1.map Prod.fst
  locked : g.lockedVm = (M1.map (fun c => lockedPages c.2)).sum
  inside : ∀ c ∈ M1, c.2.vmEnd.toNat ≤ stop.toNat
  starts : ∀ c ∈ M1 ++ M2, start.toNat ≤ c.2.vmStart.toNat
  meets : ∀ c ∈ M2, c.2.vmStart.toNat < stop.toNat
  above : ∀ c ∈ B, stop.toNat ≤ c.2.vmStart.toNat

/-- A state in which taking the marks back leaves what was mapped before. -/
def Undoable (as0 : AddressSpace) (cells0 : List Cell) (g : Gathered) : Prop :=
  ∃ s cells, SameMeaning as0 s cells0 cells ∧ g.space = s.markAll true g.detach ∧
    ∀ p ∈ g.detach, (s.heap p).detached = false

/-- INTERNAL: when the gathering fails, unmarking what was gathered leaves splits at most, which
show at no address. -/
theorem Undoable.undo {as0 : AddressSpace} {cells0 : List Cell} {g : Gathered}
    (h : Undoable as0 cells0 g) :
    ∃ cells, SameMeaning as0 (g.space.markAll false g.detach) cells0 cells := by
  obtain ⟨s, cells, hsame, hspace, hdetached⟩ := h
  refine ⟨cells, ?_⟩
  rw [hspace, markAll_undo hdetached]
  exact hsame

section Loop

variable {as0 s : AddressSpace} {cells0 A M1 M2 B : List Cell} {start stop : ULong} {g : Gathered}
  {c : Cell}

/-- INTERNAL: areas of the tree are not detached. -/
theorem Holds.attached_of_mem {cells : List Cell} (h : Holds s cells) {M : List Cell}
    (hM : ∀ c ∈ M, c ∈ cells) : ∀ p ∈ M.map Prod.fst, (s.heap p).detached = false := by
  intro p hp
  obtain ⟨c, hc, rfl⟩ := List.mem_map.mp hp
  rw [h.read (hM c hc)]
  exact (h.ok c (hM c hc)).attached

/-- INTERNAL: at every step of the gathering what is done so far can be undone. -/
theorem Gathering.undoable (h : Gathering as0 cells0 start stop A M1 M2 B s g) :
    Undoable as0 cells0 g := by
  refine ⟨s, _, h.same, h.detach ▸ h.space, ?_⟩
  rw [h.detach]
  refine h.same.holds.attached_of_mem fun c hc => ?_
  simp only [List.mem_append]
  tauto

/-- INTERNAL: the cut at the end of the range, for the area that reaches over it. -/
theorem gather_split (ans : SplitAnswers) (h : Gathering as0 cells0 start stop A M1 (c :: M2) B s g)
    (hpage : stop.toNat % 4096 = 0) :
    (∃ e, (if (g.space.heap c.1).vmEnd > stop then
          splitVmaUnchecked ans g.space c.1 stop false else (none, g.space)) = (some e, g.space)) ∨
      ∃ s' c' B', (if (g.space.heap c.1).vmEnd > stop then
            splitVmaUnchecked ans g.space c.1 stop false else (none, g.space)) =
          (none, s'.markAll true (M1.map Prod.fst)) ∧ c'.1 = c.1 ∧
        SameMeaning as0 s' cells0 (A ++ (M1 ++ c' :: M2) ++ B') ∧
        c'.2.vmStart = c.2.vmStart ∧ c'.2.vmEnd.toNat ≤ stop.toNat ∧
        ∀ d ∈ B', stop.toNat ≤ d.2.vmStart.toNat := by
  have hholds := h.same.holds
  have hmem : c ∈ A ++ (M1 ++ c :: M2) ++ B := by simp
  have hsplit1 : A ++ (M1 ++ c :: M2) ++ B = (A ++ M1) ++ (c :: M2 ++ B) := by simp
  -- the area is not among those already marked
  have hnotmem : c.1 ∉ M1.map Prod.fst := by
    intro hc
    obtain ⟨d, hd, hdc⟩ := List.mem_map.mp hc
    rw [hsplit1] at hholds
    exact hholds.rep.ne (List.mem_append_right A hd) (by simp) hdc
  have hfresh : s.fresh ∉ M1.map Prod.fst := by
    intro hc
    obtain ⟨d, hd, hdf⟩ := List.mem_map.mp hc
    exact (hholds.fresh d (by simp [hd])).ne hdf
  have hread : g.space.heap c.1 = c.2 := by
    rw [h.space, markAll_heap_of_not_mem hnotmem, hholds.read hmem]
  rw [hread]
  split_ifs with hcond
  · have hcond' := BitVec.lt_def.mp hcond
    have hcut : CutsAt c.2 stop := ⟨h.meets c (by simp), hcond', hpage⟩
    -- no later area meets the range
    have hlast : M2 = [] := by
      cases M2 with
      | nil => rfl
      | cons d M2 =>
        exfalso
        have hle : c.2.vmEnd.toNat ≤ d.2.vmStart.toNat := by
          have hsplit2 : A ++ (M1 ++ c :: d :: M2) ++ B = (A ++ M1 ++ [c]) ++ (d :: M2 ++ B) := by
            simp
          rw [hsplit2] at hholds
          exact hholds.le (by simp) (by simp)
        have hlt := h.meets d (by simp)
        omega
    subst hlast
    have hcells : A ++ (M1 ++ [c]) ++ B = (A ++ M1) ++ [(c.1, c.2)] ++ B := by simp
    rw [h.space, splitVmaUnchecked_markAll ans stop false hnotmem hfresh]
    rw [hcells] at hholds
    rcases splitVmaUnchecked_spec ans hholds hcut false with ⟨e, heq⟩ | ⟨s', heq, hinto⟩
    · exact Or.inl ⟨e, by rw [heq]⟩
    · have hsame := hinto.sameMeaning hholds hcut
      refine Or.inr ⟨s', (c.1, lowerPart c.2 stop), (s.fresh, upperPart c.2 stop) :: B,
        by rw [heq], rfl, ?_, rfl, le_rfl, ?_⟩
      · have hall := h.same.trans (hcells ▸ hsame)
        simpa [splitCells] using hall
      · intro d hd
        rcases List.mem_cons.mp hd with rfl | hd
        · exact le_rfl
        · exact h.above d hd
  · refine Or.inr ⟨s, c, B, by rw [h.space], rfl, h.same, rfl, ?_, h.above⟩
    by_contra hlt
    exact hcond (BitVec.lt_def.mpr (by omega))

/-- INTERNAL: one round gathers an area, or fails in a way that can be undone. -/
theorem gatherOne_step (ans : MunmapAnswers)
    (h : Gathering as0 cells0 start stop A M1 (c :: M2) B s g) (hpage : stop.toNat % 4096 = 0) :
    (∃ e g', AddressSpace.gatherOne ans stop g c.1 = .error (e, g') ∧ Undoable as0 cells0 g') ∨
      ∃ g' s' c' B', AddressSpace.gatherOne ans stop g c.1 = .ok g' ∧
        Gathering as0 cells0 start stop A (M1 ++ [c']) M2 B' s' g' := by
  unfold AddressSpace.gatherOne
  rcases gather_split ans.endSplit h hpage with ⟨e, heq⟩ | ⟨s', c', B', heq, hp, hsame, hs, he, hB⟩
  · rw [heq]
    exact Or.inl ⟨e, _, rfl, h.undoable⟩
  · rw [heq]
    dsimp only
    have hholds := hsame.holds
    have hcells : A ++ (M1 ++ [c'] ++ M2) ++ B' = A ++ (M1 ++ c' :: M2) ++ B' := by simp
    have hnotmem : c.1 ∉ M1.map Prod.fst := by
      intro hc
      obtain ⟨d, hd, hdc⟩ := List.mem_map.mp hc
      have hsplit : A ++ (M1 ++ c' :: M2) ++ B' = (A ++ M1) ++ (c' :: M2 ++ B') := by simp
      rw [hsplit] at hholds
      exact hholds.rep.ne (d := c') (List.mem_append_right A hd) (by simp) (hdc.trans hp.symm)
    have hread : (s'.markAll true (M1.map Prod.fst)).heap c.1 = c'.2 := by
      rw [markAll_heap_of_not_mem hnotmem, ← hp, hholds.read (by simp)]
    -- the state once the area is marked
    have hnew : Gathering as0 cells0 start stop A (M1 ++ [c']) M2 B' s'
        { space := (s'.markAll true (M1.map Prod.fst)).modify c.1 (VmAreaStruct.markDetached true)
          detach := g.detach ++ [c.1]
          lockedVm := g.lockedVm +
            lockedPages ((s'.markAll true (M1.map Prod.fst)).heap c.1) } := by
      refine ⟨hcells.symm ▸ hsame, ?_, ?_, ?_, ?_, ?_, ?_, hB⟩
      · rw [List.map_append, List.map_singleton, hp, markAll_append_singleton]
      · rw [h.detach, List.map_append, List.map_singleton, hp]
      · rw [hread, h.locked]
        simp
      · intro d hd
        rcases List.mem_append.mp hd with hd | hd
        · exact h.inside d hd
        · rw [List.mem_singleton.mp hd]
          exact he
      · intro d hd
        simp only [List.mem_append, List.mem_singleton] at hd
        rcases hd with (hd | rfl) | hd
        · exact h.starts d (by simp [hd])
        · rw [hs]
          exact h.starts c (by simp)
        · exact h.starts d (by simp [hd])
      · exact fun d hd => h.meets d (List.mem_cons_of_mem _ hd)
    cases ans.gather g.detach.length with
    | some e =>
      refine Or.inl ⟨e, _, rfl, s', _, hsame, by rw [h.detach], ?_⟩
      rw [h.detach]
      exact hholds.attached_of_mem fun d hd => by simp [hd]
    | none =>
      cases ans.uffdPrep g.detach.length with
      | some e => exact Or.inl ⟨e, _, rfl, hnew.undoable⟩
      | none => exact Or.inr ⟨_, s', c', B', rfl, hnew⟩

/-- INTERNAL: the whole loop. -/
theorem gather_run (ans : MunmapAnswers) (hpage : stop.toNat % 4096 = 0)
    (h : Gathering as0 cells0 start stop A M1 M2 B s g) :
    (∃ e g', (M2.map Prod.fst).foldlM (AddressSpace.gatherOne ans stop) g = .error (e, g') ∧
        Undoable as0 cells0 g') ∨
      ∃ g' s' M B', (M2.map Prod.fst).foldlM (AddressSpace.gatherOne ans stop) g = .ok g' ∧
        Gathering as0 cells0 start stop A M [] B' s' g' := by
  -- along the areas still to come; the first round changes all the rest
  induction M2 generalizing M1 B s g with
  | nil => exact Or.inr ⟨g, s, M1, B, rfl, h⟩
  | cons c M2 ih =>
    rw [List.map_cons, List.foldlM_cons]
    rcases gatherOne_step ans h hpage with ⟨e, g', heq, hundo⟩ | ⟨g', s', c', B', heq, hnext⟩
    · rw [heq]
      exact Or.inl ⟨e, g', rfl, hundo⟩
    · rw [heq]
      exact ih hnext

end Loop

/-! ## After the loop -/

/-- The counters after some areas were taken off them. -/
def removeCells (c : Counters) (M : List Cell) : Counters :=
  ((M.map Prod.snd).foldl Counters.removeArea
    (c.addLockedVm (-(M.map (fun d => lockedPages d.2)).sum))).addCommitted
      (-(((M.map (fun d => accountedPages d.2)).sum).toNat : ℤ))

/-- INTERNAL: removing no areas leaves the counters alone. -/
@[simp] theorem removeCells_nil (c : Counters) : removeCells c [] = c := by
  simp [removeCells, Counters.addLockedVm, Counters.addCommitted]

/-- What unmapping `[start, stop)` has done: the areas were cut at its ends, and those inside
were removed and taken off the counters. -/
structure UnmappedInto (as as' : AddressSpace) (cells : List Cell) (start stop : ULong)
    (A M B : List Cell) : Prop where
  meaning : cellsMeaning (A ++ M ++ B) = cellsMeaning cells
  anon : ∀ a x, cellsAnonVma cells a = some x → cellsAnonVma (A ++ M ++ B) a = some x
  ordered : Span.Ordered ((A ++ M ++ B).map span)
  ok : ∀ c ∈ A ++ M ++ B, AreaOk c.2
  holds : Holds as' (A ++ B)
  below : ∀ c ∈ A, c.2.vmEnd.toNat ≤ start.toNat
  inside : ∀ c ∈ M, start.toNat ≤ c.2.vmStart.toNat ∧ c.2.vmEnd.toNat ≤ stop.toNat
  above : ∀ c ∈ B, stop.toNat ≤ c.2.vmStart.toNat
  counters : as'.counters = removeCells as.counters M
  warned : as'.warned = as.warned

section Detach

variable {as0 s : AddressSpace} {cells0 A M B : List Cell} {start stop : ULong} {g : Gathered}

/-- INTERNAL: the marked areas as `remove_mt` reads them. -/
theorem markAll_read (h : Holds s (A ++ M ++ B)) :
    (M.map Prod.fst).map (s.markAll true (M.map Prod.fst)).heap =
      M.map (fun c => c.2.markDetached true) := by
  rw [List.map_map]
  refine List.map_congr_left fun c hc => ?_
  rw [markAll_eq]
  show (if c.1 ∈ M.map Prod.fst then _ else _) = _
  rw [if_pos (List.mem_map_of_mem hc), h.read (by simp [hc])]

/-- INTERNAL: from the point of no return on. -/
theorem Gathering.detached (h : Gathering as0 cells0 start stop A M [] B s g)
    (hlt : start.toNat < stop.toNat) (hA : ∀ c ∈ A, c.2.vmEnd.toNat ≤ start.toNat) :
    UnmappedInto as0 (AddressSpace.detachGathered g start stop) cells0 start stop A M B := by
  have hsame := h.same
  rw [List.append_nil] at hsame
  have hholds := hsame.holds
  have hinside : ∀ c ∈ M, start.toNat ≤ c.2.vmStart.toNat ∧ c.2.vmEnd.toNat ≤ stop.toNat :=
    fun c hc => ⟨h.starts c (by simp [hc]), h.inside c hc⟩
  have hmem : ∀ c ∈ A ++ B, c ∈ A ++ M ++ B := by
    intro c hc
    simp only [List.mem_append] at hc ⊢
    tauto
  -- the areas that stay are not marked
  have hunmarked : ∀ c ∈ A ++ B, c.1 ∉ M.map Prod.fst := by
    intro c hc hcM
    obtain ⟨d, hd, hdc⟩ := List.mem_map.mp hcM
    rcases List.mem_append.mp hc with hc | hc
    · exact hholds.assoc.rep.ne hc (List.mem_append_left B hd) hdc.symm
    · exact hholds.rep.ne (List.mem_append_right A hd) hc hdc
  have hclear := hholds.rep.clear hlt hA h.above hinside
  refine ⟨hsame.meaning, hsame.anon, hholds.rep.ordered, hholds.ok, ⟨?_, ?_, ?_, ?_⟩, hA, hinside,
    h.above, ?_, ?_⟩
  · unfold AddressSpace.detachGathered AddressSpace.removeMt
    rw [h.space, markAll_eq]
    refine hclear.frame fun c hc => ?_
    exact if_neg (hunmarked c hc)
  · intro c hc
    show c.1 < g.space.fresh
    rw [h.space, markAll_fresh]
    exact hholds.fresh c (hmem c hc)
  · show g.space.mapCount - (g.detach.length : ℤ) = _
    have hcount := hholds.count
    rw [h.space, markAll_eq, h.detach]
    simp only [List.length_append, List.length_map, Nat.cast_add] at hcount ⊢
    omega
  · exact fun c hc => hholds.ok c (hmem c hc)
  · have hareas : g.detach.map g.space.heap = M.map (fun c => c.2.markDetached true) := by
      rw [h.detach, h.space, markAll_read hholds]
    have hcounters : g.space.counters = as0.counters := by
      rw [h.space, markAll_eq]
      exact hsame.counters
    show ((g.detach.map g.space.heap).foldl Counters.removeArea
      (g.space.counters.addLockedVm (-g.lockedVm))).addCommitted
        (-((((g.detach.map g.space.heap).map accountedPages).sum).toNat : ℤ)) = _
    rw [hareas, hcounters, h.locked, removeCells, List.foldl_map, List.foldl_map, List.map_map]
    rfl
  · show g.space.warned = _
    rw [h.space, markAll_eq]
    exact hsame.warned

/-- INTERNAL: the meaning after the areas of the range are gone. -/
theorem UnmappedInto.meaning_eq {as as' : AddressSpace} {cells : List Cell}
    (h : UnmappedInto as as' cells start stop A M B) :
    cellsMeaning (A ++ B) = (cellsMeaning cells).remove start.toNat stop.toNat := by
  funext a
  rw [← h.meaning]
  unfold AddressMap.remove
  split_ifs with hin
  · refine cellsMeaning_eq_none fun c hc hcon => ?_
    rcases List.mem_append.mp hc with hc | hc
    · have := h.below c hc
      omega
    · have := h.above c hc
      omega
  · have hnone : cellsMeaning M a = none := by
      refine cellsMeaning_eq_none fun c hc hcon => hin ?_
      have := h.inside c hc
      omega
    simp only [cellsMeaning_append, hnone, Option.or_none]

/-- INTERNAL: pages outside of the range keep their `anon_vma`. -/
theorem UnmappedInto.anon_eq {as as' : AddressSpace} {cells : List Cell}
    (h : UnmappedInto as as' cells start stop A M B) {a : ℕ} {x : Handle}
    (hx : cellsAnonVma cells a = some x) (hout : ¬ (start.toNat ≤ a ∧ a < stop.toNat)) :
    cellsAnonVma (A ++ B) a = some x := by
  have hsplit := h.anon a x hx
  have hnone : recordAt M a = none := by
    refine recordAt_eq_none fun c hc hcon => hout ?_
    have hinside := h.inside c hc
    have hcon' : c.2.vmStart.toNat ≤ a ∧ a < c.2.vmEnd.toNat := hcon
    omega
  unfold cellsAnonVma at hsplit ⊢
  rwa [recordAt_append, recordAt_append, hnone, Option.or_none, ← recordAt_append] at hsplit

end Detach

/-! ## The whole of `do_vmi_align_munmap` -/

section Munmap

variable {as : AddressSpace} {cells A M B : List Cell} {start stop : ULong}

/-- A range was unmapped, or the attempt changed no meaning. -/
def UnmapOutcome (as : AddressSpace) (cells : List Cell) (start stop : ULong)
    (result : Option Errno × AddressSpace) : Prop :=
  (∃ e as' cells', result = (some e, as') ∧ SameMeaning as as' cells cells') ∨
    ∃ as' A M B, result = (none, as') ∧ UnmappedInto as as' cells start stop A M B

/-- INTERNAL: the cut at the start of the range. -/
theorem splitStart_spec (env : MmEnv) (ans : SplitAnswers) (stop : ULong) {p : Ptr}
    {v : VmAreaStruct} (h : Holds as (A ++ (p, v) :: M ++ B)) (hpage : start.toNat % 4096 = 0)
    (hA : ∀ c ∈ A, c.2.vmEnd.toNat ≤ start.toNat) (hmeets : start.toNat < v.vmEnd.toNat) :
    (∃ e, AddressSpace.splitStart env ans as p start stop = (some e, as)) ∨
      ∃ as' A' v', AddressSpace.splitStart env ans as p start stop = (none, as') ∧
        SameMeaning as as' (A ++ (p, v) :: M ++ B) (A' ++ (p, v') :: M ++ B) ∧
        (∀ c ∈ A', c.2.vmEnd.toNat ≤ start.toNat) ∧ start.toNat ≤ v'.vmStart.toNat ∧
        (v'.vmStart = start ∨ v'.vmStart = v.vmStart) ∧ v'.vmEnd = v.vmEnd := by
  have hread : as.heap p = v := h.read (c := (p, v)) (by simp)
  unfold AddressSpace.splitStart
  rw [hread]
  split_ifs with hcond hcount
  · exact Or.inl ⟨ENOMEM, rfl⟩
  · have hcut : CutsAt v start := ⟨BitVec.lt_def.mp hcond, hmeets, hpage⟩
    have hcells : A ++ (p, v) :: M ++ B = A ++ [(p, v)] ++ (M ++ B) := by simp
    rw [hcells] at h ⊢
    rcases splitVmaUnchecked_spec ans h hcut true with ⟨e, heq⟩ | ⟨as', heq, hinto⟩
    · exact Or.inl ⟨e, heq⟩
    · refine Or.inr ⟨as', A ++ [(as.fresh, lowerPart v start)], upperPart v start, heq, ?_, ?_,
        le_rfl, Or.inl rfl, rfl⟩
      · have hsame := hinto.sameMeaning h hcut
        simpa [splitCells] using hsame
      · intro c hc
        rcases List.mem_append.mp hc with hc | hc
        · exact hA c hc
        · rw [List.mem_singleton.mp hc]
          exact le_rfl
  · refine Or.inr ⟨as, A, v, rfl, SameMeaning.refl h, hA, ?_, Or.inr rfl, rfl⟩
    by_contra hlt
    exact hcond (BitVec.lt_def.mpr (by omega))

/-- INTERNAL: the areas that the loop runs over. -/
theorem findAll_middle (h : Holds as (A ++ M ++ B)) (hlt : start.toNat < stop.toNat)
    (hA : ∀ c ∈ A, c.2.vmEnd.toNat ≤ start.toNat)
    (hM : ∀ c ∈ M, start.toNat < c.2.vmEnd.toNat ∧ c.2.vmStart.toNat < stop.toNat)
    (hB : ∀ c ∈ B, stop.toNat ≤ c.2.vmStart.toNat) :
    as.mt.findAll start.toNat stop.toNat = M.map Prod.fst := by
  have hnone : ∀ L : List Cell, (∀ c ∈ L, c.2.vmEnd.toNat ≤ start.toNat ∨
      stop.toNat ≤ c.2.vmStart.toNat) →
      L.filter (fun c => (span c).meets start.toNat stop.toNat) = [] := by
    intro L hL
    rw [List.filter_eq_nil_iff]
    intro c hc hmeets
    have hmeets' : _ ∧ start.toNat < c.2.vmEnd.toNat ∧ c.2.vmStart.toNat < stop.toNat :=
      of_decide_eq_true hmeets
    rcases hL c hc with hle | hle
    · omega
    · omega
  have hall : M.filter (fun c => (span c).meets start.toNat stop.toNat) = M := by
    rw [List.filter_eq_self]
    intro c hc
    obtain ⟨hend, hstart⟩ := hM c hc
    exact decide_eq_true ⟨hlt, hend, hstart⟩
  rw [h.rep.findAll, List.filter_append, List.filter_append, hall,
    hnone A (fun c hc => Or.inl (hA c hc)), hnone B (fun c hc => Or.inr (hB c hc))]
  simp

/-- INTERNAL: the first of them is what `vma_find` gives. -/
theorem findVmaIntersection_middle (h : Holds as (A ++ M ++ B)) (hlt : start.toNat < stop.toNat)
    (hA : ∀ c ∈ A, c.2.vmEnd.toNat ≤ start.toNat)
    (hM : ∀ c ∈ M, start.toNat < c.2.vmEnd.toNat ∧ c.2.vmStart.toNat < stop.toNat)
    (hB : ∀ c ∈ B, stop.toNat ≤ c.2.vmStart.toNat) :
    as.findVmaIntersection start stop = M.head?.map Prod.fst := by
  have hall := findAll_middle h hlt hA hM hB
  unfold RangeMap.findAll at hall
  unfold AddressSpace.findVmaIntersection RangeMap.find
  rw [← List.head?_filter, ← List.head?_map, hall, List.head?_map]

/-- INTERNAL: `do_vmi_align_munmap` removes the range, or changes no meaning.
SOURCE: mm/mmap.c:2530-2678 -/
theorem doVmiAlignMunmap_outcome (env : MmEnv) (ans : MunmapAnswers) {p : Ptr} {v : VmAreaStruct}
    (h : Holds as (A ++ (p, v) :: M ++ B)) (hr : PageRange start stop)
    (hA : ∀ c ∈ A, c.2.vmEnd.toNat ≤ start.toNat)
    (hM : ∀ c ∈ (p, v) :: M, start.toNat < c.2.vmEnd.toNat ∧ c.2.vmStart.toNat < stop.toNat)
    (hB : ∀ c ∈ B, stop.toNat ≤ c.2.vmStart.toNat) :
    UnmapOutcome as (A ++ (p, v) :: M ++ B) start stop
      (as.doVmiAlignMunmap env ans p start stop) := by
  have hv := hM (p, v) List.mem_cons_self
  unfold AddressSpace.doVmiAlignMunmap
  rcases splitStart_spec env ans.startSplit stop h hr.addrPage hA hv.1 with
    ⟨e, heq⟩ | ⟨as1, A1, v1, heq, hsame, hA1, hs1, hfrom, he1⟩
  · rw [heq]
    exact Or.inl ⟨e, as, _, rfl, SameMeaning.refl h⟩
  · rw [heq]
    dsimp only
    have hholds := hsame.holds
    have hv1 := hholds.lt (c := (p, v1)) (by simp)
    have hsub : ∀ c ∈ M, v1.vmEnd.toNat ≤ c.2.vmStart.toNat := by
      intro c hc
      have hcells : A1 ++ (p, v1) :: M ++ B = (A1 ++ [(p, v1)]) ++ (M ++ B) := by simp
      rw [hcells] at hholds
      exact hholds.le (c := (p, v1)) (by simp) (by simp [hc])
    dsimp only at hv1
    have hlt1 : v1.vmStart.toNat < stop.toNat := by
      rcases hfrom with heq | heq
      · rw [heq]
        exact hr.lt
      · rw [heq]
        exact hv.2
    have hM1 : ∀ c ∈ (p, v1) :: M,
        start.toNat < c.2.vmEnd.toNat ∧ c.2.vmStart.toNat < stop.toNat := by
      intro c hc
      rcases List.mem_cons.mp hc with rfl | hc
      · exact ⟨he1 ▸ hv.1, hlt1⟩
      · exact hM c (List.mem_cons_of_mem _ hc)
    rw [findAll_middle hholds hr.lt hA1 hM1 hB]
    have hstart : Gathering as (A ++ (p, v) :: M ++ B) start stop A1 [] ((p, v1) :: M) B as1
        ⟨as1, [], 0⟩ := by
      refine ⟨hsame, rfl, rfl, rfl, by simp, ?_, fun c hc => (hM1 c hc).2, hB⟩
      intro c hc
      rcases List.mem_cons.mp hc with rfl | hc
      · exact hs1
      · have := hsub c hc
        omega
    rcases gather_run ans hr.stopPage hstart with ⟨e, g, hrun, hundo⟩ | ⟨g, s, M', B', hrun, hdone⟩
    · rw [hrun]
      obtain ⟨cells', hcells'⟩ := hundo.undo
      exact Or.inl ⟨e, _, cells', rfl, hcells'⟩
    · rw [hrun]
      dsimp only
      cases ans.clear with
      | some e =>
        obtain ⟨cells', hcells'⟩ := hdone.undoable.undo
        exact Or.inl ⟨e, _, cells', rfl, hcells'⟩
      | none => exact Or.inr ⟨_, A1, M', B', rfl, hdone.detached hr.lt hA1⟩

/-- INTERNAL: the same from the area that `vma_find` has found. -/
theorem doVmiAlignMunmap_found (env : MmEnv) (ans : MunmapAnswers) {p : Ptr} (h : Holds as cells)
    (hr : PageRange start stop) (hfind : as.findVmaIntersection start stop = some p) :
    UnmapOutcome as cells start stop (as.doVmiAlignMunmap env ans p start stop) := by
  obtain ⟨A, M, B, rfl, hA, hM, hB⟩ := h.rep.divide start.toNat stop.toNat
  rw [findVmaIntersection_middle h hr.lt hA hM hB] at hfind
  cases M with
  | nil => cases hfind
  | cons c M =>
    obtain rfl := Option.some.inj hfind
    exact doVmiAlignMunmap_outcome env ans (p := c.1) (v := c.2) h hr hA hM hB

/-- INTERNAL: the range that passes the tests of `do_vmi_munmap` is one of whole pages.
SOURCE: mm/mmap.c:2701-2707 -/
theorem munmap_range (env : MmEnv) {start len : ULong}
    (hbad : ¬ (offsetInPage start = true ∨ env.taskSize < start ∨ env.taskSize - start < len))
    (hempty : ¬ start + pageAlign len = start) :
    PageRange start (start + pageAlign len) ∧
      (start + pageAlign len).toNat = start.toNat + (pageAlign len).toNat := by
  simp only [not_or, BitVec.lt_def, not_lt] at hbad
  obtain ⟨hoffset, hstart, hlen⟩ := hbad
  have hpage : start.toNat % 4096 = 0 := by
    by_contra hne
    exact hoffset (decide_eq_true hne)
  have htask := env.taskSize_le
  have htaskmod := env.taskSize_mod
  have hlen' : len.toNat ≤ env.taskSize.toNat - start.toNat := by
    rw [BitVec.toNat_sub] at hlen
    omega
  have halign : (pageAlign len).toNat = (len.toNat + 4095) / 4096 * 4096 := by
    rw [pageAlign_toNat]
    omega
  have hadd : (start + pageAlign len).toNat = start.toNat + (pageAlign len).toNat := by
    rw [BitVec.toNat_add]
    omega
  have hne : (pageAlign len).toNat ≠ 0 := by
    intro hzero
    apply hempty
    apply BitVec.eq_of_toNat_eq
    omega
  have hr : PageRange start (start + pageAlign len) := by
    refine ⟨by omega, hpage, ?_, ?_⟩
    · rw [hadd]
      omega
    · rw [hadd]
      omega
  exact ⟨hr, hadd⟩

/-- INTERNAL: `do_vmi_munmap`. -/
theorem doVmiMunmap_outcome (env : MmEnv) (ans : MunmapAnswers) (h : Holds as cells)
    (start len : ULong) :
    (as.doVmiMunmap env ans start len = (some EINVAL, as)) ∨
      PageRange start (start + pageAlign len) ∧
        (start + pageAlign len).toNat = start.toNat + (pageAlign len).toNat ∧
        UnmapOutcome as cells start (start + pageAlign len)
          (as.doVmiMunmap env ans start len) := by
  unfold AddressSpace.doVmiMunmap
  dsimp only
  split_ifs with hbad hempty
  · exact Or.inl rfl
  · exact Or.inl rfl
  · right
    obtain ⟨hr, hadd⟩ := munmap_range env hbad hempty
    refine ⟨hr, hadd, ?_⟩
    obtain ⟨A, M, B, hcells, hA, hM, hB⟩ := h.rep.divide start.toNat
      (start + pageAlign len).toNat
    subst hcells
    rw [findVmaIntersection_middle h hr.lt hA hM hB]
    cases M with
    | nil =>
      rw [List.append_nil] at h ⊢
      refine Or.inr ⟨as, A, [], B, rfl, by rw [List.append_nil], ?_, ?_, ?_, h, hA, by simp, hB,
        by rw [removeCells_nil], rfl⟩
      · rw [List.append_nil]
        exact fun a x hx => hx
      · rw [List.append_nil]
        exact h.rep.ordered
      · rw [List.append_nil]
        exact h.ok
    | cons c M =>
      exact doVmiAlignMunmap_outcome env ans (p := c.1) (v := c.2) h hr hA hM hB

end Munmap

end UsacKernel.Analysis
