import UsacKernel.Analysis.LimitEnforcement
import UsacKernel.Analysis.PageCounts

/-!
# What the operations on areas guarantee

The contracts of `vma_merge`, `vma_modify`, `munmap` and `exit_mmap`, in terms of what is mapped:

* a merge either leaves the address space as it was, or the range means what was requested and
  the area it returns covers the range;
* `vma_modify` cuts areas without a change of meaning, so that its caller can write to one area;
* a failed `munmap` changes no meaning, whichever of its steps fails, and a successful one removes
  the range;
* after `exit_mmap` no page is charged that an area had been charged for.

`Consistent` is the invariant of an address space between two calls: tree and areas agree, the
counters are exact, and no page is locked that cannot be.
-/

set_option autoImplicit false

namespace UsacKernel.Analysis

open UsacKernel.Computation UsacKernel.Model UsacKernel.Interface IndexedHeap

/-- The invariant of an address space, with `leak` pages charged that no area gives back. -/
structure Consistent (as : AddressSpace) (leak : ℤ) : Prop where
  areas : ∃ cells, Holds as cells ∧ Accounted as cells leak
  lockOk : LockOk (meaning as)

/-- A call has left a consistent address space that means `m`, without a warning and without a
change of the break or of the default flags. -/
structure Becomes (as as' : AddressSpace) (leak : ℤ) (m : AddressMap) : Prop where
  consistent : Consistent as' leak
  meaning_eq : meaning as' = m
  warned_eq : as'.warned = as.warned
  layout_eq : layout as'.counters = layout as.counters

section Becomes

variable {as as' : AddressSpace} {cells cells' A M B : List Cell} {leak : ℤ} {start stop : ULong}

/-- INTERNAL: `validate_mm` accepts every consistent address space. -/
theorem Consistent.validateMm_eq (h : Consistent as leak) : validateMm as = true := by
  obtain ⟨cells, hholds, -⟩ := h.areas
  exact hholds.validateMm_eq

/-- INTERNAL: a call that does nothing keeps the map. -/
theorem Consistent.becomes (h : Consistent as leak) : Becomes as as leak (meaning as) :=
  ⟨h, rfl, rfl, rfl⟩

/-- INTERNAL: a change of areas that shows at no address, and keeps the counters, is one to the
same map. -/
theorem SameMeaning.becomes (h : SameMeaning as as' cells cells') (hholds : Holds as cells)
    (hacc : Accounted as cells leak) (hlock : LockOk (Interface.meaning as)) :
    Becomes as as' leak (Interface.meaning as) := by
  have hmeaning : Interface.meaning as' = Interface.meaning as := by
    rw [h.holds.meaning_eq, hholds.meaning_eq, h.meaning]
  exact ⟨⟨⟨cells', h.holds, hacc.sameMeaning hholds h⟩, hmeaning ▸ hlock⟩, hmeaning, h.warned,
    congrArg layout h.counters⟩

/-- INTERNAL: an unmapped range of areas is a range removed from the map, with the counters to
match. -/
theorem UnmappedInto.becomes (h : UnmappedInto as as' cells start stop A M B)
    (hholds : Holds as cells) (hacc : Accounted as cells leak)
    (hlock : LockOk (Interface.meaning as)) :
    Becomes as as' leak ((Interface.meaning as).remove start.toNat stop.toNat) := by
  have hmeaning : Interface.meaning as' = (Interface.meaning as).remove start.toNat stop.toNat := by
    rw [h.holds.meaning_eq, hholds.meaning_eq, h.meaning_eq]
  exact ⟨⟨⟨A ++ B, h.holds, hacc.unmapped hholds h⟩, hmeaning ▸ hlock.remove _ _⟩, hmeaning,
    h.warned, (congrArg layout h.counters).trans (removeCells_layout _ _)⟩

end Becomes

/-! ## A small address space

Two anonymous areas with a free page between them. -/

/-- A private writable area whose page is the number of its address's page. -/
def anonArea (start stop : ULong) : VmAreaStruct where
  vmStart := start
  vmEnd := stop
  vmFlags := VM_READ ||| VM_WRITE ||| VM_ACCOUNT
  vmPgoff := bytesToPages start
  vmFile := none
  vmOps := none
  anonVma := none
  anonVmaChain := []
  vmPolicy := none
  vmUserfaultfdCtx := none
  anonName := none
  detached := false

/-- The two areas. -/
def twoCells : List Cell := [(0, anonArea 0x1000 0x3000), (1, anonArea 0x4000 0x5000)]

/-- The address space of the two areas, with exact counters. -/
def twoAreas : AddressSpace where
  heap p := if p = 0 then anonArea 0x1000 0x3000 else anonArea 0x4000 0x5000
  fresh := 2
  mt := (RangeMap.empty.store 0x1000 0x3000 0).store 0x4000 0x5000 1
  mapCount := 2
  counters :=
    { brk := 0x3000, startBrk := 0x1000, startData := 0x1000, endData := 0x1000, totalVm := 3
      execVm := 0, stackVm := 0, dataVm := 3, lockedVm := 0, defFlags := 0, committed := 3 }
  warned := false

/-- INTERNAL: the tree of the two areas is well formed. -/
theorem twoAreas_holds : Holds twoAreas twoCells where
  rep := ⟨by decide, by decide, by decide⟩
  fresh := by decide
  count := by decide
  ok := by
    intro c hc
    simp only [twoCells, List.mem_cons, List.not_mem_nil, or_false] at hc
    rcases hc with rfl | rfl
    · exact ⟨by decide, by decide, by decide, fun _ => rfl, rfl⟩
    · exact ⟨by decide, by decide, by decide, fun _ => rfl, rfl⟩

/-- INTERNAL: the counters of the two areas are right. -/
theorem twoAreas_accounted : Accounted twoAreas twoCells 0 where
  counters k := by cases k <;> decide
  committed := by decide

/-- INTERNAL: the address space of two areas is a consistent one. -/
theorem twoAreas_consistent : Consistent twoAreas 0 where
  areas := ⟨twoCells, twoAreas_holds, twoAreas_accounted⟩
  lockOk := by
    rw [twoAreas_holds.meaning_eq]
    intro a attr ha _
    obtain ⟨c, hc, rfl⟩ := Option.map_eq_some_iff.mp ha
    have hmem := recordAt_mem hc
    simp only [twoCells, List.mem_cons, List.not_mem_nil, or_false] at hmem
    rcases hmem with rfl | rfl
    · decide
    · decide

/-! ## `vma_merge` -/

/-- MAIN: **`vma_merge`** changes nothing when it returns no area. When it returns one, this area
covers the range, the range means what was requested, every other address means what it meant, no
page has lost its `anon_vma`, the tree is valid, and no assertion was hit.
SOURCE: mm/mmap.c:874-1062 -/
theorem vmaMerge_contract {as : AddressSpace} {cells : List Cell} {prev : Option Ptr}
    {req : MergeRequest} (ans : MergeAnswers) (h : Holds as cells)
    (hr : PageRange req.addr req.stop) (hsite : MergeSite cells prev req) :
    vmaMerge ans as prev req = (none, as) ∨
      ∃ q as', vmaMerge ans as prev req = (some q, as') ∧ validateMm as' = true ∧
        (∀ a, req.addr.toNat ≤ a → a < req.stop.toNat → as'.mt.lookup a = some q) ∧
        meaning as' = (meaning as).assign req.addr.toNat req.stop.toNat (requestAttr req) ∧
        (∀ a x, anonVmaAt as a = some x → anonVmaAt as' a = some x) ∧
        as'.counters = as.counters ∧ as'.warned = as.warned := by
  rcases vmaMerge_outcome ans h hr hsite with heq | ⟨q, as', cells', heq, hm⟩
  · exact Or.inl heq
  · refine Or.inr ⟨q, as', heq, hm.holds.validateMm_eq, ?_, ?_, ?_, hm.frame.counters,
      hm.frame.warned⟩
    · intro a hlo hhi
      obtain ⟨v, hv, hstart, hstop⟩ := hm.covers
      rw [hm.holds.rep.lookup, hm.holds.recordAt_of_mem hv ⟨hstart.trans hlo, hhi.trans_le hstop⟩]
      rfl
    · rw [hm.holds.meaning_eq, h.meaning_eq, hm.meaning]
    · intro a x hx
      rw [h.anonVmaAt_eq] at hx
      rw [hm.holds.anonVmaAt_eq]
      exact hm.anon a x hx

/-- The free page between the two areas, to be mapped as they are. -/
def gapRequest : MergeRequest where
  addr := 0x3000
  stop := 0x4000
  vmFlags := VM_READ ||| VM_WRITE ||| VM_ACCOUNT
  anonVma := none
  file := none
  pgoff := 3
  policy := none
  uffdCtx := none
  anonName := none

/-- INTERNAL: the request for the gap between the two areas is one that `vma_merge` is called
with. -/
theorem gapRequest_site : MergeSite twoCells (some 0) gapRequest :=
  MergeSite.unmapped [(0, anonArea 0x1000 0x3000)] [(1, anonArea 0x4000 0x5000)] rfl (by decide)
    (by decide) rfl

/-- The two areas and the page between them become one area. -/
theorem vmaMerge_contract_gap :
    ∃ as', vmaMerge ⟨false, false⟩ twoAreas (some 0) gapRequest = (some 0, as') ∧
      validateMm as' = true ∧
      meaning as' = (meaning twoAreas).assign 0x3000 0x4000 (requestAttr gapRequest) := by
  have hresult : (vmaMerge ⟨false, false⟩ twoAreas (some 0) gapRequest).1 = some 0 := by decide
  rcases vmaMerge_contract ⟨false, false⟩ twoAreas_holds
      (⟨by decide, by decide, by decide, by decide⟩ : PageRange gapRequest.addr gapRequest.stop)
      gapRequest_site with heq | ⟨q, as', heq, hvalid, -, hmeaning, -⟩
  · rw [heq] at hresult
    cases hresult
  · rw [heq] at hresult
    obtain rfl := Option.some.inj hresult
    exact ⟨as', heq, hvalid, hmeaning⟩

/-! ## `vma_modify` -/

/-- MAIN: **`vma_modify`** prepares an area for new flags, a new policy, a new userfaultfd context
or a new name of a range. A failure has changed no meaning. Otherwise the caller may write to the
area that is returned: then the range has the new values over its old file and pages, every
other address means what it meant, and the tree is valid.
SOURCE: mm/mmap.c:2449-2482 -/
theorem vmaModify_contract {as : AddressSpace} {A B : List Cell} {p : Ptr} {v : VmAreaStruct}
    {prev : Option Ptr} {req : ModifyRequest} (env : MmEnv) (merge : MergeAnswers)
    (below above : SplitAnswers) (h : Holds as (A ++ [(p, v)] ++ B))
    (hsite : ModifySite A p v prev req) :
    (∃ e as', vmaModify env merge below above as prev p req = (.error e, as') ∧
        validateMm as' = true ∧ meaning as' = meaning as ∧ as'.counters = as.counters ∧
        as'.warned = as.warned) ∨
      ∃ q as', vmaModify env merge below above as prev p req = (.ok q, as') ∧
        validateMm (as'.modify q (modified req)) = true ∧
        meaning (as'.modify q (modified req)) =
          (meaning as).assign req.start.toNat req.stop.toNat (requestAttr (req.merge v)) ∧
        (∀ a x, anonVmaAt as a = some x →
          anonVmaAt (as'.modify q (modified req)) a = some x) ∧
        as'.counters = as.counters ∧ as'.warned = as.warned := by
  rcases vmaModify_spec env merge below above h hsite with
    ⟨e, as', cells', heq, hsame⟩ | ⟨q, as', heq, hready⟩
  · refine Or.inl ⟨e, as', heq, hsame.holds.validateMm_eq, ?_, hsame.counters, hsame.warned⟩
    rw [hsame.holds.meaning_eq, h.meaning_eq, hsame.meaning]
  · obtain ⟨cells', hholds, hmeaning, hanon⟩ := hready.holds
    refine Or.inr ⟨q, as', heq, hholds.validateMm_eq, ?_, ?_, hready.counters, hready.warned⟩
    · rw [hholds.meaning_eq, h.meaning_eq, hmeaning]
    · intro a x hx
      rw [h.anonVmaAt_eq] at hx
      rw [hholds.anonVmaAt_eq]
      exact hanon a x hx

/-- The second page of the first area is to become read-only. -/
def protectRequest : ModifyRequest where
  start := 0x2000
  stop := 0x3000
  vmFlags := VM_READ ||| VM_ACCOUNT
  policy := none
  uffdCtx := none
  anonName := none

/-- INTERNAL: the request over the upper part of the first area is one that `vma_modify` is
called with. -/
theorem protectRequest_site :
    ModifySite [] 0 (anonArea 0x1000 0x3000) (some 0) protectRequest where
  range := ⟨by decide, by decide, by decide, by decide⟩
  start := by decide
  stop := by decide
  prev := by decide

/-- The area is cut once, and its upper part takes the new flags. -/
theorem vmaModify_contract_protect :
    ∃ as', vmaModify quietEnv ⟨false, false⟩ ⟨none, false, none, false⟩ ⟨none, false, none, false⟩
        twoAreas (some 0) 0 protectRequest = (.ok 0, as') ∧
      validateMm (as'.modify 0 (modified protectRequest)) = true ∧
      meaning (as'.modify 0 (modified protectRequest)) =
        (meaning twoAreas).assign 0x2000 0x3000
          (requestAttr (protectRequest.merge (anonArea 0x1000 0x3000))) := by
  have hcells : Holds twoAreas
      ([] ++ [(0, anonArea 0x1000 0x3000)] ++ [(1, anonArea 0x4000 0x5000)]) := twoAreas_holds
  have hresult : (vmaModify quietEnv ⟨false, false⟩ ⟨none, false, none, false⟩
      ⟨none, false, none, false⟩ twoAreas (some 0) 0 protectRequest).1.toOption = some 0 := by
    decide
  rcases vmaModify_contract quietEnv ⟨false, false⟩ ⟨none, false, none, false⟩
      ⟨none, false, none, false⟩ hcells protectRequest_site with
    ⟨e, as', heq, -⟩ | ⟨q, as', heq, hvalid, hmeaning, -⟩
  · rw [heq] at hresult
    cases hresult
  · rw [heq] at hresult
    obtain rfl := Option.some.inj hresult
    exact ⟨as', heq, hvalid, hmeaning⟩

/-! ## `munmap` -/

section Unmap

variable {as : AddressSpace} {leak : ℤ}

/-- INTERNAL: `do_vmi_munmap`, in terms of what is mapped. -/
theorem doVmiMunmap_becomes (env : MmEnv) (ans : MunmapAnswers) (h : Consistent as leak)
    (start len : ULong) :
    (∃ e as', as.doVmiMunmap env ans start len = (some e, as') ∧
        Becomes as as' leak (meaning as)) ∨
      ∃ as', as.doVmiMunmap env ans start len = (none, as') ∧
        PageRange start (start + pageAlign len) ∧
        Becomes as as' leak ((meaning as).remove start.toNat (start + pageAlign len).toNat) ∧
        ∀ a x, ¬ (start.toNat ≤ a ∧ a < (start + pageAlign len).toNat) →
          anonVmaAt as a = some x → anonVmaAt as' a = some x := by
  obtain ⟨cells, hholds, hacc⟩ := h.areas
  rcases doVmiMunmap_outcome env ans hholds start len with
    heq | ⟨hr, -, ⟨e, as', cells', heq, hsame⟩ | ⟨as', A, M, B, heq, hunmapped⟩⟩
  · exact Or.inl ⟨EINVAL, as, heq, h.becomes⟩
  · exact Or.inl ⟨e, as', heq, hsame.becomes hholds hacc h.lockOk⟩
  · refine Or.inr ⟨as', heq, hr, hunmapped.becomes hholds hacc h.lockOk, ?_⟩
    intro a x hout hx
    rw [hholds.anonVmaAt_eq] at hx
    rw [hunmapped.holds.anonVmaAt_eq]
    exact hunmapped.anon_eq hx hout

/-- MAIN: **`munmap`** fails without a change of what is mapped, however far it had come, or it
removes exactly the pages of the range. Either way tree and areas agree, every counter is the
number of pages of its class, the charge is that of the areas, and no warning was given.
SOURCE: mm/mmap.c:2530-2722, 2998-3026 -/
theorem munmap_contract (env : MmEnv) (ans : MunmapAnswers) (h : Consistent as leak)
    (addr len : ULong) :
    (∃ e as', as.munmap env ans addr len = (some e, as') ∧ Becomes as as' leak (meaning as)) ∨
      ∃ as', as.munmap env ans addr len = (none, as') ∧
        PageRange addr (addr + pageAlign len) ∧
        Becomes as as' leak ((meaning as).remove addr.toNat (addr + pageAlign len).toNat) ∧
        ∀ a x, ¬ (addr.toNat ≤ a ∧ a < (addr + pageAlign len).toNat) →
          anonVmaAt as a = some x → anonVmaAt as' a = some x := by
  unfold AddressSpace.munmap
  split_ifs
  · exact Or.inl ⟨EINTR, as, rfl, h.becomes⟩
  · exact doVmiMunmap_becomes env ans h addr len

/-- Nothing fails while a range is unmapped. -/
def quietMunmap : MunmapAnswers where
  startSplit := ⟨none, false, none, false⟩
  endSplit := ⟨none, false, none, false⟩
  gather _ := none
  uffdPrep _ := none
  clear := none

/-- The last page of the first area and the whole second area are unmapped. -/
theorem munmap_contract_two :
    ∃ as', twoAreas.munmap quietEnv quietMunmap 0x2000 0x2800 = (none, as') ∧
      Becomes twoAreas as' 0 ((meaning twoAreas).remove 0x2000 0x5000) := by
  have hresult : (twoAreas.munmap quietEnv quietMunmap 0x2000 0x2800).1 = none := by decide
  rcases munmap_contract quietEnv quietMunmap twoAreas_consistent 0x2000 0x2800 with
    ⟨e, as', heq, -⟩ | ⟨as', heq, -, hbecomes, -⟩
  · rw [heq] at hresult
    cases hresult
  · exact ⟨as', heq, hbecomes⟩

end Unmap

/-! ## `exit_mmap` -/

/-- MAIN: **`exit_mmap`** removes every area and gives back the charge of all of them, and its
count of the areas is `map_count`, so the `BUG_ON` is not reached.
SOURCE: mm/mmap.c:3278-3342 -/
theorem exitMmap_contract {as : AddressSpace} {leak : ℤ} (h : Consistent as leak) :
    as.exitMmap.mt.spans = [] ∧ as.exitMmap.counters.committed = leak ∧
      as.exitMmap.warned = as.warned := by
  obtain ⟨cells, hholds, hacc⟩ := h.areas
  have hdetach : as.mt.spans.map Span.val = cells.map Prod.fst := by
    rw [hholds.rep.spans, List.map_map]
    rfl
  have hareas : (cells.map Prod.fst).map as.heap = cells.map Prod.snd := by
    rw [List.map_map]
    exact List.map_congr_left fun c hc => hholds.read hc
  have hsum : ((cells.map Prod.snd).map accountedPages).sum =
      BitVec.ofNat 64 (sumPages isAccounted cells) := by
    rw [← sum_ofNat_pagesIf, List.map_map]
    refine congrArg List.sum (List.map_congr_left fun c _ => ?_)
    exact accountedPages_eq c.2
  have hle := hholds.sumPages_le isAccounted_ignoresSoftDirty
  unfold AddressSpace.exitMmap
  split_ifs with hempty
  · have hnil : cells = [] := by
      rw [List.isEmpty_iff, hholds.rep.spans, List.map_eq_nil_iff] at hempty
      exact hempty
    refine ⟨List.isEmpty_iff.mp hempty, ?_, rfl⟩
    rw [hacc.committed, hnil, sumPages_nil, Nat.cast_zero, zero_add]
  · have hcount : ¬ (((cells.map Prod.fst).length : ℤ) ≠ as.mapCount) := by
      rw [List.length_map, hholds.count]
      exact not_not_intro rfl
    have hwarn := as.warnOn_of_not hcount
    unfold AddressSpace.exitAreas
    rw [hdetach, hareas, hsum]
    dsimp only
    rw [hwarn]
    refine ⟨rfl, ?_, rfl⟩
    show as.counters.committed + -((BitVec.ofNat 64 (sumPages isAccounted cells)).toNat : ℤ) = leak
    rw [hacc.committed, BitVec.toNat_ofNat, Nat.mod_eq_of_lt (by omega)]
    ring

/-- Nothing of the two areas stays charged. -/
theorem exitMmap_contract_two :
    twoAreas.exitMmap.mt.spans = [] ∧ twoAreas.exitMmap.counters.committed = 0 ∧
      twoAreas.exitMmap.warned = false :=
  exitMmap_contract twoAreas_consistent

end UsacKernel.Analysis
