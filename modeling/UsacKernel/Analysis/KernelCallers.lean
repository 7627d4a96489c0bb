import UsacKernel.Analysis.HeapBreak
import UsacKernel.Analysis.StackGrowth

/-!
# What `mm/mmap.c` offers to the rest of the kernel

Functions that no system call of `mm/mmap.c` reaches, but other parts of the kernel call: the
program loader maps with `vm_brk_flags` and moves its stack with `vma_shrink`, `mremap` grows an
area with `vma_merge_extend`, the vdso is put in place by `__install_special_mapping`, and an
access to another process's memory lets its stack grow through `find_extend_vma_locked`. They keep
the invariant of the address space as the system calls do.
-/

set_option autoImplicit false

namespace UsacKernel.Analysis

open UsacKernel.Computation UsacKernel.Model UsacKernel.Interface IndexedHeap

section Callers

variable {as : AddressSpace} {leak : ℤ}

/-! ## `vm_brk_flags` -/

/-- INTERNAL: `vm_brk_flags` lets only `VM_EXEC` through, which does not decide what kind of
mapping a heap is.
SOURCE: mm/mmap.c:3246-3248 -/
theorem and_heapMask_of_exec {flags : ULong} (h : ¬ flags &&& ~~~ VM_EXEC ≠ 0) :
    flags &&& heapMask = 0 := by
  have hmask : heapMask = ~~~ VM_EXEC &&& heapMask := by decide
  rw [hmask, ← BitVec.and_assoc, not_not.mp h]
  exact BitVec.zero_and

/-- INTERNAL: the default flags are part of the layout that no call changes. -/
theorem defFlags_of_layout {c c' : Counters} (h : layout c' = layout c) :
    c'.defFlags = c.defFlags :=
  congrArg (fun l => l.2.2.2.2) h

/-- MAIN: **`vm_brk_flags`** refuses and changes nothing that is mapped, or unmaps the range and
then fails, or maps it as private writable memory in place of what was there.
SOURCE: mm/mmap.c:3230-3274 -/
theorem vmBrkFlags_contract (env : MmEnv) (ans : BrkAnswers) (h : Consistent as leak)
    (hdef : DefFlagsOk as.counters) (addr request flags : ULong) :
    let stop := addr + pageAlign request
    (∃ r as', as.vmBrkFlags env ans addr request flags = (r, as') ∧
        Becomes as as' leak (meaning as)) ∨
      (∃ e as', as.vmBrkFlags env ans addr request flags = (Errno.ptr e, as') ∧
        Becomes as as' leak ((meaning as).remove addr.toNat stop.toNat)) ∨
      ∃ as', as.vmBrkFlags env ans addr request flags = (0, as') ∧
        Becomes as as' leak ((meaning as).assign addr.toNat stop.toNat
          (brkAttr env as.counters addr flags)) := by
  intro stop
  obtain ⟨cells, hholds, hacc⟩ := h.areas
  unfold AddressSpace.vmBrkFlags
  dsimp only
  by_cases hwrap : pageAlign request < request
  · rw [if_pos hwrap]
    exact Or.inl ⟨_, as, rfl, h.becomes⟩
  rw [if_neg hwrap]
  by_cases hempty : pageAlign request = 0
  · rw [if_pos hempty]
    exact Or.inl ⟨_, as, rfl, h.becomes⟩
  rw [if_neg hempty]
  by_cases hflags : flags &&& ~~~ VM_EXEC ≠ 0
  · rw [if_pos hflags]
    exact Or.inl ⟨_, as, rfl, h.becomes⟩
  rw [if_neg hflags]
  by_cases hkilled : env.lockKilled = true
  · rw [if_pos hkilled]
    exact Or.inl ⟨_, as, rfl, h.becomes⟩
  rw [if_neg hkilled]
  by_cases hlimits : as.brkLimitsError env addr (pageAlign request) ≠ 0
  · rw [if_pos hlimits]
    exact Or.inl ⟨_, as, rfl, h.becomes⟩
  rw [if_neg hlimits]
  have hunmap := doVmiMunmap_outcome env ans.munmap hholds addr (pageAlign request)
  rw [pageAlign_of_mod _ (pageAlign_mod request)] at hunmap
  rcases hunmap with heq | ⟨hr, -, ⟨e, as1, cells1, heq, hsame⟩ | ⟨as1, A, M, B, heq, hun⟩⟩
  · rw [heq]
    exact Or.inl ⟨_, as, rfl, h.becomes⟩
  · rw [heq]
    exact Or.inl ⟨_, as1, rfl, hsame.becomes hholds hacc h.lockOk⟩
  · rw [heq]
    have hb := hun.becomes hholds hacc h.lockOk
    have hdefFlags := defFlags_of_layout hb.layout_eq
    have hdef1 : DefFlagsOk as1.counters := by
      unfold DefFlagsOk
      rw [hdefFlags]
      exact hdef
    have hprev := vmaPrev_eq hun.holds hun.below fun c hc => hr.lt.le.trans (hun.above c hc)
    have hlock : LockOk (cellsMeaning (A ++ B)) := hun.holds.meaning_eq ▸ hb.consistent.lockOk
    rcases doBrkFlags_outcome env ans hdef1 (and_heapMask_of_exec hflags)
        hun.holds (hacc.unmapped hholds hun) hlock hr hun.below hun.above
        (fun p hp => hprev ▸ hp) with hbrk | ⟨as', hbrk, hmapped⟩
    · -- the range stays unmapped
      dsimp only
      rw [hbrk]
      exact Or.inr (Or.inl ⟨ENOMEM, as1, rfl, hb⟩)
    · dsimp only
      rw [hbrk]
      have hattr : brkAttr env as1.counters addr flags = brkAttr env as.counters addr flags := by
        unfold brkAttr brkFlags
        rw [hdefFlags]
      refine Or.inr (Or.inr ⟨as', rfl, hmapped.consistent, ?_, hmapped.warned_eq.trans hb.warned_eq,
        hmapped.layout_eq.trans hb.layout_eq⟩)
      rw [hmapped.meaning_eq, hun.meaning_eq, ← hholds.meaning_eq, hattr, AddressMap.remove_assign]

/-! ## `find_extend_vma_locked` -/

/-- MAIN: **`find_extend_vma_locked`** changes nothing that is mapped, or lets the first area above
the address grow down to the page of the address, and returns this area.
SOURCE: mm/mmap.c:2221-2238 -/
theorem findExtendVmaLocked_contract (env : MmEnv) (ans : StackAnswers) (h : Consistent as leak)
    (addr : ULong) :
    (∃ r as', as.findExtendVmaLocked env ans addr = (r, as') ∧ Becomes as as' leak (meaning as)) ∨
      ∃ p as', as.findExtendVmaLocked env ans addr = (some p, as') ∧
        GrownInto as as' leak p (alignDown pageShift addr) := by
  unfold AddressSpace.findExtendVmaLocked
  dsimp only
  cases hfind : as.findVma (alignDown pageShift addr) with
  | none => exact Or.inl ⟨none, as, rfl, h.becomes⟩
  | some q =>
    dsimp only
    by_cases hinside : (as.heap q).vmStart ≤ alignDown pageShift addr
    · rw [if_pos hinside]
      exact Or.inl ⟨some q, as, rfl, h.becomes⟩
    · rw [if_neg hinside]
      have hgrow := expandDownwards_found env ans h hfind
      rw [alignDown_alignDown] at hgrow
      rcases hgrow with ⟨r, as', heq, hb⟩ | ⟨as', heq, hgrown⟩
      · rw [heq]
        cases r with
        | none => exact Or.inl ⟨some q, as', rfl, hb⟩
        | some e => exact Or.inl ⟨none, as', rfl, hb⟩
      · rw [heq]
        exact Or.inr ⟨q, as', rfl, hgrown⟩

/-! ## `__install_special_mapping` -/

/-- The area that `insert_vm_struct` links: an anonymous one gets the page number of its
address.
SOURCE: mm/mmap.c:3372-3375 -/
def insertedArea (v : VmAreaStruct) : VmAreaStruct :=
  if v.isAnonymous then { v with vmPgoff := bytesToPages v.vmStart } else v

/-- INTERNAL: `insert_vm_struct` fails without a change, or the area is in place and charged for.
SOURCE: mm/mmap.c:3348-3384 -/
theorem insertVmStruct_outcome (env : MmEnv) (preallocFails : Bool) {cells : List Cell}
    {v : VmAreaStruct} (h : Holds as cells) (hok : AreaOk v)
    (hlt : v.vmStart.toNat < v.vmEnd.toNat)
    (hanon : ¬ (v.isAnonymous = true ∧ v.anonVma.isSome = true)) :
    (∃ e, as.insertVmStruct env preallocFails v = (some e, as)) ∨
      ∃ as' cells', as.insertVmStruct env preallocFails v = (none, as') ∧
        (∀ a, v.vmStart.toNat ≤ a → a < v.vmEnd.toNat → cellsMeaning cells a = none) ∧
        Placed (as.modifyCounters (fun c => c.addCommitted
            (if hasFlag v.vmFlags VM_ACCOUNT then (vmaPages v.area).toNat else 0)))
          as' cells cells' v.vmStart v.vmEnd (areaAttr (insertedArea v)) as.fresh := by
  obtain ⟨A, M, B, rfl, hA, hM, hB⟩ := h.rep.divide v.vmStart.toNat v.vmEnd.toNat
  unfold AddressSpace.insertVmStruct
  dsimp only
  rw [findVmaIntersection_middle h hlt hA hM hB, AddressSpace.warnOn_of_not _ hanon]
  cases M with
  | cons c M => exact Or.inl ⟨ENOMEM, rfl⟩
  | nil =>
    rw [if_neg (by simp)]
    by_cases hdenied : hasFlag v.vmFlags VM_ACCOUNT = true ∧
        env.securityVmEnoughMemory (vmaPages v.area) = true
    · exact Or.inl ⟨ENOMEM, if_pos hdenied⟩
    rw [if_neg hdenied]
    by_cases hprealloc : preallocFails = true
    · -- the charge is given back
      simp only [AddressSpace.vmaLink, if_pos hprealloc, uncharge]
      exact Or.inl ⟨ENOMEM, rfl⟩
    simp only [AddressSpace.vmaLink, if_neg hprealloc]
    rw [List.append_nil] at h ⊢
    have hins : AreaOk (insertedArea v) ∧ (insertedArea v).vmStart = v.vmStart ∧
        (insertedArea v).vmEnd = v.vmEnd := by
      unfold insertedArea
      split_ifs
      · exact ⟨⟨hok.startPage, hok.endPage, hok.user, hok.chain, hok.attached⟩, rfl, rfl⟩
      · exact ⟨hok, rfl, rfl⟩
    obtain ⟨hokins, hstart, hend⟩ := hins
    have hplaced := placed_link (v := insertedArea v) (h.modifyCounters (fun c => c.addCommitted
      (if hasFlag v.vmFlags VM_ACCOUNT then (vmaPages v.area).toNat else 0))) hokins
      (hstart ▸ hend ▸ hlt) (hstart ▸ hA) (hend ▸ hB)
    rw [hstart, hend] at hplaced
    exact Or.inr ⟨_, _, rfl, free_between hA hB, hplaced⟩

/-- The area of a special mapping.
SOURCE: mm/mmap.c:3611-3619 -/
def specialArea (c : Counters) (addr len vmFlags : ULong) : VmAreaStruct :=
  { newArea addr (addr + len) ((vmFlags ||| c.defFlags ||| VM_DONTEXPAND ||| VM_SOFTDIRTY) &&&
      ~~~ VM_LOCKED_MASK) 0 with vmOps := some ⟨true⟩ }

/-- INTERNAL: the pages of a special mapping are not locked. -/
theorem specialArea_locked (c : Counters) (addr len vmFlags : ULong) :
    hasFlag (areaAttr (specialArea c addr len vmFlags)).flags VM_LOCKED = false :=
  (hasFlag_clear _ VM_SOFTDIRTY VM_LOCKED (by decide)).trans (hasFlag_clear_locked _)

/-- INTERNAL: `vm_stat_account` is all that the counters of a special mapping need. -/
theorem Placed.special {as1 : AddressSpace} {cells cells1 : List Cell} {c : Counters}
    {addr len vmFlags : ULong} {q : Ptr} (h : Placed as as1 cells cells1 addr (addr + len)
      (areaAttr (specialArea c addr len vmFlags)) q) (n : ULong) :
    MappedInto as (as1.modifyCounters (fun c' =>
        c'.vmStatAccount (specialArea c addr len vmFlags).vmFlags n)) cells cells1 addr (addr + len)
      (areaAttr (specialArea c addr len vmFlags)) n where
  holds := h.holds.modifyCounters _
  meaning := h.meaning
  anon := h.anon
  counters := by
    unfold countMapped
    rw [specialArea_locked, if_neg Bool.false_ne_true, ← h.counters]
    exact (vmStatAccount_clear _ _ n VM_SOFTDIRTY fun k _ => k.mask_softDirty).symm
  warned := h.warned
  lockable _ := specialArea_locked c addr len vmFlags

/-- MAIN: **`__install_special_mapping`** fails without a change, or the range, which was free, is
mapped with the flags that were asked for, but never locked.
SOURCE: mm/mmap.c:3598-3634 -/
theorem installSpecialMapping_contract (env : MmEnv) (allocFails preallocFails : Bool)
    (h : Consistent as leak) {addr len : ULong} (vmFlags : ULong)
    (hr : PageRange addr (addr + len)) :
    (∃ e, as.installSpecialMapping env allocFails preallocFails addr len vmFlags = (some e, as)) ∨
      ∃ as', as.installSpecialMapping env allocFails preallocFails addr len vmFlags = (none, as') ∧
        (∀ a, addr.toNat ≤ a → a < (addr + len).toNat → meaning as a = none) ∧
        Becomes as as' leak ((meaning as).assign addr.toNat (addr + len).toNat
          (areaAttr (specialArea as.counters addr len vmFlags))) := by
  obtain ⟨cells, hholds, hacc⟩ := h.areas
  unfold AddressSpace.installSpecialMapping
  by_cases halloc : allocFails = true
  · exact Or.inl ⟨ENOMEM, if_pos halloc⟩
  rw [if_neg halloc]
  have hok : AreaOk (specialArea as.counters addr len vmFlags) :=
    ⟨hr.addrPage, hr.stopPage, hr.user, fun _ => rfl, rfl⟩
  rcases insertVmStruct_outcome env preallocFails hholds hok hr.lt
      (fun hcon => by cases hcon.1) with
    ⟨e, heq⟩ | ⟨as1, cells1, heq, hfree, hplaced⟩
  · unfold specialArea at heq
    dsimp only
    rw [heq]
    exact Or.inl ⟨e, rfl⟩
  · have hpages : bytesToPages len = bytesToPages (addr + len - addr) := by
      refine congrArg bytesToPages ?_
      ring
    have hmapped : MappedInto _ _ cells cells1 addr (addr + len)
        (areaAttr (specialArea as.counters addr len vmFlags)) (bytesToPages len) :=
      Placed.special hplaced (bytesToPages len)
    have hleak : leak = (leak + if hasFlag (specialArea as.counters addr len vmFlags).vmFlags
          VM_ACCOUNT then ((vmaPages (specialArea as.counters addr len vmFlags).area).toNat : ℤ)
          else 0) -
        if isAccounted (areaAttr (specialArea as.counters addr len vmFlags)).flags then
          (bytesToPages len).toNat else 0 := by
      have hflag : isAccounted (areaAttr (specialArea as.counters addr len vmFlags)).flags =
          hasFlag (specialArea as.counters addr len vmFlags).vmFlags VM_ACCOUNT :=
        isAccounted_ignoresSoftDirty _
      have hsize : vmaPages (specialArea as.counters addr len vmFlags).area = bytesToPages len :=
        hpages.symm
      rw [hflag, hsize, Nat.cast_ite, Nat.cast_zero]
      exact (add_sub_cancel_right _ _).symm
    have hb := hmapped.becomes (hholds.modifyCounters _) (hacc.addCommitted _)
      (hholds.meaning_eq ▸ h.lockOk) hr hfree hpages hleak
    unfold specialArea at heq
    dsimp only
    rw [heq]
    refine Or.inr ⟨_, rfl, ?_, hb.consistent, ?_, hb.warned_eq, hb.layout_eq⟩
    · rw [hholds.meaning_eq]
      exact hfree
    · rw [hholds.meaning_eq]
      exact hb.meaning_eq

end Callers

/-! ## `vma_merge_extend` -/

section Extend

variable {as : AddressSpace} {A B : List Cell} {p : Ptr} {v : VmAreaStruct}

/-- The request of `vma_merge_extend`. -/
def extendRequest (v : VmAreaStruct) (delta : ULong) : MergeRequest where
  addr := v.vmEnd
  stop := v.vmEnd + delta
  vmFlags := v.vmFlags
  anonVma := v.anonVma
  file := v.vmFile
  pgoff := v.vmPgoff + vmaPages v.area
  policy := v.vmPolicy
  uffdCtx := v.vmUserfaultfdCtx
  anonName := v.anonName

/-- INTERNAL: the pages behind an area continue those of the area. -/
theorem requestAttr_extend (hok : AreaOk v) (hle : v.vmStart.toNat ≤ v.vmEnd.toNat)
    (delta : ULong) : requestAttr (extendRequest v delta) = areaAttr v := by
  have hpages : bytesToPages (v.area.vmEnd - v.area.vmStart) =
      bytesToPages v.vmEnd - bytesToPages v.vmStart := bytesToPages_sub hle hok.startPage
  unfold requestAttr areaAttr extendRequest vmaPages
  dsimp only
  rw [hpages]
  congr 1
  ring

/-- MAIN: **`vma_merge_extend`** lets an area grow into the free range behind it, or changes
nothing. The new pages continue those of the area.
SOURCE: mm/mmap.c:2502-2513 -/
theorem vmaMergeExtend_contract (ans : MergeAnswers) (h : Holds as (A ++ [(p, v)] ++ B))
    (delta : ULong) (hr : PageRange v.vmEnd (v.vmEnd + delta))
    (hB : ∀ c ∈ B, (v.vmEnd + delta).toNat ≤ c.2.vmStart.toNat) :
    vmaMergeExtend ans as p delta = (none, as) ∨
      ∃ q as', vmaMergeExtend ans as p delta = (some q, as') ∧ validateMm as' = true ∧
        (∀ a, v.vmEnd.toNat ≤ a → a < (v.vmEnd + delta).toNat → as'.mt.lookup a = some q) ∧
        meaning as' = (meaning as).assign v.vmEnd.toNat (v.vmEnd + delta).toNat (areaAttr v) ∧
        as'.counters = as.counters ∧ as'.warned = as.warned := by
  have hread : as.heap p = v := h.read (c := (p, v)) (by simp)
  have hok : AreaOk v := h.ok (p, v) (by simp)
  have hself := h.lt (c := (p, v)) (by simp)
  have hsite : MergeSite (A ++ [(p, v)] ++ B) (some p) (extendRequest v delta) := by
    refine MergeSite.unmapped (A ++ [(p, v)]) B rfl ?_ hB (by simp)
    intro c hc
    rcases List.mem_append.mp hc with hc | hc
    · have hle := (List.append_assoc A _ B ▸ h).le hc (List.mem_append_left B List.mem_cons_self)
      exact hle.trans hself.le
    · rw [List.mem_singleton.mp hc]
      exact le_rfl
  unfold vmaMergeExtend vmaMergeNewVma
  rw [hread]
  rcases vmaMerge_contract ans h hr hsite with heq | ⟨q, as', heq, hvalid, hlook, hmean, -, hc, hw⟩
  · exact Or.inl heq
  · rw [requestAttr_extend hok hself.le] at hmean
    exact Or.inr ⟨q, as', heq, hvalid, hlook, hmean, hc, hw⟩

/-! ## `vma_shrink` -/

/-- INTERNAL: an area takes up a part of its old range only. -/
theorem cellsMeaning_shrunk (h : Holds as (A ++ [(p, v)] ++ B)) {start stop : ULong}
    (pgoff : ULong) (hpart : v.vmStart.toNat ≤ start.toNat ∧ stop.toNat ≤ v.vmEnd.toNat) :
    cellsMeaning (A ++ [(p, v.setRange start stop pgoff)] ++ B) =
      ((cellsMeaning (A ++ [(p, v)] ++ B)).remove v.vmStart.toNat v.vmEnd.toNat).assign start.toNat
        stop.toNat (areaAttr (v.setRange start stop pgoff)) := by
  funext a
  unfold AddressMap.assign AddressMap.remove
  simp only [cellsMeaning_append, cellsMeaning_cons, cellsMeaning_nil]
  have hbelow : v.vmStart.toNat ≤ a → cellsMeaning A a = none := fun ha =>
    cellsMeaning_eq_none fun c hc hcon => by
      have := (List.append_assoc A _ B ▸ h).le hc (List.mem_append_left B List.mem_cons_self)
      dsimp only at this
      omega
  have habove : a < v.vmEnd.toNat → cellsMeaning B a = none := fun ha =>
    cellsMeaning_eq_none fun c hc hcon => by
      have := h.le (c := (p, v)) (d := c) (by simp) hc
      dsimp only at this
      omega
  have hstart : (v.setRange start stop pgoff).vmStart = start := rfl
  have hstop : (v.setRange start stop pgoff).vmEnd = stop := rfl
  rw [hstart, hstop]
  by_cases hin : v.vmStart.toNat ≤ a ∧ a < v.vmEnd.toNat
  · rw [if_pos hin, hbelow hin.1, habove hin.2, Option.none_or, Option.or_none]
  · have hout : ¬ (start.toNat ≤ a ∧ a < stop.toNat) := by omega
    rw [if_neg hin, if_neg hin, if_neg hout, if_neg hout]

/-- MAIN: **`vma_shrink`** fails without a change, or the area gives up its lower or its upper end,
which is free then.
SOURCE: mm/mmap.c:696-723 -/
theorem vmaShrink_contract (preallocFails : Bool) (h : Holds as (A ++ [(p, v)] ++ B))
    {start stop : ULong} (pgoff : ULong) (hr : PageRange start stop)
    (hcut : (v.vmStart.toNat < start.toNat ∧ stop = v.vmEnd) ∨
      (start = v.vmStart ∧ stop.toNat < v.vmEnd.toNat)) :
    vmaShrink preallocFails as p start stop pgoff = (some ENOMEM, as) ∨
      ∃ as', vmaShrink preallocFails as p start stop pgoff = (none, as') ∧
        validateMm as' = true ∧
        meaning as' = ((meaning as).remove v.vmStart.toNat v.vmEnd.toNat).assign start.toNat
          stop.toNat (areaAttr (v.setRange start stop pgoff)) ∧
        as'.counters = as.counters ∧ as'.warned = as.warned := by
  have hread : as.heap p = v := h.read (c := (p, v)) (by simp)
  have hok : AreaOk v := h.ok (p, v) (by simp)
  have hself := h.lt (c := (p, v)) (by simp)
  have hlt := hr.lt
  have hwarn : ¬ (v.vmStart ≠ start ∧ v.vmEnd ≠ stop) := by
    rintro ⟨hstart, hend⟩
    rcases hcut with ⟨-, rfl⟩ | ⟨rfl, -⟩
    · exact hend rfl
    · exact hstart rfl
  unfold vmaShrink
  dsimp only
  rw [hread, AddressSpace.warnOn_of_not as hwarn]
  by_cases hprealloc : preallocFails = true
  · exact Or.inl (if_pos hprealloc)
  rw [if_neg hprealloc]
  -- the part that is given up
  obtain ⟨lo, hi, hclear, hgiven, hparts⟩ : ∃ lo hi,
      (if v.vmStart < start then as.mt.clear v.vmStart.toNat start.toNat
        else as.mt.clear stop.toNat v.vmEnd.toNat) = as.mt.clear lo hi ∧ lo < hi ∧
      ((lo = v.vmStart.toNat ∧ hi = start.toNat ∧ stop.toNat = v.vmEnd.toNat) ∨
        (start.toNat = v.vmStart.toNat ∧ stop.toNat = lo ∧ hi = v.vmEnd.toNat)) := by
    rcases hcut with ⟨hstart, rfl⟩ | ⟨rfl, hstop⟩
    · exact ⟨_, _, if_pos (BitVec.lt_def.mpr hstart), hstart, Or.inl ⟨rfl, rfl, rfl⟩⟩
    · exact ⟨_, _, if_neg (BitVec.lt_irrefl _), hstop, Or.inr ⟨rfl, rfl, rfl⟩⟩
  rw [hclear]
  have hrep := h.rep.shrink (w := v.setRange start stop pgoff) hgiven hlt hparts
  have hholds : Holds ({ as with mt := as.mt.clear lo hi }.modify p
      (fun v => v.setRange start stop pgoff)) (A ++ [(p, v.setRange start stop pgoff)] ++ B) := by
    refine h.of_replace ?_ le_rfl ?_ (by simp) ?_
    · unfold AddressSpace.modify
      rw [hread]
      exact hrep
    · intro c hc
      rw [List.mem_singleton.mp hc]
      exact h.fresh (p, v) (by simp)
    · intro c hc
      rw [List.mem_singleton.mp hc]
      exact hok.setRange hr.addrPage hr.stopPage hr.user
  refine Or.inr ⟨_, rfl, hholds.validateMm_eq, ?_, rfl, rfl⟩
  rw [hholds.meaning_eq, h.meaning_eq]
  exact cellsMeaning_shrunk h pgoff (by omega)

end Extend

end UsacKernel.Analysis
