import UsacKernel.Analysis.FreeRangeSearch
import UsacKernel.Analysis.MmapRegion

/-!
# `brk`

`do_brk_flags` expands the area that ends at the old break or makes a new one. It counts the pages
as data without looking at their flags, which is right because the flags of a heap are those of a
private writable mapping (`brkFlags_data`). `brk` itself finds out from the tree that the range
is free (`brk_range_free`).
-/

set_option autoImplicit false

namespace UsacKernel.Analysis

open UsacKernel.Computation UsacKernel.Model UsacKernel.Interface IndexedHeap

/-! ## Flags -/

/-- The bits that decide what kind of mapping a heap is. -/
def heapMask : ULong := VM_WRITE ||| VM_SHARED ||| VM_GROWSDOWN ||| VM_SPECIAL ||| VM_HUGETLB

/-- The default flags, which `mlockall` sets, do not decide what kind of mapping a heap is. -/
def DefFlagsOk (c : Counters) : Prop := c.defFlags &&& heapMask = 0

/-- The flags of a heap. -/
def brkFlags (env : MmEnv) (c : Counters) (flags : ULong) : ULong :=
  flags ||| vmDataDefaultFlags env ||| VM_ACCOUNT ||| c.defFlags

section Flags

variable (env : MmEnv) {c : Counters} {flags : ULong}

/-- INTERNAL: a mask of a union of flags is the union of the masks. -/
theorem or_and (x y m : ULong) : (x ||| y) &&& m = x &&& m ||| y &&& m := by
  apply BitVec.eq_of_getLsbD_eq
  intro i _
  simp only [BitVec.getLsbD_and, BitVec.getLsbD_or, Bool.and_or_distrib_right]

/-- INTERNAL: what the default flags and the caller cannot change in the flags of a heap. -/
theorem brkFlags_and (hdef : DefFlagsOk c) (hflags : flags &&& heapMask = 0) (mask : ULong)
    (hmask : heapMask &&& mask = mask) :
    brkFlags env c flags &&& mask = (vmDataDefaultFlags env ||| VM_ACCOUNT) &&& mask := by
  have hnone : ∀ x : ULong, x &&& heapMask = 0 → x &&& mask = 0 := by
    intro x hx
    rw [← hmask, ← BitVec.and_assoc, hx]
    exact BitVec.zero_and
  have hleft : ∀ x : ULong, 0 ||| x = x := fun x => BitVec.zero_or
  have hright : ∀ x : ULong, x ||| 0 = x := fun x => BitVec.or_zero
  unfold brkFlags
  rw [or_and, or_and, or_and, hnone _ hdef, hnone _ hflags, hright, hleft, or_and]

/-- INTERNAL: the default flags of a heap are one of two words: with and without `VM_EXEC`. -/
theorem vmDataDefaultFlags_cases :
    vmDataDefaultFlags env ||| VM_ACCOUNT = (0x100073 : ULong) ∨
      vmDataDefaultFlags env ||| VM_ACCOUNT = (0x100077 : ULong) := by
  unfold vmDataDefaultFlags
  split_ifs
  · exact Or.inr (by decide)
  · exact Or.inl (by decide)

/-- INTERNAL: the flags of a heap make it a data mapping, when neither the caller nor
`def_flags` sets a flag of the mask. -/
theorem brkFlags_data (hdef : DefFlagsOk c) (hflags : flags &&& heapMask = 0) :
    isDataMapping (brkFlags env c flags) = true := by
  unfold isDataMapping
  rw [brkFlags_and env hdef hflags (VM_WRITE ||| VM_SHARED ||| VM_GROWSDOWN) (by decide)]
  rcases vmDataDefaultFlags_cases env with heq | heq
  · rw [heq]
    decide
  · rw [heq]
    decide

/-- INTERNAL: no flag outside the default ones gets into a heap, when the caller and `def_flags`
do not set it. -/
theorem brkFlags_lockable (hdef : DefFlagsOk c) (hflags : flags &&& heapMask = 0) (mask : ULong)
    (hmask : heapMask &&& mask = mask) (hzero : (0x100077 : ULong) &&& mask = 0) :
    hasFlag (brkFlags env c flags) mask = false := by
  unfold hasFlag
  refine decide_eq_false (not_not_intro ?_)
  rw [brkFlags_and env hdef hflags mask hmask]
  rcases vmDataDefaultFlags_cases env with heq | heq
  · rw [heq]
    have hsub : (0x100073 : ULong) &&& 0x100077 = 0x100073 := by decide
    rw [← hsub, BitVec.and_assoc, hzero]
    exact BitVec.and_zero
  · rw [heq, hzero]

/-- INTERNAL: a heap is accounted memory. -/
theorem brkFlags_accounted : isAccounted (brkFlags env c flags) = true := by
  have hswap : brkFlags env c flags =
      flags ||| vmDataDefaultFlags env ||| c.defFlags ||| VM_ACCOUNT := by
    unfold brkFlags
    rw [BitVec.or_assoc, BitVec.or_comm VM_ACCOUNT, ← BitVec.or_assoc]
  rw [hswap]
  exact isAccounted_or _

end Flags

/-! ## Expanding the heap area -/

/-- What `do_brk_flags` asks for, as a request to merge. -/
def brkMerge (addr len flags : ULong) : MergeRequest where
  addr := addr
  stop := addr + len
  vmFlags := flags
  anonVma := none
  file := none
  pgoff := bytesToPages addr
  policy := none
  uffdCtx := none
  anonName := none

section Grow

variable {as as1 : AddressSpace} {cells cells1 A B : List Cell} {p q : Ptr}
  {lo hi addr len flags : ULong} {attr : PageAttr}

/-- INTERNAL: the test of the heap area is that of `vma_merge`. -/
theorem expandsBrk_joins (h : as.expandsBrk addr flags p = true) :
    joinsPrev as (brkMerge addr len flags) p = true := by
  simp only [AddressSpace.expandsBrk, Bool.and_eq_true, decide_eq_true_eq] at h
  obtain ⟨⟨hend, hpolicy⟩, hmerge⟩ := h
  unfold joinsPrev
  rw [Bool.and_eq_true, Bool.and_eq_true]
  exact ⟨⟨decide_eq_true hend.symm, decide_eq_true (Option.isNone_iff_eq_none.mp hpolicy)⟩, hmerge⟩

/-- INTERNAL: an area that grows up by itself does what a merge would do with it. -/
theorem growUp_eq {stop : ULong} (hlt : (as.heap p).vmEnd < stop) :
    (as.modify p (fun v => v.setRange v.vmStart stop v.vmPgoff)).vmaIterStore p =
      applyPlan (as.modify p (fun v => withAnonOf v (as.heap p)))
        ⟨p, p, (as.heap p).vmStart, stop, (as.heap p).vmPgoff, none, 0, none, none⟩ := by
  have hself : as.modify p (fun v => withAnonOf v (as.heap p)) = as :=
    as.modify_self p _ (withAnonOf_self _)
  rw [hself]
  unfold applyPlan
  simp only [Option.any_none, hlt, or_true, decide_true, if_true, adjustNeighbour, vmaComplete]
  rw [AddressSpace.warnOn_of_not as (by simp)]
  rfl

/-- INTERNAL: storing an area does not look at its flags. -/
theorem vmaIterStore_modify (f : VmAreaStruct → VmAreaStruct)
    (hsame : SamePlace (as.heap p) (f (as.heap p))) :
    (as.modify p f).vmaIterStore p = (as.vmaIterStore p).modify p f := by
  unfold AddressSpace.vmaIterStore
  rw [AddressSpace.modify_heap_self, hsame.vmStart, hsame.vmEnd]
  rfl

/-- INTERNAL: soft-dirty tracking does not change what is placed. -/
theorem Placed.softDirty (h : Placed as as1 cells cells1 lo hi attr q) :
    ∃ cells', Placed as (as1.modify q (VmAreaStruct.setFlags VM_SOFTDIRTY)) cells cells' lo hi attr
      q := by
  obtain ⟨v, hv, hattr, hwhole⟩ := h.covers
  obtain ⟨cells', hholds, hmem, hmeaning, hanon⟩ := h.holds.write hv (finished_samePlace false v)
  have hsame : areaAttr (finished false v) = areaAttr v := areaAttr_finished false v
  refine ⟨cells', hholds, ⟨finished false v, hmem, hsame.trans hattr, ?_⟩, ?_,
    fun a x hx => hanon a x (h.anon a x hx), h.counters, h.warned⟩
  · exact hwhole
  · rw [hmeaning, hsame, h.holds.assign_self hv, h.meaning]

/-- INTERNAL: `vm_stat_account` of private writable pages.
SOURCE: mm/mmap.c:3503-3513 -/
theorem vmStatAccount_data (hdata : isDataMapping flags = true) (c : Counters) (n : ULong) :
    c.vmStatAccount flags n = { c with totalVm := c.totalVm + n, dataVm := c.dataVm + n } := by
  obtain ⟨hexec, hstack⟩ := classes_exclusive flags
  have hnotexec : isExecMapping flags = false := by
    rw [Bool.eq_false_iff]
    intro hcon
    rw [(hexec hcon).2] at hdata
    cases hdata
  have hnotstack : isStackMapping flags = false := by
    rw [Bool.eq_false_iff]
    intro hcon
    rw [hstack hcon] at hdata
    cases hdata
  unfold Counters.vmStatAccount
  simp only [hnotexec, hnotstack, hdata, Bool.false_eq_true, if_false, if_true]

/-- INTERNAL: the label `out:` of `do_brk_flags` counts the pages.
SOURCE: mm/mmap.c:3214-3221 -/
theorem finishBrk_spec (h : Placed as as1 cells cells1 lo hi attr q) (n : ULong)
    (hflags : flags &&& ~~~ VM_SOFTDIRTY = attr.flags) (hdata : isDataMapping flags = true)
    (hlockable : attr.unlockable = false) :
    ∃ cells', MappedInto as (as1.finishBrk q flags n) cells cells' lo hi attr n := by
  obtain ⟨cells', hplaced⟩ := h.softDirty
  have hlocked : hasFlag flags VM_LOCKED = hasFlag attr.flags VM_LOCKED := by
    rw [← hflags, hasFlag_clear flags VM_SOFTDIRTY VM_LOCKED (by decide)]
  have hstat : ∀ c : Counters, c.vmStatAccount attr.flags n =
      { c with totalVm := c.totalVm + n, dataVm := c.dataVm + n } := by
    intro c
    rw [← hflags, vmStatAccount_clear c flags n VM_SOFTDIRTY fun k _ => k.mask_softDirty,
      vmStatAccount_data hdata]
  have hfinish : as1.finishBrk q flags n =
      (as1.modify q (VmAreaStruct.setFlags VM_SOFTDIRTY)).modifyCounters (fun c =>
        let c := { c with totalVm := c.totalVm + n, dataVm := c.dataVm + n }
        if hasFlag flags VM_LOCKED then c.addLockedVm n else c) := rfl
  rw [hfinish]
  refine ⟨cells', hplaced.holds.modifyCounters _, hplaced.meaning, hplaced.anon, ?_,
    hplaced.warned, fun hun => ?_⟩
  · show (if hasFlag flags VM_LOCKED then _ else _) = _
    unfold countMapped
    rw [hstat, hlocked, AddressSpace.modify_counters, h.counters]
  · rw [hlockable] at hun
    cases hun

end Grow

/-! ## `do_brk_flags` -/

section DoBrk

variable {as : AddressSpace} {A B : List Cell} {leak : ℤ} {addr len flags : ULong}
  {vma : Option Ptr}

/-- What `do_brk_flags` maps. -/
def brkAttr (env : MmEnv) (c : Counters) (addr flags : ULong) : PageAttr :=
  requestAttr (brkMerge addr 0 (brkFlags env c flags))

/-- INTERNAL: the free range is placed by the heap area that grows, or by a new area. -/
theorem placed_brk (fl : ULong) (h : Holds as (A ++ B)) (hr : PageRange addr (addr + len))
    (hA : ∀ c ∈ A, c.2.vmEnd.toNat ≤ addr.toNat)
    (hB : ∀ c ∈ B, (addr + len).toNat ≤ c.2.vmStart.toNat)
    (hvma : ∀ p ∈ vma, A.getLast?.map Prod.fst = some p) :
    (∀ p, vma.filter (as.expandsBrk addr fl) = some p → ∃ cells', Placed as
        (((as.modify p (fun v => v.setRange v.vmStart (addr + len) v.vmPgoff)).modify p
          (VmAreaStruct.setFlags VM_SOFTDIRTY)).vmaIterStore p)
        (A ++ B) cells' addr (addr + len) (requestAttr (brkMerge addr 0 fl)) p) ∧
      ∃ cells', Placed as (((as.vmAreaAlloc
        (newArea addr (addr + len) fl (bytesToPages addr)).setAnonymous).vmaIterStore
          as.fresh).addMapCount 1) (A ++ B) cells' addr (addr + len)
        (requestAttr (brkMerge addr 0 fl)) as.fresh := by
  constructor
  · intro p hp
    obtain ⟨hsome, hexpands⟩ := Option.filter_eq_some_iff.mp hp
    have hjoins : (A.getLast?.map Prod.fst).filter (joinsPrev as (brkMerge addr len fl)) =
        some p :=
      Option.filter_eq_some_iff.mpr ⟨hvma p hsome, expandsBrk_joins hexpands⟩
    obtain ⟨A', v, rfl, hend, hattr, -⟩ := joined_prev h rfl hjoins
    have hread : as.heap p = v := h.read (c := (p, v)) (by simp)
    have hlt : (as.heap p).vmEnd < addr + len := by
      rw [hread, hend]
      exact BitVec.lt_def.mpr hr.lt
    have hmerged := mergedInto_up (brkMerge addr len fl) h hr hend hattr hB
    have hplaced := hmerged.placed hr.lt
    have hgrow := growUp_eq hlt
    rw [hread] at hgrow hplaced
    have hstate : ((as.modify p (fun v => v.setRange v.vmStart (addr + len) v.vmPgoff)).modify p
          (VmAreaStruct.setFlags VM_SOFTDIRTY)).vmaIterStore p =
        ((as.modify p (fun v => v.setRange v.vmStart (addr + len) v.vmPgoff)).vmaIterStore
          p).modify p (VmAreaStruct.setFlags VM_SOFTDIRTY) :=
      vmaIterStore_modify _ (finished_samePlace false _)
    rw [hstate, hgrow]
    exact Placed.softDirty hplaced
  · have hok : AreaOk (newArea addr (addr + len) fl (bytesToPages addr)).setAnonymous :=
      ⟨hr.addrPage, hr.stopPage, hr.user, fun _ => rfl, rfl⟩
    exact ⟨_, placed_link h hok hr.lt hA hB⟩

/-- INTERNAL: `do_brk_flags` over a free range fails without a change, or maps the range.
SOURCE: mm/mmap.c:3149-3228 -/
theorem doBrkFlags_outcome (env : MmEnv) (ans : BrkAnswers) (hdef : DefFlagsOk as.counters)
    (hflags : flags &&& heapMask = 0) (h : Holds as (A ++ B)) (hacc : Accounted as (A ++ B) leak)
    (hlock : LockOk (cellsMeaning (A ++ B))) (hr : PageRange addr (addr + len))
    (hA : ∀ c ∈ A, c.2.vmEnd.toNat ≤ addr.toNat)
    (hB : ∀ c ∈ B, (addr + len).toNat ≤ c.2.vmStart.toNat)
    (hvma : ∀ p ∈ vma, A.getLast?.map Prod.fst = some p) :
    (as.doBrkFlags env ans vma addr len flags = (some ENOMEM, as)) ∨
      ∃ as', as.doBrkFlags env ans vma addr len flags = (none, as') ∧
        Becomes as as' leak ((cellsMeaning (A ++ B)).assign addr.toNat (addr + len).toNat
          (brkAttr env as.counters addr flags)) := by
  -- the charge is a leak until the range is mapped
  have hcharged := hacc.addCommitted (bytesToPages len).toNat
  have hholds := h.modifyCounters (fun c => c.addCommitted (bytesToPages len).toNat)
  have hdata := brkFlags_data env hdef hflags
  have hlockable : (brkAttr env as.counters addr flags).unlockable = false := by
    have hspecial := brkFlags_lockable env hdef hflags VM_SPECIAL (by decide) (by decide)
    have hhuge := brkFlags_lockable env hdef hflags VM_HUGETLB (by decide) (by decide)
    unfold PageAttr.unlockable brkAttr requestAttr brkMerge
    dsimp only
    rw [hasFlag_clear _ VM_SOFTDIRTY VM_SPECIAL (by decide),
      hasFlag_clear _ VM_SOFTDIRTY VM_HUGETLB (by decide), hspecial, hhuge]
    rfl
  have hpages : bytesToPages len = bytesToPages (addr + len - addr) := by
    refine congrArg bytesToPages ?_
    ring
  have hleak : leak = leak + (bytesToPages len).toNat -
      if isAccounted (brkAttr env as.counters addr flags).flags then (bytesToPages len).toNat
      else 0 := by
    have haccounted : isAccounted (brkAttr env as.counters addr flags).flags = true :=
      (isAccounted_ignoresSoftDirty _).trans (brkFlags_accounted env)
    rw [haccounted, if_pos rfl]
    exact (add_sub_cancel_right _ _).symm
  have hbecomes : ∀ as1 q cells1,
      Placed (as.modifyCounters (fun c => c.addCommitted (bytesToPages len).toNat)) as1 (A ++ B)
        cells1 addr (addr + len) (brkAttr env as.counters addr flags) q →
      Becomes as (as1.finishBrk q (brkFlags env as.counters flags) (bytesToPages len)) leak
        ((cellsMeaning (A ++ B)).assign addr.toNat (addr + len).toNat
          (brkAttr env as.counters addr flags)) := by
    intro as1 q cells1 hplaced
    obtain ⟨cells', hmapped⟩ := finishBrk_spec hplaced (bytesToPages len) rfl hdata hlockable
    have hb := hmapped.becomes hholds hcharged hlock hr (free_between hA hB) hpages hleak
    exact ⟨hb.consistent, hb.meaning_eq, hb.warned_eq, hb.layout_eq⟩
  obtain ⟨hexpand, cellsNew, hnew⟩ := placed_brk (brkFlags env as.counters flags) hholds hr hA hB
    hvma
  have hfl : flags ||| vmDataDefaultFlags env ||| VM_ACCOUNT ||| as.counters.defFlags =
    brkFlags env as.counters flags := rfl
  unfold AddressSpace.doBrkFlags
  dsimp only
  rw [uncharge, hfl]
  by_cases hlimit : mayExpandVm env as.toMm (brkFlags env as.counters flags) (bytesToPages len) =
      true
  · rw [if_neg (not_not_intro hlimit)]
    by_cases hcount : as.mapCount > env.sysctlMaxMapCount
    · exact Or.inl (if_pos hcount)
    · rw [if_neg hcount]
      by_cases hdenied : env.securityVmEnoughMemory (bytesToPages len) = true
      · exact Or.inl (if_pos hdenied)
      · rw [if_neg hdenied]
        cases hfilter : vma.filter (as.expandsBrk addr (brkFlags env as.counters flags)) with
        | some p =>
          dsimp only
          by_cases hprealloc : ans.preallocFails = true
          · exact Or.inl (if_pos hprealloc)
          · rw [if_neg hprealloc]
            obtain ⟨cells1, hplaced⟩ := hexpand p hfilter
            exact Or.inr ⟨_, rfl, hbecomes _ p cells1 hplaced⟩
        | none =>
          dsimp only
          by_cases hmemory : ans.noMemory = true
          · exact Or.inl (if_pos hmemory)
          · rw [if_neg hmemory]
            exact Or.inr ⟨_, rfl, hbecomes _ _ cellsNew hnew⟩
  · exact Or.inl (if_pos hlimit)

variable (as) in
/-- INTERNAL: a heap grows only within the limits.
SOURCE: mm/mmap.c:3159-3167 -/
theorem doBrkFlags_tests (env : MmEnv) (ans : BrkAnswers) (vma : Option Ptr)
    (addr len flags : ULong) (h : (as.doBrkFlags env ans vma addr len flags).1 = none) :
    mayExpandVm env as.toMm (brkFlags env as.counters flags) (bytesToPages len) = true ∧
      env.securityVmEnoughMemory (bytesToPages len) = false := by
  by_contra hcon
  have hfails : as.doBrkFlags env ans vma addr len flags = (some ENOMEM, as) := by
    have hfl : flags ||| vmDataDefaultFlags env ||| VM_ACCOUNT ||| as.counters.defFlags =
      brkFlags env as.counters flags := rfl
    unfold AddressSpace.doBrkFlags
    dsimp only
    rw [hfl]
    by_cases hlimit : mayExpandVm env as.toMm (brkFlags env as.counters flags)
        (bytesToPages len) = true
    · have hdenied : env.securityVmEnoughMemory (bytesToPages len) = true := by
        rw [← Bool.not_eq_false]
        exact fun hfree => hcon ⟨hlimit, hfree⟩
      rw [if_neg (not_not_intro hlimit), if_pos hdenied]
      split_ifs <;> rfl
    · exact if_pos hlimit
  rw [hfails] at h
  cases h

end DoBrk

/-! ## The system call -/

section Brk

variable {as as' : AddressSpace} {cells : List Cell} {leak : ℤ} {newbrk oldbrk : ULong}

/-- INTERNAL: the invariant does not speak about the break. -/
theorem Consistent.setBrk (h : Consistent as leak) (brk : ULong) :
    Consistent (as.setBrk brk) leak := by
  obtain ⟨cells, hholds, hacc⟩ := h.areas
  refine ⟨⟨cells, hholds.modifyCounters _, ?_, hacc.committed⟩, h.lockOk⟩
  intro k
  rw [← hacc.counters k]
  cases k <;> rfl

/-- INTERNAL: moving the break moves nothing else of the layout. -/
theorem layout_setBrk (h : layout as'.counters = layout as.counters) (brk : ULong) :
    layout (as'.setBrk brk).counters = layout (as.setBrk brk).counters :=
  congrArg (fun l => (brk, l.2)) h

/-- What is mapped after the break has moved. -/
def brkMeaning (env : MmEnv) (as : AddressSpace) (newbrk oldbrk : ULong) : AddressMap :=
  if newbrk.toNat ≤ oldbrk.toNat then (meaning as).remove newbrk.toNat oldbrk.toNat
  else (meaning as).assign oldbrk.toNat newbrk.toNat (brkAttr env as.counters oldbrk 0)

/-- INTERNAL: the range in which `brk` looks for the next area does not overflow.
SOURCE: mm/mmap.c:262-263 -/
theorem guardWindow_toNat (env : MmEnv) (hgap : env.stackGuardGap.toNat ≤ 2 ^ 56)
    (huser : newbrk.toNat ≤ 2 ^ 56) :
    (newbrk + BitVec.ofNat 64 pageSize).toNat = newbrk.toNat + 4096 ∧
      (newbrk + BitVec.ofNat 64 pageSize + env.stackGuardGap).toNat =
        newbrk.toNat + 4096 + env.stackGuardGap.toNat := by
  have hpage : (newbrk + BitVec.ofNat 64 pageSize).toNat = newbrk.toNat + 4096 := by
    rw [BitVec.toNat_add]
    show (newbrk.toNat + 4096) % 2 ^ 64 = _
    omega
  refine ⟨hpage, ?_⟩
  rw [BitVec.toNat_add, hpage]
  omega

/-- INTERNAL: the search for the next area has shown that the range is free.
SOURCE: mm/mmap.c:262-265 -/
theorem brk_range_free (env : MmEnv) (hgap : env.stackGuardGap.toNat ≤ 2 ^ 56)
    (h : Holds as cells) (hr : PageRange oldbrk newbrk)
    (hnext : (as.findVmaIntersection oldbrk
      (newbrk + BitVec.ofNat 64 pageSize + env.stackGuardGap)).any (fun next =>
        decide (newbrk + BitVec.ofNat 64 pageSize > vmStartGap env (as.heap next).area)) = false) :
    ∃ A B, cells = A ++ B ∧ (∀ c ∈ A, c.2.vmEnd.toNat ≤ oldbrk.toNat) ∧
      ∀ c ∈ B, newbrk.toNat ≤ c.2.vmStart.toNat := by
  have hlt := hr.lt
  obtain ⟨hpage, hwindow⟩ := guardWindow_toNat env hgap hr.user
  obtain ⟨A, M, B, rfl, hA, hM, hB⟩ := h.rep.divide oldbrk.toNat
    (newbrk + BitVec.ofNat 64 pageSize + env.stackGuardGap).toNat
  rw [findVmaIntersection_middle h (by omega) hA hM hB] at hnext
  refine ⟨A, M ++ B, by rw [List.append_assoc], hA, ?_⟩
  intro c hc
  rcases List.mem_append.mp hc with hc | hc
  · cases M with
    | nil => cases hc
    | cons d M =>
      -- the first area behind the old break keeps its distance, and the others lie above it
      have hd : as.heap d.1 = d.2 := h.read (by simp)
      rw [List.head?_cons, Option.map_some, Option.any_some, hd] at hnext
      have hle := BitVec.le_def.mp (BitVec.not_lt.mp (of_decide_eq_false hnext))
      have hstart := vmStartGap_le env d.2.area
      have hfirst : newbrk.toNat ≤ d.2.vmStart.toNat := by
        have harea : d.2.area.vmStart = d.2.vmStart := rfl
        rw [harea] at hstart
        omega
      rcases List.mem_cons.mp hc with rfl | hc
      · exact hfirst
      · have hsplit : A ++ d :: M ++ B = (A ++ [d]) ++ (M ++ B) := by simp
        rw [hsplit] at h
        have habove := h.le (c := d) (d := c) (by simp) (by simp [hc])
        have hself := h.lt (c := d) (by simp)
        omega
  · have habove := hB c hc
    have habove' : (newbrk + BitVec.ofNat 64 pageSize + env.stackGuardGap).toNat ≤
        c.2.vmStart.toNat := habove
    omega

/-- INTERNAL: a range that `check_brk_limits` accepts lies in user space.
SOURCE: mm/mmap.c:168-178 -/
theorem checkBrkLimits_range (env : MmEnv) (hfixed : FixedStays env)
    (hlimits : checkBrkLimits env as.toMm oldbrk (newbrk - oldbrk) = true) :
    oldbrk.toNat ≤ newbrk.toNat ∧ newbrk.toNat ≤ 2 ^ 56 := by
  have harea : isErrValue (getUnmappedArea env none oldbrk (newbrk - oldbrk) 0 MAP_FIXED) =
      false := by
    rw [Bool.eq_false_iff]
    intro herr
    rw [checkBrkLimits, if_pos herr] at hlimits
    cases hlimits
  obtain ⟨heq, -, hfits, -⟩ :=
    getUnmappedArea_ok env none oldbrk (newbrk - oldbrk) 0 MAP_FIXED harea
  have hkept : env.getArea none oldbrk (newbrk - oldbrk)
      (if (none : Option File).isNone then 0 else 0) MAP_FIXED = oldbrk := by
    rw [heq] at harea
    exact hfixed oldbrk (newbrk - oldbrk) harea
  rw [heq, hkept, BitVec.toNat_sub] at hfits
  have htask := env.taskSize_le
  have hold := oldbrk.isLt
  have hnew := newbrk.isLt
  omega

/-- INTERNAL: once the tests of a growing `brk` are passed, the range behind the old break is free,
and the area that may be expanded is the one below it.
SOURCE: mm/mmap.c:255-267 -/
theorem brk_site (env : MmEnv) (hfixed : FixedStays env) (hgap : env.stackGuardGap.toNat ≤ 2 ^ 56)
    (hholds : Holds as cells) {brk origbrk : ULong}
    (hne : (pageAlign origbrk).toNat ≠ (pageAlign brk).toNat)
    (hlimits : checkBrkLimits env as.toMm (pageAlign origbrk)
      (pageAlign brk - pageAlign origbrk) = true)
    (hnext : ¬ (as.findVmaIntersection (pageAlign origbrk)
      (pageAlign brk + BitVec.ofNat 64 pageSize + env.stackGuardGap)).any (fun next =>
        decide (pageAlign brk + BitVec.ofNat 64 pageSize >
          vmStartGap env (as.heap next).area)) = true) :
    PageRange (pageAlign origbrk) (pageAlign brk) ∧ ∃ A B, cells = A ++ B ∧
      (∀ c ∈ A, c.2.vmEnd.toNat ≤ (pageAlign origbrk).toNat) ∧
      (∀ c ∈ B, (pageAlign brk).toNat ≤ c.2.vmStart.toNat) ∧
      ∀ p ∈ (as.vmaPrev (pageAlign origbrk)).filter (fun p =>
        decide (as.counters.startBrk < (as.heap p).vmEnd)), A.getLast?.map Prod.fst = some p := by
  obtain ⟨hgrows, huser⟩ := checkBrkLimits_range env hfixed hlimits
  have hr : PageRange (pageAlign origbrk) (pageAlign brk) :=
    ⟨by omega, pageAlign_mod origbrk, pageAlign_mod brk, huser⟩
  obtain ⟨A, B, rfl, hA, hB⟩ := brk_range_free env hgap hholds hr (Bool.eq_false_iff.mpr hnext)
  have hprev := vmaPrev_eq hholds hA (fun c hc => hr.lt.le.trans (hB c hc))
  exact ⟨hr, A, B, rfl, hA, hB, fun p hp => hprev ▸ (Option.filter_eq_some_iff.mp hp).1⟩

/-- INTERNAL: `brk`, after its tests, refuses and changes nothing that is mapped, or moves the
break, and what is mapped follows it.
SOURCE: mm/mmap.c:231-287 -/
theorem brkApply_becomes (env : MmEnv) (ans : BrkAnswers) (hfixed : FixedStays env)
    (hgap : env.stackGuardGap.toNat ≤ 2 ^ 56) (h : Consistent as leak)
    (hdef : DefFlagsOk as.counters) (hold : 0 < as.counters.brk.toNat)
    (huser : as.counters.brk.toNat ≤ 2 ^ 56) (brk : ULong) :
    (∃ as', as.brkApply env ans brk (pageAlign brk) (pageAlign as.counters.brk) =
        (as.counters.brk, as') ∧ Becomes as as' leak (meaning as)) ∨
      ∃ as', as.brkApply env ans brk (pageAlign brk) (pageAlign as.counters.brk) = (brk, as') ∧
        brk.toNat ≤ 2 ^ 56 ∧
        Becomes (as.setBrk brk) as' leak
          (brkMeaning env as (pageAlign brk) (pageAlign as.counters.brk)) := by
  obtain ⟨cells, hholds, hacc⟩ := h.areas
  have holdPage := pageAlign_mod as.counters.brk
  have hnewPage := pageAlign_mod brk
  have holdAlign := pageAlign_toNat as.counters.brk
  have hnewAlign := pageAlign_toNat brk
  have hbrk := brk.isLt
  unfold AddressSpace.brkApply
  dsimp only
  by_cases hsame : pageAlign as.counters.brk = pageAlign brk
  · rw [if_pos hsame]
    have hsame' := congrArg BitVec.toNat hsame
    refine Or.inr ⟨_, rfl, by omega, (h.setBrk brk).becomes.consistent, ?_, rfl, rfl⟩
    unfold brkMeaning
    rw [if_pos hsame'.ge, hsame]
    funext a
    unfold AddressMap.remove
    rw [if_neg (by omega)]
    rfl
  · rw [if_neg hsame]
    have hne : (pageAlign as.counters.brk).toNat ≠ (pageAlign brk).toNat := fun heq =>
      hsame (BitVec.eq_of_toNat_eq heq)
    by_cases hshrinks : brk ≤ as.counters.brk
    · rw [if_pos hshrinks]
      have hle := BitVec.le_def.mp hshrinks
      have hr : PageRange (pageAlign brk) (pageAlign as.counters.brk) :=
        ⟨by omega, hnewPage, holdPage, by omega⟩
      cases hfind : as.findVmaIntersection (pageAlign brk) (pageAlign as.counters.brk) with
      | none => exact Or.inl ⟨as, rfl, h.becomes⟩
      | some brkvma =>
        dsimp only
        by_cases hbehind : (as.heap brkvma).vmStart ≥ pageAlign as.counters.brk
        · rw [if_pos hbehind]
          exact Or.inl ⟨as, rfl, h.becomes⟩
        · rw [if_neg hbehind]
          obtain ⟨cells', hholds', hacc'⟩ := (h.setBrk brk).areas
          rcases doVmiAlignMunmap_found env ans.munmap hholds' hr hfind with
            ⟨e, as', cells1, heq, hsm⟩ | ⟨as', A, M, B, heq, hun⟩
          · rw [heq]
            have hb := hsm.becomes hholds' hacc' (h.setBrk brk).lockOk
            refine Or.inl ⟨_, rfl, hb.consistent.setBrk _, hb.meaning_eq, hb.warned_eq, ?_⟩
            exact layout_setBrk hb.layout_eq as.counters.brk
          · rw [heq]
            have hb := hun.becomes hholds' hacc' (h.setBrk brk).lockOk
            refine Or.inr ⟨as', rfl, by omega, hb.consistent, ?_, hb.warned_eq, hb.layout_eq⟩
            unfold brkMeaning
            rw [if_pos hr.lt.le]
            exact hb.meaning_eq
    · rw [if_neg hshrinks]
      by_cases hlimits : checkBrkLimits env as.toMm (pageAlign as.counters.brk)
          (pageAlign brk - pageAlign as.counters.brk) = true
      · rw [if_neg (not_not_intro hlimits)]
        split_ifs with hnext
        · exact Or.inl ⟨as, rfl, h.becomes⟩
        · obtain ⟨hr, A, B, rfl, hA, hB, hbrkvma⟩ :=
            brk_site env hfixed hgap hholds hne hlimits hnext
          have hstop : pageAlign as.counters.brk + (pageAlign brk - pageAlign as.counters.brk) =
              pageAlign brk := by ring
          have hgrows := hr.lt
          have huser' := hr.user
          have hlock : LockOk (cellsMeaning (A ++ B)) := hholds.meaning_eq ▸ h.lockOk
          have hzero : (0 : ULong) &&& heapMask = 0 := by decide
          have hr' : PageRange (pageAlign as.counters.brk) (pageAlign as.counters.brk +
              (pageAlign brk - pageAlign as.counters.brk)) := hstop.symm ▸ hr
          have hB' : ∀ c ∈ B, (pageAlign as.counters.brk +
              (pageAlign brk - pageAlign as.counters.brk)).toNat ≤ c.2.vmStart.toNat :=
            hstop.symm ▸ hB
          rcases doBrkFlags_outcome env ans hdef hzero hholds hacc hlock hr' hA hB' hbrkvma with
            heq | ⟨as', heq, hb⟩
          · rw [heq]
            exact Or.inl ⟨as, rfl, h.becomes⟩
          · rw [heq]
            refine Or.inr ⟨_, rfl, by omega, hb.consistent.setBrk brk, ?_, hb.warned_eq,
              layout_setBrk hb.layout_eq brk⟩
            unfold brkMeaning
            rw [if_neg (by omega), hholds.meaning_eq]
            refine Eq.trans hb.meaning_eq ?_
            rw [hstop]
      · rw [if_pos hlimits]
        exact Or.inl ⟨as, rfl, h.becomes⟩

/-- INTERNAL: `brk` refuses at one of its tests, or it moves the break to a value that is not below
the lowest one allowed.
SOURCE: mm/mmap.c:191-228 -/
theorem brk_tests (env : MmEnv) (ans : BrkAnswers) (find : PidT → Option TaskStruct)
    (current : TaskStruct) (l : MemoryList) (as : AddressSpace) (brk : ULong) :
    (∃ r, as.brk env ans find current l brk = (r, as) ∧ (r = EINTR.ptr ∨ r = as.counters.brk)) ∨
      (as.brk env ans find current l brk =
          as.brkApply env ans brk (pageAlign brk) (pageAlign as.counters.brk) ∧
        isRequestAccepted find current.pid (pageAlign brk - pageAlign as.counters.brk) l = true ∧
        (minBrk env as.toMm).toNat ≤ brk.toNat) := by
  unfold AddressSpace.brk
  by_cases hkilled : env.lockKilled = true
  · rw [if_pos hkilled]
    exact Or.inl ⟨EINTR.ptr, rfl, Or.inl rfl⟩
  rw [if_neg hkilled]
  by_cases hrefused : brkRefused env as.toMm brk = true
  · rw [if_pos hrefused]
    exact Or.inl ⟨as.counters.brk, rfl, Or.inr rfl⟩
  rw [if_neg hrefused]
  dsimp only
  by_cases haccepted : isRequestAccepted find current.pid
      (pageAlign brk - pageAlign as.counters.brk) l = true
  · rw [if_neg (not_not_intro haccepted)]
    refine Or.inr ⟨rfl, haccepted, ?_⟩
    unfold brkRefused at hrefused
    rw [Bool.or_eq_true, not_or, decide_eq_true_eq] at hrefused
    exact BitVec.le_def.mp (BitVec.not_lt.mp hrefused.1)
  · rw [if_pos haccepted]
    exact Or.inl ⟨as.counters.brk, rfl, Or.inr rfl⟩

/-- INTERNAL: what `brk` does, from its tests and what follows them.
SOURCE: mm/mmap.c:181-288 -/
theorem brk_becomes (env : MmEnv) (ans : BrkAnswers) (find : PidT → Option TaskStruct)
    (current : TaskStruct) (l : MemoryList) (hfixed : FixedStays env)
    (hgap : env.stackGuardGap.toNat ≤ 2 ^ 56) (h : Consistent as leak)
    (hdef : DefFlagsOk as.counters) (hold : 0 < as.counters.brk.toNat)
    (huser : as.counters.brk.toNat ≤ 2 ^ 56) (brk : ULong) :
    (∃ r as', as.brk env ans find current l brk = (r, as') ∧
        (r = EINTR.ptr ∨ r = as.counters.brk) ∧ Becomes as as' leak (meaning as)) ∨
      ∃ as', as.brk env ans find current l brk = (brk, as') ∧
        isRequestAccepted find current.pid (pageAlign brk - pageAlign as.counters.brk) l = true ∧
        (minBrk env as.toMm).toNat ≤ brk.toNat ∧ brk.toNat ≤ 2 ^ 56 ∧
        Becomes (as.setBrk brk) as' leak
          (brkMeaning env as (pageAlign brk) (pageAlign as.counters.brk)) := by
  rcases brk_tests env ans find current l as brk with ⟨r, heq, hr⟩ | ⟨heq, haccepted, hmin⟩
  · exact Or.inl ⟨r, as, heq, hr, h.becomes⟩
  · rw [heq]
    rcases brkApply_becomes env ans hfixed hgap h hdef hold huser brk with
      ⟨as', happly, hb⟩ | ⟨as', happly, hle, hb⟩
    · exact Or.inl ⟨as.counters.brk, as', happly, Or.inr rfl, hb⟩
    · exact Or.inr ⟨as', happly, haccepted, hmin, hle, hb⟩

/-- MAIN: **`brk`** refuses and changes nothing that is mapped, or moves the break, which the limit
of the caller allows: the pages between the old and the new break are removed from the end of the
heap, or mapped at it as private writable memory, and nothing else changes. The counters stay exact
and the pages charged are those of the areas.
SOURCE: mm/mmap.c:181-288 -/
theorem brk_contract (env : MmEnv) (ans : BrkAnswers) (find : PidT → Option TaskStruct)
    (current : TaskStruct) (l : MemoryList) (hfixed : FixedStays env)
    (hgap : env.stackGuardGap.toNat ≤ 2 ^ 56) (h : Consistent as leak)
    (hdef : DefFlagsOk as.counters) (hold : 0 < as.counters.brk.toNat)
    (huser : as.counters.brk.toNat ≤ 2 ^ 56) (brk : ULong) :
    (∃ r as', as.brk env ans find current l brk = (r, as') ∧
        (r = EINTR.ptr ∨ r = as.counters.brk) ∧ Becomes as as' leak (meaning as)) ∨
      ∃ as', as.brk env ans find current l brk = (brk, as') ∧
        isRequestAccepted find current.pid (pageAlign brk - pageAlign as.counters.brk) l = true ∧
        Becomes (as.setBrk brk) as' leak
          (brkMeaning env as (pageAlign brk) (pageAlign as.counters.brk)) := by
  rcases brk_becomes env ans find current l hfixed hgap h hdef hold huser brk with
    hkept | ⟨as', heq, haccepted, -, -, hb⟩
  · exact Or.inl hkept
  · exact Or.inr ⟨as', heq, haccepted, hb⟩

/-- Nothing fails while the break moves. -/
def quietBrk : BrkAnswers where
  munmap := quietMunmap
  preallocFails := false
  noMemory := false

/-- A process that owns the two areas. -/
def heapOwner : TaskStruct := processOf 5 twoAreas.toMm

/-- The break of a process without a limit moves down by a page, and the page is unmapped. -/
theorem brk_contract_shrink :
    ∃ as', twoAreas.brk quietEnv quietBrk (fun _ => some heapOwner) heapOwner [] 0x2000 =
        (0x2000, as') ∧
      Becomes (twoAreas.setBrk 0x2000) as' 0 (brkMeaning quietEnv twoAreas 0x2000 0x3000) := by
  have hresult : (twoAreas.brk quietEnv quietBrk (fun _ => some heapOwner) heapOwner [] 0x2000).1 =
      0x2000 := by decide
  rcases brk_contract quietEnv quietBrk (fun _ => some heapOwner) heapOwner []
      (fun _ _ _ => rfl) (by decide) twoAreas_consistent (by unfold DefFlagsOk; decide) (by decide)
      (by decide) 0x2000 with
    ⟨r, as', heq, hr, -⟩ | ⟨as', heq, -, hbecomes⟩
  · rw [heq] at hresult
    obtain rfl : r = 0x2000 := hresult
    exact absurd hr (by decide)
  · exact ⟨as', heq, hbecomes⟩

end Brk

end UsacKernel.Analysis
