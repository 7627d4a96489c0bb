import UsacKernel.Computation.IndexedHeap
import UsacKernel.Model.Mapping

/-!
# Areas in the maple tree

The areas of an address space as `mm/mmap.c` keeps them: `struct vm_area_struct` objects in the
heap, and the maple tree `mm_mt` that leads from an address to the object. The functions here
change the objects and the tree separately, as the source does: `vma_merge`, `vma_expand`,
`vma_shrink`, `__split_vma` and what is built on them.

A failed allocation is an answer given to the function (`MergeAnswers`, `SplitAnswers`).
`warned` records whether one of the source's `WARN_ON`, `VM_WARN_ON` and `VM_BUG_ON`
conditions was met.

Left out: page tables, the reverse-mapping trees of files and of `anon_vma`, reference counts,
locks, notifications. The chain of an area's `anon_vma`s is kept, because merging looks at it.
-/

set_option autoImplicit false

namespace UsacKernel.Model

open UsacKernel.Computation IndexedHeap

/-! ## Flag bits -/

def VM_PFNMAP : ULong := 0x400
def VM_IO : ULong := 0x4000
def VM_DONTEXPAND : ULong := 0x40000
def VM_HUGETLB : ULong := 0x400000
def VM_SOFTDIRTY : ULong := 0x8000000
def VM_MIXEDMAP : ULong := 0x10000000

/-- `VM_SPECIAL`: areas that are never merged or expanded. -/
def VM_SPECIAL : ULong := VM_IO ||| VM_DONTEXPAND ||| VM_PFNMAP ||| VM_MIXEDMAP

/-! ## Areas -/

/-- An object of the rest of the kernel that is only compared. -/
abbrev Handle := ℕ

/-- The address of a `struct vm_area_struct`. -/
abbrev Ptr := ℕ

/-- What an area needs of its `struct file`. -/
structure OpenFile where
  id : Handle
  /-- `IS_DAX` of its inode. -/
  isDax : Bool
  /-- `is_file_hugepages`. -/
  isHugepages : Bool
  deriving DecidableEq

/-- What is asked of `vma->vm_ops`. -/
structure VmOps where
  close : Bool
  deriving DecidableEq

/-- `struct vm_area_struct`. -/
structure VmAreaStruct where
  vmStart : ULong
  vmEnd : ULong
  vmFlags : ULong
  /-- The page of the file, or of the address space, at `vmStart`. -/
  vmPgoff : ULong
  vmFile : Option OpenFile
  /-- `none` is an anonymous area. -/
  vmOps : Option VmOps
  anonVma : Option Handle
  anonVmaChain : List Handle
  vmPolicy : Option Handle
  vmUserfaultfdCtx : Option Handle
  anonName : Option Handle
  /-- Set while a page fault must not use the area. -/
  detached : Bool
  deriving DecidableEq

instance : Ranged VmAreaStruct where
  lo v := v.vmStart.toNat
  hi v := v.vmEnd.toNat

/-- The range and the flags, as the page accounting sees an area. -/
def VmAreaStruct.area (v : VmAreaStruct) : VmArea := ⟨v.vmStart, v.vmEnd, v.vmFlags⟩

/-- `vma->vm_ops && vma->vm_ops->close`. -/
def VmAreaStruct.hasClose (v : VmAreaStruct) : Bool := v.vmOps.any VmOps.close

/-- `vma_is_anonymous`. -/
def VmAreaStruct.isAnonymous (v : VmAreaStruct) : Bool := v.vmOps.isNone

/-- Assignments to `vm_start`, `vm_end` and `vm_pgoff`. -/
def VmAreaStruct.setRange (v : VmAreaStruct) (start stop pgoff : ULong) : VmAreaStruct :=
  { v with vmStart := start, vmEnd := stop, vmPgoff := pgoff }

/-- `vma_mark_detached`. -/
def VmAreaStruct.markDetached (detached : Bool) (v : VmAreaStruct) : VmAreaStruct :=
  { v with detached := detached }

/-- `unlink_anon_vmas`, on the area. -/
def VmAreaStruct.dropAnonVmas (v : VmAreaStruct) : VmAreaStruct :=
  { v with anonVma := none, anonVmaChain := [] }

/-- The fields of `struct mm_struct` that only the callers of the tree functions change. -/
structure Counters where
  brk : ULong
  startBrk : ULong
  startData : ULong
  endData : ULong
  totalVm : ULong
  execVm : ULong
  stackVm : ULong
  dataVm : ULong
  lockedVm : ULong
  defFlags : ULong
  /-- The pages of this address space in `vm_committed_as`. -/
  committed : ℤ
  deriving DecidableEq

/-- The areas of `struct mm_struct` with their objects, and its counters. -/
@[ext] structure AddressSpace where
  heap : Ptr → VmAreaStruct
  /-- The first address that the allocator has not given out. -/
  fresh : Ptr
  /-- `mm_mt`. -/
  mt : RangeMap Ptr
  mapCount : ℤ
  counters : Counters
  /-- A condition that the source warns about was met. -/
  warned : Bool

namespace AddressSpace

/-- `vma->field = value`. -/
def modify (as : AddressSpace) (p : Ptr) (f : VmAreaStruct → VmAreaStruct) : AddressSpace :=
  { as with heap := Function.update as.heap p (f (as.heap p)) }

/-- `WARN_ON` and its variants. -/
def warnOn (as : AddressSpace) (cond : Prop) [Decidable cond] : AddressSpace :=
  { as with warned := as.warned || decide cond }

/-- `vm_area_alloc` or `vm_area_dup`: the area `v` at a new address. -/
def vmAreaAlloc (as : AddressSpace) (v : VmAreaStruct) : AddressSpace :=
  { as with fresh := as.fresh + 1, heap := Function.update as.heap as.fresh v }

/-- `mm->map_count += n`. -/
def addMapCount (as : AddressSpace) (n : ℤ) : AddressSpace :=
  { as with mapCount := as.mapCount + n }

/-- `vma_iter_store`: the area under its own range. -/
def vmaIterStore (as : AddressSpace) (p : Ptr) : AddressSpace :=
  { as with mt := as.mt.store (as.heap p).vmStart.toNat (as.heap p).vmEnd.toNat p }

/-! ## What each step on an address space leaves alone -/

section Frames

variable (as : AddressSpace) (p : Ptr) (f : VmAreaStruct → VmAreaStruct) (cond : Prop)
  [Decidable cond]

/-- INTERNAL: the record under the pointer is changed. -/
@[simp] theorem modify_heap_self : (as.modify p f).heap p = f (as.heap p) :=
  Function.update_self p _ _

/-- INTERNAL: the other records are not. -/
@[simp] theorem modify_heap_of_ne {q : Ptr} (h : q ≠ p) : (as.modify p f).heap q = as.heap q :=
  Function.update_of_ne h _ _

@[simp] theorem modify_mt : (as.modify p f).mt = as.mt := rfl
@[simp] theorem modify_fresh : (as.modify p f).fresh = as.fresh := rfl
@[simp] theorem modify_mapCount : (as.modify p f).mapCount = as.mapCount := rfl
@[simp] theorem modify_counters : (as.modify p f).counters = as.counters := rfl
@[simp] theorem modify_warned : (as.modify p f).warned = as.warned := rfl

/-- INTERNAL: a change to what is there already is none. -/
theorem modify_self (h : f (as.heap p) = as.heap p) : as.modify p f = as := by
  unfold modify
  rw [h, Function.update_eq_self]

/-- INTERNAL: two changes of one record are one. -/
theorem modify_modify (g : VmAreaStruct → VmAreaStruct) :
    (as.modify p f).modify p g = as.modify p (fun v => g (f v)) := by
  unfold modify
  simp only [Function.update_self, Function.update_idem]

@[simp] theorem warnOn_heap : (as.warnOn cond).heap = as.heap := rfl
@[simp] theorem warnOn_mt : (as.warnOn cond).mt = as.mt := rfl
@[simp] theorem warnOn_fresh : (as.warnOn cond).fresh = as.fresh := rfl
@[simp] theorem warnOn_mapCount : (as.warnOn cond).mapCount = as.mapCount := rfl
@[simp] theorem warnOn_counters : (as.warnOn cond).counters = as.counters := rfl

/-- INTERNAL: a condition that does not hold leaves no trace. -/
theorem warnOn_of_not {cond : Prop} [Decidable cond] (h : ¬ cond) : as.warnOn cond = as := by
  unfold warnOn
  rw [decide_eq_false h, Bool.or_false]

/-- INTERNAL: the new record is under the fresh pointer. -/
@[simp] theorem vmAreaAlloc_heap_self (v : VmAreaStruct) :
    (as.vmAreaAlloc v).heap as.fresh = v :=
  Function.update_self as.fresh _ _

@[simp] theorem vmAreaAlloc_mt (v : VmAreaStruct) : (as.vmAreaAlloc v).mt = as.mt := rfl
@[simp] theorem vmAreaAlloc_fresh (v : VmAreaStruct) : (as.vmAreaAlloc v).fresh = as.fresh + 1 := rfl
@[simp] theorem vmAreaAlloc_mapCount (v : VmAreaStruct) :
    (as.vmAreaAlloc v).mapCount = as.mapCount := rfl
@[simp] theorem vmAreaAlloc_counters (v : VmAreaStruct) :
    (as.vmAreaAlloc v).counters = as.counters := rfl
@[simp] theorem vmAreaAlloc_warned (v : VmAreaStruct) : (as.vmAreaAlloc v).warned = as.warned := rfl

@[simp] theorem addMapCount_heap (n : ℤ) : (as.addMapCount n).heap = as.heap := rfl
@[simp] theorem addMapCount_mt (n : ℤ) : (as.addMapCount n).mt = as.mt := rfl
@[simp] theorem addMapCount_fresh (n : ℤ) : (as.addMapCount n).fresh = as.fresh := rfl
@[simp] theorem addMapCount_mapCount (n : ℤ) : (as.addMapCount n).mapCount = as.mapCount + n := rfl
@[simp] theorem addMapCount_counters (n : ℤ) : (as.addMapCount n).counters = as.counters := rfl
@[simp] theorem addMapCount_warned (n : ℤ) : (as.addMapCount n).warned = as.warned := rfl

@[simp] theorem vmaIterStore_heap : (as.vmaIterStore p).heap = as.heap := rfl
@[simp] theorem vmaIterStore_fresh : (as.vmaIterStore p).fresh = as.fresh := rfl
@[simp] theorem vmaIterStore_mapCount : (as.vmaIterStore p).mapCount = as.mapCount := rfl
@[simp] theorem vmaIterStore_counters : (as.vmaIterStore p).counters = as.counters := rfl
@[simp] theorem vmaIterStore_warned : (as.vmaIterStore p).warned = as.warned := rfl
@[simp] theorem vmaIterStore_mt :
    (as.vmaIterStore p).mt =
      as.mt.store (as.heap p).vmStart.toNat (as.heap p).vmEnd.toNat p := rfl

end Frames

/-- `find_vma_intersection`. -/
def findVmaIntersection (as : AddressSpace) (start stop : ULong) : Option Ptr :=
  as.mt.find start.toNat stop.toNat

/-- `vma_lookup`. -/
def vmaLookup (as : AddressSpace) (addr : ULong) : Option Ptr := as.mt.lookup addr.toNat

/-- `vma_prev`, from `addr`. -/
def vmaPrev (as : AddressSpace) (addr : ULong) : Option Ptr := as.mt.prev addr.toNat

/-- `vma_next`, from `addr`. -/
def vmaNext (as : AddressSpace) (addr : ULong) : Option Ptr := as.mt.next addr.toNat

end AddressSpace

/-- `validate_mm`: every entry of the tree has the bounds of its area, and `map_count` is their
number.
SOURCE: mm/mmap.c:291-339 -/
def validateMm (as : AddressSpace) : Bool :=
  as.mt.spans.all (fun s =>
    decide ((as.heap s.val).vmEnd.toNat = s.hi ∧ (as.heap s.val).vmStart.toNat = s.lo)) &&
    decide ((as.mt.spans.length : ℤ) = as.mapCount)

/-! ## Which areas may become one -/

/-- `is_mergeable_vma`.
SOURCE: mm/mmap.c:730-754 -/
def isMergeableVma (v : VmAreaStruct) (file : Option OpenFile) (vmFlags : ULong)
    (uffdCtx anonName : Option Handle) (mayRemoveVma : Bool) : Bool :=
  if (v.vmFlags ^^^ vmFlags) &&& ~~~ VM_SOFTDIRTY ≠ 0 then false
  else if v.vmFile ≠ file then false
  else if mayRemoveVma ∧ v.hasClose then false
  else if v.vmUserfaultfdCtx ≠ uffdCtx then false
  else if v.anonName ≠ anonName then false
  else true

/-- `list_is_singular(&vma->anon_vma_chain)`. -/
def VmAreaStruct.singularChain (v : VmAreaStruct) : Bool := decide (v.anonVmaChain.length = 1)

/-- `is_mergeable_anon_vma`.
SOURCE: mm/mmap.c:756-767 -/
def isMergeableAnonVma (anonVma1 anonVma2 : Option Handle) (vma : Option VmAreaStruct) : Bool :=
  if (anonVma1.isNone ∨ anonVma2.isNone) ∧ vma.all VmAreaStruct.singularChain then true
  else decide (anonVma1 = anonVma2)

/-- What is to be mapped at `[addr, stop)`: the arguments of `vma_merge`. -/
structure MergeRequest where
  addr : ULong
  stop : ULong
  vmFlags : ULong
  anonVma : Option Handle
  file : Option OpenFile
  pgoff : ULong
  policy : Option Handle
  uffdCtx : Option Handle
  anonName : Option Handle

/-- `pglen`. -/
def MergeRequest.pglen (req : MergeRequest) : ULong := bytesToPages (req.stop - req.addr)

/-- `can_vma_merge_before`.
SOURCE: mm/mmap.c:783-794 -/
def canVmaMergeBefore (v : VmAreaStruct) (vmFlags : ULong) (anonVma : Option Handle)
    (file : Option OpenFile) (vmPgoff : ULong) (uffdCtx anonName : Option Handle) : Bool :=
  if isMergeableVma v file vmFlags uffdCtx anonName true ∧
      isMergeableAnonVma anonVma v.anonVma (some v) then
    decide (v.vmPgoff = vmPgoff)
  else false

/-- `can_vma_merge_after`.
SOURCE: mm/mmap.c:806-819 -/
def canVmaMergeAfter (v : VmAreaStruct) (vmFlags : ULong) (anonVma : Option Handle)
    (file : Option OpenFile) (vmPgoff : ULong) (uffdCtx anonName : Option Handle) : Bool :=
  if isMergeableVma v file vmFlags uffdCtx anonName false ∧
      isMergeableAnonVma anonVma v.anonVma (some v) then
    decide (v.vmPgoff + vmaPages v.area = vmPgoff)
  else false

/-! ## `anon_vma` -/

/-- The allocations of a merge or an expansion. -/
structure MergeAnswers where
  /-- `anon_vma_clone` fails. -/
  cloneFails : Bool
  /-- `vma_iter_prealloc` fails. -/
  preallocFails : Bool

/-- `unlink_anon_vmas`. -/
def unlinkAnonVmas (as : AddressSpace) (p : Ptr) : AddressSpace :=
  as.modify p VmAreaStruct.dropAnonVmas

/-- `dup_anon_vma`. A failed `anon_vma_clone` takes back the `anon_vma` of its destination.
The last component is `*dup`.
SOURCE: mm/mmap.c:600-621 -/
def dupAnonVma (cloneFails : Bool) (as : AddressSpace) (dst src : Ptr) :
    Option Errno × AddressSpace × Option Ptr :=
  if (as.heap src).anonVma.isSome ∧ (as.heap dst).anonVma.isNone then
    if cloneFails then (some ENOMEM, unlinkAnonVmas as dst, none)
    else
      (none, as.modify dst (fun v =>
        { v with
          anonVma := (as.heap src).anonVma
          anonVmaChain := (as.heap src).anonVmaChain ++ v.anonVmaChain }), some dst)
  else (none, as, none)

/-- Undo `dup_anon_vma` after a failed preallocation. -/
def undoDup (as : AddressSpace) (dup : Option Ptr) : AddressSpace :=
  match dup with
  | some p => unlinkAnonVmas as p
  | none => as

/-- `anon_vma_merge`, which insists that both areas have the same `anon_vma`. -/
def anonVmaMerge (as : AddressSpace) (vma next : Ptr) : AddressSpace :=
  unlinkAnonVmas (as.warnOn ((as.heap vma).anonVma ≠ (as.heap next).anonVma)) next

/-- One round of `again:` in `vma_complete`: an area that has become part of another.
SOURCE: mm/mmap.c:561-586 -/
def removeMerged (as : AddressSpace) (vma remove : Ptr) (isLast : Bool) : AddressSpace :=
  let as := as.modify remove (VmAreaStruct.markDetached true)
  let as := if (as.heap remove).anonVma.isSome then anonVmaMerge as vma remove else as
  let as := as.addMapCount (-1)
  if isLast then as.warnOn ((as.heap vma).vmEnd < (as.heap remove).vmEnd) else as

/-- `vma_complete`, for areas that are removed.
SOURCE: mm/mmap.c:520-590 -/
def vmaComplete (as : AddressSpace) (vma : Ptr) (remove remove2 : Option Ptr) : AddressSpace :=
  match remove, remove2 with
  | none, _ => as
  | some r, none => removeMerged as vma r true
  | some r, some r2 => removeMerged (removeMerged as vma r false) vma r2 true

/-! ## `vma_expand` and `vma_shrink` -/

/-- The `anon_vma` of an area that the expansion removes.
SOURCE: mm/mmap.c:649-657 -/
def expandDup (cloneFails : Bool) (as : AddressSpace) (vma : Ptr) (removeNext : Option Ptr) :
    Option Errno × AddressSpace × Option Ptr :=
  match removeNext with
  | some n => dupAnonVma cloneFails as vma n
  | none => (none, as, none)

/-- The rest of `vma_expand`.
SOURCE: mm/mmap.c:659-684 -/
def expandCommit (preallocFails : Bool) (as : AddressSpace) (dup : Option Ptr) (vma : Ptr)
    (start stop pgoff : ULong) (next removeNext : Option Ptr) : Option Errno × AddressSpace :=
  let as := as.warnOn (removeNext = none ∧
    next.any (fun n => decide (n ≠ vma ∧ stop > (as.heap n).vmStart)))
  let as := as.warnOn ((as.heap vma).vmStart < start ∨ (as.heap vma).vmEnd > stop)
  if preallocFails then (some ENOMEM, undoDup as dup)
  else
    let as := as.modify vma (fun v => v.setRange start stop pgoff)
    (none, vmaComplete (as.vmaIterStore vma) vma removeNext none)

/-- `vma_expand`.
SOURCE: mm/mmap.c:640-685 -/
def vmaExpand (ans : MergeAnswers) (as : AddressSpace) (vma : Ptr) (start stop pgoff : ULong)
    (next : Option Ptr) : Option Errno × AddressSpace :=
  let removeNext := next.filter (fun n => decide (n ≠ vma ∧ stop = (as.heap n).vmEnd))
  match expandDup ans.cloneFails as vma removeNext with
  | (some e, as, _) => (some e, as)
  | (none, as, dup) =>
    expandCommit ans.preallocFails as dup vma start stop pgoff next removeNext

/-- `vma_shrink`.
SOURCE: mm/mmap.c:696-723 -/
def vmaShrink (preallocFails : Bool) (as : AddressSpace) (vma : Ptr) (start stop pgoff : ULong) :
    Option Errno × AddressSpace :=
  let v := as.heap vma
  let as := as.warnOn (v.vmStart ≠ start ∧ v.vmEnd ≠ stop)
  if preallocFails then (some ENOMEM, as)
  else
    let cleared :=
      if v.vmStart < start then as.mt.clear v.vmStart.toNat start.toNat
      else as.mt.clear stop.toNat v.vmEnd.toNat
    (none, { as with mt := cleared }.modify vma (fun v => v.setRange start stop pgoff))

/-! ## `vma_merge` -/

/-- What a merge has decided to do. -/
structure MergePlan where
  vma : Ptr
  res : Ptr
  vmaStart : ULong
  vmaEnd : ULong
  vmaPgoff : ULong
  adjust : Option Ptr
  /-- A signed number of bytes. -/
  adjStart : ULong
  remove : Option Ptr
  remove2 : Option Ptr

/-- The state with a plan, or with the error of `dup_anon_vma`. -/
structure Planned where
  err : Option Errno
  space : AddressSpace
  dup : Option Ptr
  plan : MergePlan

/-- Cases 1 and 6: the range joins its predecessor and its successor.
SOURCE: mm/mmap.c:945-963 -/
def planBoth (ans : MergeAnswers) (as : AddressSpace) (prev next : Ptr) (curr : Option Ptr) :
    Planned :=
  let first := dupAnonVma ans.cloneFails as prev next
  let plan : MergePlan :=
    { vma := prev, res := prev
      vmaStart := (as.heap prev).vmStart, vmaEnd := (as.heap next).vmEnd
      vmaPgoff := (as.heap prev).vmPgoff
      adjust := none, adjStart := 0, remove := some next, remove2 := none }
  match curr with
  | none => ⟨first.1, first.2.1, first.2.2, plan⟩
  | some c =>
    let plan := { plan with remove := some c, remove2 := some next }
    if (as.heap next).anonVma.isNone then
      let second := dupAnonVma ans.cloneFails first.2.1 prev c
      ⟨second.1, second.2.1, second.2.2, plan⟩
    else ⟨first.1, first.2.1, first.2.2, plan⟩

/-- Cases 2, 5 and 7: the range joins its predecessor.
SOURCE: mm/mmap.c:964-982 -/
def planAfter (ans : MergeAnswers) (as : AddressSpace) (prev : Ptr) (curr : Option Ptr)
    (stop : ULong) : Planned :=
  let plan : MergePlan :=
    { vma := prev, res := prev
      vmaStart := (as.heap prev).vmStart, vmaEnd := stop, vmaPgoff := (as.heap prev).vmPgoff
      adjust := none, adjStart := 0, remove := none, remove2 := none }
  match curr with
  | none => ⟨none, as, none, plan⟩
  | some c =>
    if stop = (as.heap c).vmEnd then
      let plan := { plan with remove := some c }
      -- `can_vma_merge_after` did not ask for `close`, but `curr` is removed
      if (as.heap c).hasClose then ⟨some EINVAL, as, none, plan⟩
      else
        let dupped := dupAnonVma ans.cloneFails as prev c
        ⟨dupped.1, dupped.2.1, dupped.2.2, plan⟩
    else
      let plan := { plan with adjust := some c, adjStart := stop - (as.heap c).vmStart }
      let dupped := dupAnonVma ans.cloneFails as prev c
      ⟨dupped.1, dupped.2.1, dupped.2.2, plan⟩

/-- Cases 3, 4 and 8: the range joins its successor.
SOURCE: mm/mmap.c:983-1008 -/
def planBefore (ans : MergeAnswers) (as : AddressSpace) (prev : Option Ptr) (next : Ptr)
    (curr : Option Ptr) (req : MergeRequest) : Planned :=
  match prev.filter (fun p => decide (req.addr < (as.heap p).vmEnd)) with
  | some p =>
    let dupped := dupAnonVma ans.cloneFails as next p
    ⟨dupped.1, dupped.2.1, dupped.2.2,
      { vma := p, res := next
        vmaStart := (as.heap p).vmStart, vmaEnd := req.addr, vmaPgoff := (as.heap p).vmPgoff
        adjust := some next, adjStart := -((as.heap p).vmEnd - req.addr)
        remove := none, remove2 := none }⟩
  | none =>
    let plan : MergePlan :=
      { vma := next, res := next
        vmaStart := req.addr, vmaEnd := (as.heap next).vmEnd
        vmaPgoff := (as.heap next).vmPgoff - req.pglen
        adjust := none, adjStart := 0, remove := none, remove2 := none }
    match curr with
    | none => ⟨none, as, none, plan⟩
    | some c =>
      let dupped := dupAnonVma ans.cloneFails as next c
      ⟨dupped.1, dupped.2.1, dupped.2.2,
        { plan with vmaPgoff := (as.heap c).vmPgoff, remove := some c }⟩

/-- `adjust->vm_start += adj_start` and what follows from it. The area stored for a negative
`adj_start` is `next`, which is `adjust` in that case.
SOURCE: mm/mmap.c:1041-1048 -/
def adjustNeighbour (as : AddressSpace) (plan : MergePlan) (expanded : Bool) : AddressSpace :=
  match plan.adjust with
  | none => as
  | some q =>
    if plan.adjStart = 0 then as
    else
      let as := as.modify q (fun v =>
        v.setRange (v.vmStart + plan.adjStart) v.vmEnd
          (v.vmPgoff + plan.adjStart.sshiftRight pageShift))
      if plan.adjStart.msb then (as.warnOn (expanded = true)).vmaIterStore q else as

/-- `vma_merge` once nothing can fail any more.
SOURCE: mm/mmap.c:1027-1050 -/
def applyPlan (as : AddressSpace) (plan : MergePlan) : AddressSpace :=
  let v := as.heap plan.vma
  let expanded := decide (plan.vmaStart < v.vmStart ∨ v.vmEnd < plan.vmaEnd)
  let as := as.warnOn (plan.adjust.any (fun q =>
    (v.anonVma.or (as.heap q).anonVma).isSome && (as.heap q).anonVma.isSome &&
      decide (v.anonVma.or (as.heap q).anonVma ≠ (as.heap q).anonVma)))
  let as := as.modify plan.vma (fun v => v.setRange plan.vmaStart plan.vmaEnd plan.vmaPgoff)
  let as := if expanded then as.vmaIterStore plan.vma else as
  vmaComplete (adjustNeighbour as plan expanded) plan.vma plan.remove plan.remove2

/-- `vma_merge` once it has decided what to do.
SOURCE: mm/mmap.c:1010-1060 -/
def commitMerge (ans : MergeAnswers) (planned : Planned) : Option Ptr × AddressSpace :=
  if planned.err.isSome then (none, planned.space)
  else if ans.preallocFails then (none, undoDup planned.space planned.dup)
  else (some planned.plan.res, applyPlan planned.space planned.plan)

/-- `curr`: the area that the range starts, if it is mapped at all (cases 5 to 8). -/
def mergeCurr (as : AddressSpace) (prev : Option Ptr) (req : MergeRequest) : Option Ptr :=
  as.findVmaIntersection (prev.elim 0 (fun p => (as.heap p).vmEnd)) req.stop

/-- `next`: the area behind the range. -/
def mergeNext (as : AddressSpace) (curr : Option Ptr) (req : MergeRequest) : Option Ptr :=
  if curr.all (fun c => decide (req.stop = (as.heap c).vmEnd)) then as.vmaLookup req.stop
  else none

/-- `merge_prev`. -/
def joinsPrev (as : AddressSpace) (req : MergeRequest) (prev : Ptr) : Bool :=
  decide (req.addr = (as.heap prev).vmEnd) && decide ((as.heap prev).vmPolicy = req.policy) &&
    canVmaMergeAfter (as.heap prev) req.vmFlags req.anonVma req.file req.pgoff req.uffdCtx
      req.anonName

/-- `merge_next`. -/
def joinsNext (as : AddressSpace) (req : MergeRequest) (next : Ptr) : Bool :=
  decide (req.policy = (as.heap next).vmPolicy) &&
    canVmaMergeBefore (as.heap next) req.vmFlags req.anonVma req.file (req.pgoff + req.pglen)
      req.uffdCtx req.anonName

/-- `vma_merge`: the area that now covers the range with what is requested, or none.
SOURCE: mm/mmap.c:873-1062 -/
def vmaMerge (ans : MergeAnswers) (as : AddressSpace) (prev : Option Ptr) (req : MergeRequest) :
    Option Ptr × AddressSpace :=
  if hasFlag req.vmFlags VM_SPECIAL then (none, as)
  else
    let curr := mergeCurr as prev req
    let next := mergeNext as curr req
    let as := as.warnOn (prev.any (fun p => decide (req.addr ≤ (as.heap p).vmStart)))
    let as := as.warnOn (curr.any (fun c =>
      decide (req.addr ≠ (as.heap c).vmStart ∨ req.stop > (as.heap c).vmEnd)))
    let as := as.warnOn (req.addr ≥ req.stop)
    match prev.filter (joinsPrev as req), next.filter (joinsNext as req) with
    | none, none => (none, as)
    | some p, none => commitMerge ans (planAfter ans as p curr req.stop)
    | some p, some n =>
      if isMergeableAnonVma (as.heap p).anonVma (as.heap n).anonVma none then
        commitMerge ans (planBoth ans as p n curr)
      else commitMerge ans (planAfter ans as p curr req.stop)
    | none, some n => commitMerge ans (planBefore ans as prev n curr req)

/-! ## Splitting -/

/-- The allocations of a split, and the answer of `vm_ops->may_split`. -/
structure SplitAnswers where
  maySplit : Option Errno
  /-- `vm_area_dup` or `vma_iter_prealloc` fails. -/
  noMemory : Bool
  dupPolicy : Option Errno
  cloneFails : Bool

/-- The error with which a split fails. -/
def SplitAnswers.error (ans : SplitAnswers) : Option Errno :=
  ans.maySplit.or <| (if ans.noMemory then some ENOMEM else none).or <|
    ans.dupPolicy.or <| if ans.cloneFails then some ENOMEM else none

/-- `__split_vma`.
SOURCE: mm/mmap.c:2345-2421 -/
def splitVmaUnchecked (ans : SplitAnswers) (as : AddressSpace) (vma : Ptr) (addr : ULong)
    (newBelow : Bool) : Option Errno × AddressSpace :=
  let v := as.heap vma
  let as := as.warnOn (v.vmStart ≥ addr)
  let as := as.warnOn (v.vmEnd ≤ addr)
  match ans.error with
  | some e => (some e, as)
  | none =>
    let new := as.fresh
    let as := as.vmAreaAlloc
      (if newBelow then v.setRange v.vmStart addr v.vmPgoff
      else v.setRange addr v.vmEnd (v.vmPgoff + bytesToPages (addr - v.vmStart)))
    let as := as.modify vma (fun v =>
      if newBelow then
        v.setRange addr v.vmEnd (v.vmPgoff + bytesToPages (addr - (as.heap new).vmStart))
      else v.setRange v.vmStart addr v.vmPgoff)
    (none, (as.vmaIterStore new).addMapCount 1)

/-- `split_vma`.
SOURCE: mm/mmap.c:2427-2434 -/
def splitVma (env : MmEnv) (ans : SplitAnswers) (as : AddressSpace) (vma : Ptr) (addr : ULong)
    (newBelow : Bool) : Option Errno × AddressSpace :=
  if env.sysctlMaxMapCount ≤ as.mapCount then (some ENOMEM, as)
  else splitVmaUnchecked ans as vma addr newBelow

/-- What `vma_modify` is to change in a range. -/
structure ModifyRequest where
  start : ULong
  stop : ULong
  vmFlags : ULong
  policy : Option Handle
  uffdCtx : Option Handle
  anonName : Option Handle

/-- The merge that `vma_modify` asks for: the file, the pages and the `anon_vma` stay. -/
def ModifyRequest.merge (req : ModifyRequest) (v : VmAreaStruct) : MergeRequest :=
  { addr := req.start, stop := req.stop, vmFlags := req.vmFlags, anonVma := v.anonVma
    file := v.vmFile, pgoff := v.vmPgoff + bytesToPages (req.start - v.vmStart)
    policy := req.policy, uffdCtx := req.uffdCtx, anonName := req.anonName }

/-- `vma_modify`: the area that the caller changes, which is exactly the range unless it was
merged.
SOURCE: mm/mmap.c:2449-2482 -/
def vmaModify (env : MmEnv) (merge : MergeAnswers) (below above : SplitAnswers)
    (as : AddressSpace) (prev : Option Ptr) (vma : Ptr) (req : ModifyRequest) :
    Except Errno Ptr × AddressSpace :=
  match vmaMerge merge as prev (req.merge (as.heap vma)) with
  | (some merged, as) => (.ok merged, as)
  | (none, as) =>
    let first :=
      if (as.heap vma).vmStart < req.start then splitVma env below as vma req.start true
      else (none, as)
    match first with
    | (some e, as) => (.error e, as)
    | (none, as) =>
      let second :=
        if (as.heap vma).vmEnd > req.stop then splitVma env above as vma req.stop false
        else (none, as)
      match second with
      | (some e, as) => (.error e, as)
      | (none, as) => (.ok vma, as)

/-- `vma_merge_new_vma`.
SOURCE: mm/mmap.c:2489-2496 -/
def vmaMergeNewVma (ans : MergeAnswers) (as : AddressSpace) (prev : Option Ptr)
    (v : VmAreaStruct) (start stop pgoff : ULong) : Option Ptr × AddressSpace :=
  vmaMerge ans as prev
    { addr := start, stop := stop, vmFlags := v.vmFlags, anonVma := v.anonVma, file := v.vmFile
      pgoff := pgoff, policy := v.vmPolicy, uffdCtx := v.vmUserfaultfdCtx, anonName := v.anonName }

/-- `vma_merge_extend`.
SOURCE: mm/mmap.c:2502-2513 -/
def vmaMergeExtend (ans : MergeAnswers) (as : AddressSpace) (vma : Ptr) (delta : ULong) :
    Option Ptr × AddressSpace :=
  let v := as.heap vma
  vmaMergeNewVma ans as (some vma) v v.vmEnd (v.vmEnd + delta) (v.vmPgoff + vmaPages v.area)

end UsacKernel.Model
