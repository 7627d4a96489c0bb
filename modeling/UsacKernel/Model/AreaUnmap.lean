import UsacKernel.Model.AreaTree

/-!
# Unmapping, on the maple tree

`do_vmi_align_munmap` cuts the areas at both ends of the range, gathers the areas inside in a
tree of its own and marks them as detached, clears the range in `mm_mt`, and then takes them off
the counters. Every step up to the clearing can fail; a failure takes the marks back. `exit_mmap`
removes all areas.

The functions have the names of the coarser ones in `Model/AddressSpace.lean` and stand in the
namespace `AddressSpace`. `Analysis/TwoModels.lean` says how the two are related.
-/

set_option autoImplicit false

namespace UsacKernel.Model

open UsacKernel.Computation IndexedHeap

namespace AddressSpace

/-! ## Counters -/

/-- The areas of the tree in address order, as ranges and flags. -/
def vmas (as : AddressSpace) : List VmArea := as.mt.spans.map (fun s => (as.heap s.val).area)

/-- The address space as the functions on counters and ranges see it. -/
def toMm (as : AddressSpace) : MmStruct where
  brk := as.counters.brk
  startBrk := as.counters.startBrk
  startData := as.counters.startData
  endData := as.counters.endData
  totalVm := as.counters.totalVm
  execVm := as.counters.execVm
  stackVm := as.counters.stackVm
  dataVm := as.counters.dataVm
  lockedVm := as.counters.lockedVm
  mapCount := as.mapCount
  defFlags := as.counters.defFlags
  vmas := as.vmas

/-- An assignment to the counters. -/
def modifyCounters (as : AddressSpace) (f : Counters → Counters) : AddressSpace :=
  { as with counters := f as.counters }

end AddressSpace

/-- `vm_stat_account`.
SOURCE: mm/mmap.c:3503-3513 -/
def Counters.vmStatAccount (c : Counters) (flags npages : ULong) : Counters :=
  let c := { c with totalVm := c.totalVm + npages }
  if isExecMapping flags then { c with execVm := c.execVm + npages }
  else if isStackMapping flags then { c with stackVm := c.stackVm + npages }
  else if isDataMapping flags then { c with dataVm := c.dataVm + npages }
  else c

/-- `mm->locked_vm += npages`. -/
def Counters.addLockedVm (c : Counters) (npages : ULong) : Counters :=
  { c with lockedVm := c.lockedVm + npages }

/-- `vm_acct_memory`, or for a negative number `vm_unacct_memory`. -/
def Counters.addCommitted (c : Counters) (npages : ℤ) : Counters :=
  { c with committed := c.committed + npages }

/-- One round of `remove_mt`. -/
def Counters.removeArea (c : Counters) (v : VmAreaStruct) : Counters :=
  c.vmStatAccount v.vmFlags (-vmaPages v.area)

/-- The pages of an area that count as committed. -/
def accountedPages (v : VmAreaStruct) : ULong :=
  if hasFlag v.vmFlags VM_ACCOUNT then vmaPages v.area else 0

/-- The pages of an area that count as locked. -/
def lockedPages (v : VmAreaStruct) : ULong :=
  if hasFlag v.vmFlags VM_LOCKED then vmaPages v.area else 0

namespace AddressSpace

/-- `remove_mt`.
SOURCE: mm/mmap.c:2298-2314 -/
def removeMt (as : AddressSpace) (detach : List Ptr) : AddressSpace :=
  let areas := detach.map as.heap
  let nrAccounted := (areas.map accountedPages).sum
  as.modifyCounters (fun c =>
    (areas.foldl Counters.removeArea c).addCommitted (-(nrAccounted.toNat : ℤ)))

/-! ## `do_vmi_align_munmap` -/

end AddressSpace

/-- What can fail while a range is unmapped. -/
structure MunmapAnswers where
  startSplit : SplitAnswers
  endSplit : SplitAnswers
  /-- Storing the area of this number in the tree of detached areas. -/
  gather : ℕ → Option Errno
  /-- `userfaultfd_unmap_prep` for the area of this number. -/
  uffdPrep : ℕ → Option Errno
  /-- `vma_iter_clear_gfp`. -/
  clear : Option Errno

/-- The address space while areas are gathered: `mt_detach` and `locked_vm`. -/
structure Gathered where
  space : AddressSpace
  detach : List Ptr
  lockedVm : ULong

namespace AddressSpace

/-- `vma_mark_detached` of several areas. -/
def markAll (as : AddressSpace) (detached : Bool) (l : List Ptr) : AddressSpace :=
  l.foldl (fun as p => as.modify p (VmAreaStruct.markDetached detached)) as

/-- One round of the loop that gathers the areas of a range.
SOURCE: mm/mmap.c:2573-2608 -/
def gatherOne (ans : MunmapAnswers) (stop : ULong) (g : Gathered) (next : Ptr) :
    Except (Errno × Gathered) Gathered :=
  let split :=
    if (g.space.heap next).vmEnd > stop then
      splitVmaUnchecked ans.endSplit g.space next stop false
    else (none, g.space)
  match split with
  | (some e, as) => .error (e, { g with space := as })
  | (none, as) =>
    match ans.gather g.detach.length with
    | some e => .error (e, { g with space := as })
    | none =>
      let g' : Gathered :=
        { space := as.modify next (VmAreaStruct.markDetached true)
          detach := g.detach ++ [next]
          lockedVm := g.lockedVm + lockedPages (as.heap next) }
      match ans.uffdPrep g.detach.length with
      | some e => .error (e, g')
      | none => .ok g'

/-- The cut at the start of the range. `map_count` may be exceeded for a moment, but not in
the end.
SOURCE: mm/mmap.c:2552-2565 -/
def splitStart (env : MmEnv) (ans : SplitAnswers) (as : AddressSpace) (vma : Ptr)
    (start stop : ULong) : Option Errno × AddressSpace :=
  if start > (as.heap vma).vmStart then
    if stop < (as.heap vma).vmEnd ∧ env.sysctlMaxMapCount ≤ as.mapCount then (some ENOMEM, as)
    else splitVmaUnchecked ans as vma start true
  else (none, as)

/-- From the point of no return on.
SOURCE: mm/mmap.c:2638-2660 -/
def detachGathered (g : Gathered) (start stop : ULong) : AddressSpace :=
  let as := { g.space with
    mt := g.space.mt.clear start.toNat stop.toNat
    mapCount := g.space.mapCount - g.detach.length }
  (as.modifyCounters (fun c => c.addLockedVm (-g.lockedVm))).removeMt g.detach

/-- `do_vmi_align_munmap`, from the first area `vma` of the range on.
SOURCE: mm/mmap.c:2530-2678 -/
def doVmiAlignMunmap (env : MmEnv) (ans : MunmapAnswers) (as : AddressSpace) (vma : Ptr)
    (start stop : ULong) : Option Errno × AddressSpace :=
  match splitStart env ans.startSplit as vma start stop with
  | (some e, as) => (some e, as)
  | (none, as) =>
    match (as.mt.findAll start.toNat stop.toNat).foldlM (gatherOne ans stop) ⟨as, [], 0⟩ with
    | .error (e, g) => (some e, g.space.markAll false g.detach)
    | .ok g =>
      match ans.clear with
      | some e => (some e, g.space.markAll false g.detach)
      | none => (none, detachGathered g start stop)

/-- `do_vmi_munmap`.
SOURCE: mm/mmap.c:2696-2722 -/
def doVmiMunmap (env : MmEnv) (ans : MunmapAnswers) (as : AddressSpace) (start len : ULong) :
    Option Errno × AddressSpace :=
  if offsetInPage start ∨ env.taskSize < start ∨ env.taskSize - start < len then
    (some EINVAL, as)
  else
    let stop := start + pageAlign len
    if stop = start then (some EINVAL, as)
    else
      match as.findVmaIntersection start stop with
      | none => (none, as)
      | some vma => doVmiAlignMunmap env ans as vma start stop

/-- `munmap`.
SOURCE: mm/mmap.c:2998-3026 -/
def munmap (env : MmEnv) (ans : MunmapAnswers) (as : AddressSpace) (addr len : ULong) :
    Option Errno × AddressSpace :=
  if env.lockKilled then (some EINTR, as) else doVmiMunmap env ans as addr len

/-! ## `exit_mmap` -/

/-- The areas are counted against `map_count` and the pages charged for them are given back.
SOURCE: mm/mmap.c:3323-3341 -/
def exitAreas (as : AddressSpace) (detach : List Ptr) : AddressSpace :=
  let nrAccounted := ((detach.map as.heap).map accountedPages).sum
  let as := as.warnOn ((detach.length : ℤ) ≠ as.mapCount)
  { as with mt := RangeMap.empty }.modifyCounters
    (fun c => c.addCommitted (-(nrAccounted.toNat : ℤ)))

/-- `exit_mmap`, for an address space that was not left half copied.
SOURCE: mm/mmap.c:3278-3342 -/
def exitMmap (as : AddressSpace) : AddressSpace :=
  if as.mt.spans.isEmpty then as else as.exitAreas (as.mt.spans.map Span.val)

end AddressSpace

end UsacKernel.Model
