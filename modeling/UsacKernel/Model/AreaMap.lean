import UsacKernel.Model.AreaUnmap
import UsacKernel.Model.SystemCalls

/-!
# Mapping, on the maple tree

`mmap_region` with its attempt to expand a neighbour, the file's own `mmap` and the second
attempt to merge; `do_brk_flags` and `brk`; `insert_vm_struct` and the special mappings; the
growth of a stack area. What a file system or the page allocator answers is given to each
function. `security_vm_enough_memory_mm` charges the pages when it agrees.

Left out: page tables and population, `perf`, `uprobes`, `ksm` and `khugepaged` notifications,
the counts of writable mappings of a file, and the gate area, which is not in the tree.
-/

set_option autoImplicit false

namespace UsacKernel.Model

open UsacKernel.Computation IndexedHeap

/-! ## New areas -/

/-- `vm_area_alloc` with the assignments that follow it: an area without a file, with the dummy
operations. -/
def newArea (start stop vmFlags pgoff : ULong) : VmAreaStruct where
  vmStart := start
  vmEnd := stop
  vmFlags := vmFlags
  vmPgoff := pgoff
  vmFile := none
  vmOps := some ⟨false⟩
  anonVma := none
  anonVmaChain := []
  vmPolicy := none
  vmUserfaultfdCtx := none
  anonName := none
  detached := false

/-- `vma_set_anonymous`. -/
def VmAreaStruct.setAnonymous (v : VmAreaStruct) : VmAreaStruct := { v with vmOps := none }

/-- `vma->vm_file = file`. -/
def VmAreaStruct.setFile (v : VmAreaStruct) (file : OpenFile) : VmAreaStruct :=
  { v with vmFile := some file }

/-- `vm_flags_set`. -/
def VmAreaStruct.setFlags (flags : ULong) (v : VmAreaStruct) : VmAreaStruct :=
  { v with vmFlags := v.vmFlags ||| flags }

/-- `vm_flags_clear`. -/
def VmAreaStruct.clearFlags (flags : ULong) (v : VmAreaStruct) : VmAreaStruct :=
  { v with vmFlags := v.vmFlags &&& ~~~ flags }

/-- `vma_is_shared_maywrite`. -/
def VmAreaStruct.isSharedMaywrite (v : VmAreaStruct) : Bool :=
  decide (v.vmFlags &&& (VM_SHARED ||| VM_MAYWRITE) = VM_SHARED ||| VM_MAYWRITE)

/-- `vma_is_accessible`. -/
def VmAreaStruct.isAccessible (v : VmAreaStruct) : Bool :=
  hasFlag v.vmFlags (VM_READ ||| VM_WRITE ||| VM_EXEC)

/-- `vma_is_dax`. -/
def VmAreaStruct.isDax (v : VmAreaStruct) : Bool := v.vmFile.any OpenFile.isDax

/-- `accountable_mapping`.
SOURCE: mm/mmap.c:1572-1582 -/
def isAccountableMapping (file : Option OpenFile) (vmFlags : ULong) : Bool :=
  if file.any OpenFile.isHugepages then false
  else decide (vmFlags &&& (VM_NORESERVE ||| VM_SHARED ||| VM_WRITE) = VM_WRITE)

/-- What `mmap_region` asks of the rest of the kernel. -/
structure RegionAnswers where
  munmap : MunmapAnswers
  expand : MergeAnswers
  /-- `vm_area_alloc` fails. -/
  allocFails : Bool
  /-- The file's own `mmap`: the area as it leaves it. -/
  callMmap : VmAreaStruct → Except Errno VmAreaStruct
  /-- `mapping_map_writable`. -/
  mapWritable : Option Errno
  merge : MergeAnswers
  /-- `shmem_zero_setup`: the file and the operations of a shared anonymous area. -/
  shmemZeroSetup : Except Errno (OpenFile × VmOps)
  denyWriteExec : ULong → Bool
  archValidateFlags : ULong → Bool
  /-- `vma_iter_prealloc` fails. -/
  preallocFails : Bool

/-- The arguments of `mmap_region` once `VM_ACCOUNT` is decided. -/
structure RegionRequest where
  file : Option OpenFile
  addr : ULong
  len : ULong
  vmFlags : ULong
  pgoff : ULong

def RegionRequest.stop (req : RegionRequest) : ULong := req.addr + req.len

def RegionRequest.pglen (req : RegionRequest) : ULong := bytesToPages req.len

namespace AddressSpace

/-! ## `mmap_region` -/

/-- Check next.
SOURCE: mm/mmap.c:2794-2801 -/
def expandsNext (as : AddressSpace) (req : RegionRequest) (next : Ptr) : Bool :=
  decide ((as.heap next).vmStart = req.stop) && (as.heap next).vmPolicy.isNone &&
    canVmaMergeBefore (as.heap next) req.vmFlags none req.file (req.pgoff + req.pglen) none none

/-- Check prev, where `vma` is the next area if that can be expanded.
SOURCE: mm/mmap.c:2803-2814 -/
def expandsPrev (as : AddressSpace) (req : RegionRequest) (vma : Option Ptr) (prev : Ptr) : Bool :=
  decide ((as.heap prev).vmEnd = req.addr) && (as.heap prev).vmPolicy.isNone &&
    match vma with
    | some n =>
      canVmaMergeAfter (as.heap prev) req.vmFlags (as.heap n).anonVma req.file req.pgoff
        (as.heap n).vmUserfaultfdCtx none
    | none => canVmaMergeAfter (as.heap prev) req.vmFlags none req.file req.pgoff none none

/-- The attempt to expand an old mapping.
SOURCE: mm/mmap.c:2793-2824 -/
def expandRegion (ans : MergeAnswers) (as : AddressSpace) (prev next : Option Ptr)
    (req : RegionRequest) : Option Ptr × AddressSpace :=
  let vma := next.filter (as.expandsNext req)
  let mergeEnd := vma.elim req.stop (fun n => (as.heap n).vmEnd)
  match prev.filter (as.expandsPrev req vma), vma with
  | some p, _ =>
    match vmaExpand ans as p (as.heap p).vmStart mergeEnd (as.heap p).vmPgoff next with
    | (none, as) => (some p, as)
    | (some _, as) => (none, as)
  | none, some n =>
    match vmaExpand ans as n req.addr mergeEnd ((as.heap n).vmPgoff - req.pglen) next with
    | (none, as) => (some n, as)
    | (some _, as) => (none, as)
  | none, none => (none, as)

/-- The new area is checked and put into the tree.
SOURCE: mm/mmap.c:2902-2919 -/
def linkRegion (ans : RegionAnswers) (as : AddressSpace) (v : VmAreaStruct) :
    Except Errno (Ptr × ULong) × AddressSpace :=
  if ans.denyWriteExec v.vmFlags then (.error EACCES, as)
  else if ¬ ans.archValidateFlags v.vmFlags then (.error EINVAL, as)
  else if ans.preallocFails then (.error ENOMEM, as)
  else (.ok (as.fresh, v.vmFlags), ((as.vmAreaAlloc v).vmaIterStore as.fresh).addMapCount 1)

/-- From `cannot_expand:` to the end of the cases: a new area, or one that could be merged after
the file had changed its flags. The flags that are returned are `vm_flags` of the source.
SOURCE: mm/mmap.c:2825-2941 -/
def newRegion (ans : RegionAnswers) (as : AddressSpace) (prev : Option Ptr)
    (req : RegionRequest) : Except Errno (Ptr × ULong) × AddressSpace :=
  if ans.allocFails then (.error ENOMEM, as)
  else
    let v := newArea req.addr req.stop req.vmFlags req.pgoff
    match req.file with
    | some file =>
      match ans.callMmap (v.setFile file) with
      | .error e => (.error e, as)
      | .ok v =>
        match if v.isSharedMaywrite then ans.mapWritable else none with
        | some e => (.error e, as)
        | none =>
          if v.vmStart ≠ req.addr then (.error EINVAL, as.warnOn True)
          else if req.vmFlags ≠ v.vmFlags ∧ prev.isSome then
            match vmaMergeNewVma ans.merge as prev v v.vmStart v.vmEnd v.vmPgoff with
            | (some merged, as) => (.ok (merged, (as.heap merged).vmFlags), as)
            | (none, as) => linkRegion ans as v
          else linkRegion ans as v
    | none =>
      if hasFlag req.vmFlags VM_SHARED then
        match ans.shmemZeroSetup with
        | .error e => (.error e, as)
        | .ok (file, ops) => linkRegion ans as { v.setFile file with vmOps := some ops }
      else linkRegion ans as v.setAnonymous

/-- From `expanded:` on.
SOURCE: mm/mmap.c:2943-2968 -/
def finishRegion (as : AddressSpace) (vma : Ptr) (vmFlags pages : ULong) : AddressSpace :=
  let as := as.modifyCounters (fun c => c.vmStatAccount vmFlags pages)
  let as :=
    if hasFlag vmFlags VM_LOCKED then
      if hasFlag vmFlags VM_SPECIAL ∨ (as.heap vma).isDax ∨
          hasFlag (as.heap vma).vmFlags VM_HUGETLB then
        as.modify vma (VmAreaStruct.clearFlags VM_LOCKED_MASK)
      else as.modifyCounters (fun c => c.addLockedVm pages)
    else as
  as.modify vma (VmAreaStruct.setFlags VM_SOFTDIRTY)

/-- `mmap_region` once the range is unmapped and its pages are charged.
SOURCE: mm/mmap.c:2785-2996 -/
def mapRegion (ans : RegionAnswers) (as : AddressSpace) (req : RegionRequest) :
    Except Errno ULong × AddressSpace :=
  let next := as.vmaNext req.addr
  let prev := as.vmaPrev req.addr
  let expanded :=
    if hasFlag req.vmFlags VM_SPECIAL then (none, as) else expandRegion ans.expand as prev next req
  match expanded with
  | (some vma, as) => (.ok req.addr, finishRegion as vma req.vmFlags req.pglen)
  | (none, as) =>
    match newRegion ans as prev req with
    | (.error e, as) => (.error e, as)
    | (.ok (vma, vmFlags), as) => (.ok req.addr, finishRegion as vma vmFlags req.pglen)

/-- `mmap_region` once the range is unmapped: a private writable mapping is charged for.
SOURCE: mm/mmap.c:2775-2996 -/
def chargeAndMap (env : MmEnv) (ans : RegionAnswers) (as : AddressSpace) (req : RegionRequest) :
    Except Errno ULong × AddressSpace :=
  if isAccountableMapping req.file req.vmFlags then
    if env.securityVmEnoughMemory req.pglen then (.error ENOMEM, as)
    else
      let charged : ℤ := req.pglen.toNat
      let as := as.modifyCounters (fun c => c.addCommitted charged)
      match mapRegion ans as { req with vmFlags := req.vmFlags ||| VM_ACCOUNT } with
      | (.error e, as) => (.error e, as.modifyCounters (fun c => c.addCommitted (-charged)))
      | (.ok addr, as) => (.ok addr, as)
  else mapRegion ans as req

/-- `mmap_region`.
SOURCE: mm/mmap.c:2740-2996 -/
def mmapRegion (env : MmEnv) (ans : RegionAnswers) (as : AddressSpace) (req : RegionRequest) :
    Except Errno ULong × AddressSpace :=
  if ¬ mayExpandVm env as.toMm req.vmFlags req.pglen ∧
      ¬ mayExpandVm env as.toMm req.vmFlags
        (req.pglen - countVmaPagesRange as.toMm req.addr req.stop) then
    (.error ENOMEM, as)
  else
    match as.doVmiMunmap env ans.munmap req.addr req.len with
    | (some _, as) => (.error ENOMEM, as)
    | (none, as) => as.chargeAndMap env ans req

end AddressSpace

/-! ## `brk` -/

/-- What `do_brk_flags` asks of the allocator. -/
structure BrkAnswers where
  munmap : MunmapAnswers
  /-- `vma_iter_prealloc` fails. -/
  preallocFails : Bool
  /-- `vm_area_alloc` or the store fails. -/
  noMemory : Bool

namespace AddressSpace

/-- The heap area can be expanded.
SOURCE: mm/mmap.c:3173-3175 -/
def expandsBrk (as : AddressSpace) (addr flags : ULong) (vma : Ptr) : Bool :=
  decide ((as.heap vma).vmEnd = addr) && (as.heap vma).vmPolicy.isNone &&
    canVmaMergeAfter (as.heap vma) flags none none (bytesToPages addr) none none

/-- The label `out:` of `do_brk_flags`. -/
def finishBrk (as : AddressSpace) (vma : Ptr) (flags pages : ULong) : AddressSpace :=
  let as := as.modifyCounters (fun c =>
    let c := { c with totalVm := c.totalVm + pages, dataVm := c.dataVm + pages }
    if hasFlag flags VM_LOCKED then c.addLockedVm pages else c)
  as.modify vma (VmAreaStruct.setFlags VM_SOFTDIRTY)

/-- `do_brk_flags`.
SOURCE: mm/mmap.c:3149-3228 -/
def doBrkFlags (env : MmEnv) (ans : BrkAnswers) (as : AddressSpace) (vma : Option Ptr)
    (addr len flags : ULong) : Option Errno × AddressSpace :=
  let flags := flags ||| vmDataDefaultFlags env ||| VM_ACCOUNT ||| as.counters.defFlags
  let pages := bytesToPages len
  if ¬ mayExpandVm env as.toMm flags pages then (some ENOMEM, as)
  else if as.mapCount > env.sysctlMaxMapCount then (some ENOMEM, as)
  else if env.securityVmEnoughMemory pages then (some ENOMEM, as)
  else
    let charged := as.modifyCounters (fun c => c.addCommitted pages.toNat)
    let unacctFail :=
      (some ENOMEM, charged.modifyCounters (fun c => c.addCommitted (-(pages.toNat : ℤ))))
    match vma.filter (as.expandsBrk addr flags) with
    | some p =>
      if ans.preallocFails then unacctFail
      else
        let as := charged.modify p (fun v => v.setRange v.vmStart (addr + len) v.vmPgoff)
        let as := as.modify p (VmAreaStruct.setFlags VM_SOFTDIRTY)
        (none, finishBrk (as.vmaIterStore p) p flags pages)
    | none =>
      if ans.noMemory then unacctFail
      else
        let new := charged.fresh
        let as := charged.vmAreaAlloc
          (newArea addr (addr + len) flags (bytesToPages addr)).setAnonymous
        (none, finishBrk ((as.vmaIterStore new).addMapCount 1) new flags pages)

/-- `mm->brk = brk`. -/
def setBrk (as : AddressSpace) (brk : ULong) : AddressSpace :=
  as.modifyCounters (fun c => { c with brk := brk })

/-- Everything of `brk` after the page rounding and the hook.
SOURCE: mm/mmap.c:231-287 -/
def brkApply (env : MmEnv) (ans : BrkAnswers) (as : AddressSpace) (brk newbrk oldbrk : ULong) :
    ULong × AddressSpace :=
  let origbrk := as.counters.brk
  if oldbrk = newbrk then (brk, as.setBrk brk)
  else if brk ≤ origbrk then
    match as.findVmaIntersection newbrk oldbrk with
    | none => (origbrk, as)
    | some brkvma =>
      if (as.heap brkvma).vmStart ≥ oldbrk then (origbrk, as)
      else
        match (as.setBrk brk).doVmiAlignMunmap env ans.munmap brkvma newbrk oldbrk with
        | (some _, as) => (origbrk, as.setBrk origbrk)
        | (none, as) => (brk, as)
  else if ¬ checkBrkLimits env as.toMm oldbrk (newbrk - oldbrk) then (origbrk, as)
  else if (as.findVmaIntersection oldbrk
      (newbrk + BitVec.ofNat 64 pageSize + env.stackGuardGap)).any (fun next =>
        decide (newbrk + BitVec.ofNat 64 pageSize > vmStartGap env (as.heap next).area)) then
    (origbrk, as)
  else
    let brkvma := (as.vmaPrev oldbrk).filter (fun p =>
      decide (as.counters.startBrk < (as.heap p).vmEnd))
    match as.doBrkFlags env ans brkvma oldbrk (newbrk - oldbrk) 0 with
    | (some _, as) => (origbrk, as)
    | (none, as) => (brk, as.setBrk brk)

/-- `brk`, called by `current` with registry `l`.
SOURCE: mm/mmap.c:181-288 -/
def brk (env : MmEnv) (ans : BrkAnswers) (find : PidT → Option TaskStruct) (current : TaskStruct)
    (l : MemoryList) (as : AddressSpace) (brk : ULong) : ULong × AddressSpace :=
  if env.lockKilled then (EINTR.ptr, as)
  else if brkRefused env as.toMm brk then (as.counters.brk, as)
  else
    let newbrk := pageAlign brk
    let oldbrk := pageAlign as.counters.brk
    if ¬ isRequestAccepted find current.pid (newbrk - oldbrk) l then (as.counters.brk, as)
    else as.brkApply env ans brk newbrk oldbrk

/-- What `check_brk_limits` returns, as a word.
SOURCE: mm/mmap.c:168-178 -/
def brkLimitsError (env : MmEnv) (as : AddressSpace) (addr len : ULong) : ULong :=
  let mappedAddr := getUnmappedArea env none addr len 0 MAP_FIXED
  if isErrValue mappedAddr then mappedAddr
  else if mlockFutureOk env as.toMm as.counters.defFlags len then 0 else EAGAIN.ptr

/-- `vm_brk_flags`. The result is a word, because the error of `check_brk_limits` is passed on.
SOURCE: mm/mmap.c:3230-3274 -/
def vmBrkFlags (env : MmEnv) (ans : BrkAnswers) (as : AddressSpace) (addr request flags : ULong) :
    ULong × AddressSpace :=
  let len := pageAlign request
  if len < request then (ENOMEM.ptr, as)
  else if len = 0 then (0, as)
  else if flags &&& ~~~ VM_EXEC ≠ 0 then (EINVAL.ptr, as)
  else if env.lockKilled then (EINTR.ptr, as)
  else if brkLimitsError env as addr len ≠ 0 then (brkLimitsError env as addr len, as)
  else
    match as.doVmiMunmap env ans.munmap addr len with
    | (some e, as) => (e.ptr, as)
    | (none, as) =>
      match as.doBrkFlags env ans (as.vmaPrev addr) addr len flags with
      | (some e, as) => (e.ptr, as)
      | (none, as) => (0, as)

/-! ## `insert_vm_struct` -/

/-- `vma_link`.
SOURCE: mm/mmap.c:405-428 -/
def vmaLink (preallocFails : Bool) (as : AddressSpace) (v : VmAreaStruct) :
    Option Errno × AddressSpace :=
  if preallocFails then (some ENOMEM, as)
  else (none, ((as.vmAreaAlloc v).vmaIterStore as.fresh).addMapCount 1)

/-- `insert_vm_struct`.
SOURCE: mm/mmap.c:3348-3384 -/
def insertVmStruct (env : MmEnv) (preallocFails : Bool) (as : AddressSpace) (v : VmAreaStruct) :
    Option Errno × AddressSpace :=
  let charged := vmaPages v.area
  if (as.findVmaIntersection v.vmStart v.vmEnd).isSome then (some ENOMEM, as)
  else if hasFlag v.vmFlags VM_ACCOUNT ∧ env.securityVmEnoughMemory charged then
    (some ENOMEM, as)
  else
    let accounted : ℤ := if hasFlag v.vmFlags VM_ACCOUNT then charged.toNat else 0
    let as := as.modifyCounters (fun c => c.addCommitted accounted)
    let as := as.warnOn (v.isAnonymous ∧ v.anonVma.isSome)
    let v := if v.isAnonymous then { v with vmPgoff := bytesToPages v.vmStart } else v
    match vmaLink preallocFails as v with
    | (some e, as) => (some e, as.modifyCounters (fun c => c.addCommitted (-accounted)))
    | (none, as) => (none, as)

/-- `__install_special_mapping`.
SOURCE: mm/mmap.c:3598-3634 -/
def installSpecialMapping (env : MmEnv) (allocFails preallocFails : Bool) (as : AddressSpace)
    (addr len vmFlags : ULong) : Option Errno × AddressSpace :=
  if allocFails then (some ENOMEM, as)
  else
    let flags := (vmFlags ||| as.counters.defFlags ||| VM_DONTEXPAND ||| VM_SOFTDIRTY) &&&
      ~~~ VM_LOCKED_MASK
    let v := { newArea addr (addr + len) flags 0 with vmOps := some ⟨true⟩ }
    match as.insertVmStruct env preallocFails v with
    | (some e, as) => (some e, as)
    | (none, as) => (none, as.modifyCounters (fun c => c.vmStatAccount flags (bytesToPages len)))

/-! ## Growing a stack area -/

end AddressSpace

/-- What the growth of a stack area asks of the rest of the kernel. -/
structure StackAnswers where
  rlimitStack : ULong
  /-- `mas_preallocate` fails. -/
  preallocFails : Bool
  /-- The `anon_vma` that `anon_vma_prepare` gives an area without one. -/
  anonVma : Option Handle

namespace AddressSpace

/-- `anon_vma_prepare`. -/
def anonVmaPrepare (ans : StackAnswers) (as : AddressSpace) (vma : Ptr) : Option AddressSpace :=
  if (as.heap vma).anonVma.isSome then some as
  else
    ans.anonVma.map (fun x =>
      as.modify vma (fun v => { v with anonVma := some x, anonVmaChain := x :: v.anonVmaChain }))

/-- `acct_stack_growth`, where no range is for huge pages only.
SOURCE: mm/mmap.c:1949-1981 -/
def acctStackGrowth (env : MmEnv) (ans : StackAnswers) (as : AddressSpace) (flags size grow : ULong) :
    Option Errno :=
  if ¬ mayExpandVm env as.toMm flags grow then some ENOMEM
  else if size > ans.rlimitStack then some ENOMEM
  else if ¬ mlockFutureOk env as.toMm flags (pagesToBytes grow) then some ENOMEM
  else if env.securityVmEnoughMemory grow then some ENOMEM
  else none

/-- The area below keeps the stack from growing to `address`.
SOURCE: mm/mmap.c:2102-2110 -/
def guardGapHit (env : MmEnv) (as : AddressSpace) (address : ULong) (prev : Ptr) : Bool :=
  !hasFlag (as.heap prev).vmFlags VM_GROWSDOWN && (as.heap prev).isAccessible &&
    decide (address - (as.heap prev).vmEnd < env.stackGuardGap)

/-- The counters and bounds of an area that grows down.
SOURCE: mm/mmap.c:2155-2163 -/
def growDown (as : AddressSpace) (vma : Ptr) (address grow : ULong) : AddressSpace :=
  let v := as.heap vma
  let as := as.modifyCounters (fun c =>
    let c := if hasFlag v.vmFlags VM_LOCKED then c.addLockedVm grow else c
    c.vmStatAccount v.vmFlags grow)
  (as.modify vma (fun v => v.setRange address v.vmEnd (v.vmPgoff - grow))).vmaIterStore vma

/-- `expand_downwards`; `FIRST_USER_ADDRESS` is zero.
SOURCE: mm/mmap.c:2088-2175 -/
def expandDownwards (env : MmEnv) (ans : StackAnswers) (as : AddressSpace) (vma : Ptr)
    (address : ULong) : Option Errno × AddressSpace :=
  let v := as.heap vma
  let address := alignDown pageShift address
  if ¬ hasFlag v.vmFlags VM_GROWSDOWN then (some EFAULT, as)
  else if address < env.mmapMinAddr then (some EPERM, as)
  else if (as.vmaPrev v.vmStart).any (as.guardGapHit env address) then (some ENOMEM, as)
  else if ans.preallocFails then (some ENOMEM, as)
  else
    match as.anonVmaPrepare ans vma with
    | none => (some ENOMEM, as)
    | some as =>
      if address < v.vmStart then
        let grow := bytesToPages (v.vmStart - address)
        if ¬ grow ≤ v.vmPgoff then (some ENOMEM, as)
        else
          match as.acctStackGrowth env ans v.vmFlags (v.vmEnd - address) grow with
          | some e => (some e, as)
          | none =>
            (none, (as.modifyCounters (fun c => c.addCommitted grow.toNat)).growDown vma address
              grow)
      else (none, as)

/-- `find_vma`. -/
def findVma (as : AddressSpace) (addr : ULong) : Option Ptr := as.mt.find addr.toNat (2 ^ 64)

/-- `find_extend_vma_locked`.
SOURCE: mm/mmap.c:2221-2238 -/
def findExtendVmaLocked (env : MmEnv) (ans : StackAnswers) (as : AddressSpace) (addr : ULong) :
    Option Ptr × AddressSpace :=
  let addr := alignDown pageShift addr
  match as.findVma addr with
  | none => (none, as)
  | some vma =>
    if (as.heap vma).vmStart ≤ addr then (some vma, as)
    else
      match as.expandDownwards env ans vma addr with
      | (some _, as) => (none, as)
      | (none, as) => (some vma, as)

/-- `expand_stack`, where no area grows up.
SOURCE: mm/mmap.c:2264-2290 -/
def expandStack (env : MmEnv) (ans : StackAnswers) (as : AddressSpace) (addr : ULong) :
    Option Ptr × AddressSpace :=
  if env.lockKilled then (none, as)
  else
    match as.findVma addr with
    | none => (none, as)
    | some vma =>
      if (as.heap vma).vmStart ≤ addr then (some vma, as)
      else
        match as.expandDownwards env ans vma addr with
        | (some _, as) => (none, as)
        | (none, as) => (some vma, as)

end AddressSpace

end UsacKernel.Model
