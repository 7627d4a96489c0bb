import UsacKernel.Model.Machine

/-!
# The address space of a process

`MmStruct` is the part of `struct mm_struct` that `mm/mmap.c` reads or writes on the way
of `brk` and `mmap`: the data-segment marks, the page counters and the areas in address
order. Areas that the kernel merges are kept here as neighbouring pieces, so that
`vmas` says which ranges are mapped; `mapCount` is a field of its own, as in the source.

`MmEnv` collects everything the same code asks of the rest of the kernel: resource
limits, security hooks, the search for a free range, allocations that may fail. Each
system call is a function of these answers, and the analysis quantifies over them.
-/

set_option autoImplicit false

namespace UsacKernel.Model

/-! ## Flag bits -/

def VM_READ : ULong := 0x1
def VM_WRITE : ULong := 0x2
def VM_EXEC : ULong := 0x4
def VM_SHARED : ULong := 0x8
def VM_MAYREAD : ULong := 0x10
def VM_MAYWRITE : ULong := 0x20
def VM_MAYEXEC : ULong := 0x40
def VM_MAYSHARE : ULong := 0x80
def VM_GROWSDOWN : ULong := 0x100
def VM_LOCKED : ULong := 0x2000
def VM_LOCKONFAULT : ULong := 0x80000
def VM_ACCOUNT : ULong := 0x100000
def VM_NORESERVE : ULong := 0x200000

/-- `VM_LOCKED_MASK`. -/
def VM_LOCKED_MASK : ULong := VM_LOCKED ||| VM_LOCKONFAULT

def MAP_SHARED : ULong := 0x1
def MAP_PRIVATE : ULong := 0x2
def MAP_SHARED_VALIDATE : ULong := 0x3
def MAP_TYPE : ULong := 0xf
def MAP_FIXED : ULong := 0x10
def MAP_ANONYMOUS : ULong := 0x20
def MAP_LOCKED : ULong := 0x2000
def MAP_NORESERVE : ULong := 0x4000
def MAP_HUGETLB : ULong := 0x40000
def MAP_FIXED_NOREPLACE : ULong := 0x100000
def MAP_HUGE_SHIFT : ℕ := 26
def MAP_HUGE_MASK : ULong := 0x3f

def PROT_READ : ULong := 0x1
def PROT_WRITE : ULong := 0x2
def PROT_EXEC : ULong := 0x4

/-- `flags & bit`. -/
def hasFlag (flags bit : ULong) : Bool := decide (flags &&& bit ≠ 0)

/-! ## Areas and files -/

/-- `struct vm_area_struct`: a mapped range and its flags. -/
structure VmArea where
  vmStart : ULong
  vmEnd : ULong
  vmFlags : ULong
  deriving DecidableEq

/-- The order of a huge page, between one page and the whole range. -/
structure HugeShift where
  val : ℕ
  page_le : 12 ≤ val
  lt_word : val < 64
  deriving DecidableEq

/-- What `file_mmap_size_max` looks at. -/
inductive InodeKind where
  | sized
  | unsignedOffset
  | unsized
  deriving DecidableEq

/-- What `mmap` looks at in an open file. -/
structure File where
  /-- The huge-page size of the file, when `is_file_hugepages`. -/
  hugeShift : Option HugeShift
  inodeKind : InodeKind
  modeRead : Bool
  modeWrite : Bool
  isSwapfile : Bool
  isAppend : Bool
  pathNoexec : Bool
  hasMmap : Bool
  mmapSupportedFlags : ULong
  deriving DecidableEq

/-- The modelled part of `struct mm_struct`. -/
structure MmStruct where
  brk : ULong
  startBrk : ULong
  startData : ULong
  endData : ULong
  totalVm : ULong
  execVm : ULong
  stackVm : ULong
  dataVm : ULong
  lockedVm : ULong
  mapCount : ℤ
  defFlags : ULong
  vmas : List VmArea
  deriving DecidableEq

/-- The answers of the rest of the kernel. -/
structure MmEnv where
  /-- `TASK_SIZE`. -/
  taskSize : ULong
  taskSize_mod : taskSize.toNat % 4096 = 0
  taskSize_le : taskSize.toNat ≤ 2 ^ 56
  mmapMinAddr : ULong
  stackGuardGap : ULong
  sysctlMaxMapCount : ℤ
  overcommitNever : Bool
  /-- `LEGACY_MAP_MASK`: the flags that `MAP_SHARED` keeps. -/
  legacyMapMask : ULong
  rlimitAs : ULong
  rlimitData : ULong
  rlimitDataMax : ULong
  rlimitMemlock : ULong
  ignoreRlimitData : Bool
  capIpcLock : Bool
  canDoMlock : Bool
  readImpliesExec : Bool
  /-- `CONFIG_COMPAT_BRK` without `current->brk_randomized`. -/
  compatBrk : Bool
  /-- `check_data_rlimit` of the new break, `start_brk`, `end_data`, `start_data`. -/
  checkDataRlimit : ULong → ULong → ULong → ULong → Bool
  /-- `mmap_write_lock_killable` is interrupted. -/
  lockKilled : Bool
  /-- The range search that `get_unmapped_area` selects for the file and the flags. -/
  getArea : Option File → ULong → ULong → ULong → ULong → ULong
  securityMmapAddr : ULong → Option Errno
  securityMmapFile : Option Errno
  /-- `security_vm_enough_memory_mm` refuses this many pages. -/
  securityVmEnoughMemory : ULong → Bool
  /-- A split, a store or a notification inside `do_vmi_align_munmap` fails. -/
  munmapError : Option Errno
  /-- The new range is merged into a neighbouring area. -/
  merges : Bool
  /-- The range is merged with the areas on both sides of it. -/
  joinsBoth : Bool
  /-- Otherwise: allocating, linking or calling the file's `mmap` fails. -/
  regionError : Option Errno
  /-- The flags of the area after the file's `mmap` has seen it. -/
  regionFlags : ULong → ULong
  /-- The area is merged after the file's `mmap` has changed its flags. -/
  mergesLate : Bool
  /-- Locked pages of the area are counted: it is not special, dax, huge or the gate. -/
  countsLocked : Bool
  calcVmProtBits : ULong → ULong
  calcVmFlagBits : ULong → ULong
  fget : ULong → Option File
  hstateSizelog : ULong → Option HugeShift
  hugetlbFileSetup : ULong → Except Errno File

/-- `VM_DATA_DEFAULT_FLAGS`: executable only under `READ_IMPLIES_EXEC`. -/
def vmDataDefaultFlags (env : MmEnv) : ULong :=
  VM_READ ||| VM_WRITE ||| (if env.readImpliesExec then VM_EXEC else 0) |||
    VM_MAYREAD ||| VM_MAYWRITE ||| VM_MAYEXEC

/-! ## Page counters -/

/-- `is_exec_mapping`. -/
def isExecMapping (flags : ULong) : Bool :=
  decide (flags &&& (VM_EXEC ||| VM_WRITE ||| VM_GROWSDOWN) = VM_EXEC)

/-- `is_stack_mapping`. -/
def isStackMapping (flags : ULong) : Bool :=
  decide (flags &&& VM_GROWSDOWN = VM_GROWSDOWN)

/-- `is_data_mapping`. -/
def isDataMapping (flags : ULong) : Bool :=
  decide (flags &&& (VM_WRITE ||| VM_SHARED ||| VM_GROWSDOWN) = VM_WRITE)

/-- `vm_stat_account`; a negative count is a wrapped one.
SOURCE: mm/mmap.c:3503-3513 -/
def vmStatAccount (mm : MmStruct) (flags npages : ULong) : MmStruct :=
  let mm := { mm with totalVm := mm.totalVm + npages }
  if isExecMapping flags then { mm with execVm := mm.execVm + npages }
  else if isStackMapping flags then { mm with stackVm := mm.stackVm + npages }
  else if isDataMapping flags then { mm with dataVm := mm.dataVm + npages }
  else mm

/-- `may_expand_vm`.
SOURCE: mm/mmap.c:3478-3501 -/
def mayExpandVm (env : MmEnv) (mm : MmStruct) (flags npages : ULong) : Bool :=
  if bytesToPages env.rlimitAs < mm.totalVm + npages then false
  else if isDataMapping flags ∧ bytesToPages env.rlimitData < mm.dataVm + npages then
    -- the workaround for a zero soft limit under a non-zero hard one
    if env.rlimitData = 0 ∧ mm.dataVm + npages ≤ bytesToPages env.rlimitDataMax then true
    else env.ignoreRlimitData
  else true

/-- `mlock_future_ok`.
SOURCE: mm/mmap.c:1174-1189 -/
def mlockFutureOk (env : MmEnv) (mm : MmStruct) (flags bytes : ULong) : Bool :=
  if ¬ hasFlag flags VM_LOCKED ∨ env.capIpcLock then true
  else decide (bytesToPages bytes + mm.lockedVm ≤ bytesToPages env.rlimitMemlock)

/-! ## Ranges -/

/-- `vma_pages`. -/
def vmaPages (v : VmArea) : ULong := bytesToPages (v.vmEnd - v.vmStart)

/-- The area meets `[start, end)`. -/
def VmArea.meets (v : VmArea) (start stop : ULong) : Bool :=
  decide (v.vmStart < stop ∧ start < v.vmEnd)

/-- The part of an area inside `[start, end)`. -/
def VmArea.clip (v : VmArea) (start stop : ULong) : VmArea :=
  { v with
    vmStart := if start < v.vmStart then v.vmStart else start
    vmEnd := if v.vmEnd < stop then v.vmEnd else stop }

/-- What is left of an area outside `[start, end)`, as the splits at the two ends
leave it. -/
def VmArea.cut (v : VmArea) (start stop : ULong) : List VmArea :=
  if v.meets start stop then
    (if v.vmStart < start then [{ v with vmEnd := start }] else []) ++
      (if stop < v.vmEnd then [{ v with vmStart := stop }] else [])
  else [v]

/-- The first area that meets `[start, end)`: `vma_find`, `find_vma_intersection`. -/
def vmaFind (mm : MmStruct) (start stop : ULong) : Option VmArea :=
  mm.vmas.find? (fun v => v.meets start stop)

/-- The pieces of areas inside `[start, end)`. -/
def detached (mm : MmStruct) (start stop : ULong) : List VmArea :=
  (mm.vmas.filter (fun v => v.meets start stop)).map (fun v => v.clip start stop)

/-- `count_vma_pages_range`.
SOURCE: mm/mmap.c:377-392 -/
def countVmaPagesRange (mm : MmStruct) (addr stop : ULong) : ULong :=
  ((detached mm addr stop).map vmaPages).sum

/-- Put an area in its place in the address order. -/
def insertVma (mm : MmStruct) (v : VmArea) : List VmArea :=
  mm.vmas.orderedInsert (fun a b => a.vmStart.toNat ≤ b.vmStart.toNat) v

/-- `remove_mt`, on the pieces that were detached, and the `locked_vm` that the caller
takes back for them.
SOURCE: mm/mmap.c:2298-2314 -/
def removeMt (mm : MmStruct) (pieces : List VmArea) : MmStruct :=
  pieces.foldl (fun mm v =>
    let mm := vmStatAccount mm v.vmFlags (-vmaPages v)
    if hasFlag v.vmFlags VM_LOCKED then { mm with lockedVm := mm.lockedVm - vmaPages v } else mm) mm

/-- `do_vmi_align_munmap`, from the first area `vma` of the range on. Splitting and
detaching change `map_count` by the change in the number of pieces.
SOURCE: mm/mmap.c:2529-2678 -/
def doVmiAlignMunmap (env : MmEnv) (mm : MmStruct) (vma : VmArea) (start stop : ULong) :
    Option Errno × MmStruct :=
  if vma.vmStart < start ∧ stop < vma.vmEnd ∧ env.sysctlMaxMapCount ≤ mm.mapCount then
    (some ENOMEM, mm)
  else
    match env.munmapError with
    | some e => (some e, mm)
    | none =>
      let vmas := mm.vmas.flatMap (fun v => v.cut start stop)
      let mm' := removeMt mm (detached mm start stop)
      (none, { mm' with
        vmas := vmas
        mapCount := mm.mapCount + (vmas.length - mm.vmas.length) })

/-- `do_vmi_munmap`.
SOURCE: mm/mmap.c:2696-2722 -/
def doVmiMunmap (env : MmEnv) (mm : MmStruct) (start len : ULong) : Option Errno × MmStruct :=
  if offsetInPage start ∨ env.taskSize < start ∨ env.taskSize - start < len then
    (some EINVAL, mm)
  else
    let stop := start + pageAlign len
    if stop = start then (some EINVAL, mm)
    else
      match vmaFind mm start stop with
      | none => (none, mm)
      | some vma => doVmiAlignMunmap env mm vma start stop

/-- `get_unmapped_area`, with the default `arch_mmap_check`.
SOURCE: mm/mmap.c:1831-1876 -/
def getUnmappedArea (env : MmEnv) (file : Option File) (addr len pgoff flags : ULong) : ULong :=
  if env.taskSize < len then ENOMEM.ptr
  else
    let pgoff := if file.isNone then 0 else pgoff
    let addr := env.getArea file addr len pgoff flags
    if isErrValue addr then addr
    else if env.taskSize - len < addr then ENOMEM.ptr
    else if offsetInPage addr then EINVAL.ptr
    else
      match env.securityMmapAddr addr with
      | some e => e.ptr
      | none => addr

end UsacKernel.Model
