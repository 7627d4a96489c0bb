import UsacKernel.Computation.TestThenAct
import UsacKernel.Model.Mapping
import UsacKernel.Model.MemoryLimit

/-!
# `brk`, `mmap` and `tamalloc`

The system calls that allocate. `brk` and `ksys_mmap_pgoff` are modelled twice: as
`mm/mmap.c` has them, with the call of `is_request_accepted`, and, in the namespace
`Original`, as `files/originalmmap.c` has them, without it. What the two texts share is
in functions of its own: the part of `brk` before the hook and the part after it, and
the part of `ksys_mmap_pgoff` before the hook.
-/

set_option autoImplicit false

namespace UsacKernel.Model

/-! ## `brk` -/

/-- The label `out`: the break is put back.
SOURCE: mm/mmap.c:284-287 -/
def brkOut (origbrk : ULong) (mm : MmStruct) : ULong × MmStruct :=
  (origbrk, { mm with brk := origbrk })

/-- The lowest break the caller may ask for.
SOURCE: mm/mmap.c:196-208 -/
def minBrk (env : MmEnv) (mm : MmStruct) : ULong :=
  if env.compatBrk then mm.endData else mm.startBrk

/-- The checks before the page rounding.
SOURCE: mm/mmap.c:209-220 -/
def brkRefused (env : MmEnv) (mm : MmStruct) (brk : ULong) : Bool :=
  decide (brk < minBrk env mm) ||
    env.checkDataRlimit brk mm.startBrk mm.endData mm.startData

/-- Everything after the page rounding and the hook.
SOURCE: mm/mmap.c:231-287 -/
def brkApply (env : MmEnv) (mm : MmStruct) (brk newbrk oldbrk : ULong) : ULong × MmStruct :=
  if oldbrk = newbrk then (brk, { mm with brk := brk })
  else if brk ≤ mm.brk then
    match vmaFind mm newbrk oldbrk with
    | none => brkOut mm.brk mm
    | some brkvma =>
      if brkvma.vmStart ≥ oldbrk then brkOut mm.brk mm
      else
        -- the break is moved before the unmapping and put back if that fails
        match doVmiAlignMunmap env { mm with brk := brk } brkvma newbrk oldbrk with
        | (some _, mm') => brkOut mm.brk mm'
        | (none, mm') => (brk, mm')
  else if ¬ checkBrkLimits env mm oldbrk (newbrk - oldbrk) then brkOut mm.brk mm
  else if (vmaFind mm oldbrk (newbrk + BitVec.ofNat 64 pageSize + env.stackGuardGap)).any
      (fun next => decide (newbrk + BitVec.ofNat 64 pageSize > vmStartGap env next)) then
    brkOut mm.brk mm
  else
    match doBrkFlags env mm oldbrk (newbrk - oldbrk) with
    | (some _, mm') => brkOut mm.brk mm'
    | (none, mm') => (brk, { mm' with brk := brk })

/-- `brk`, called by `current` with registry `l`.
SOURCE: mm/mmap.c:181-288 -/
def brk (env : MmEnv) (find : PidT → Option TaskStruct) (current : TaskStruct) (l : MemoryList)
    (mm : MmStruct) (brk : ULong) : ULong × MmStruct :=
  if env.lockKilled then (EINTR.ptr, mm)
  else if brkRefused env mm brk then brkOut mm.brk mm
  else
    let newbrk := pageAlign brk
    let oldbrk := pageAlign mm.brk
    if ¬ isRequestAccepted find current.pid (newbrk - oldbrk) l then brkOut mm.brk mm
    else brkApply env mm brk newbrk oldbrk

/-- `brk` before the change.
SOURCE: files/originalmmap.c:178-278 -/
def Original.brk (env : MmEnv) (mm : MmStruct) (brk : ULong) : ULong × MmStruct :=
  if env.lockKilled then (EINTR.ptr, mm)
  else if brkRefused env mm brk then brkOut mm.brk mm
  else brkApply env mm brk (pageAlign brk) (pageAlign mm.brk)

/-! ## `ksys_mmap_pgoff` -/

/-- The arguments of `ksys_mmap_pgoff`. -/
structure MmapArgs where
  addr : ULong
  len : ULong
  prot : ULong
  flags : ULong
  fd : ULong
  pgoff : ULong
  deriving DecidableEq

/-- The part before the hook: the file, if there is one, and the length, rounded up for
huge pages.
SOURCE: mm/mmap.c:1412-1441 -/
def mmapFile (env : MmEnv) (args : MmapArgs) : Except Errno (Option File × ULong) :=
  if ¬ hasFlag args.flags MAP_ANONYMOUS then
    match env.fget args.fd with
    | none => .error EBADF
    | some file =>
      match file.hugeShift with
      | some shift => .ok (some file, Computation.alignUp shift.val args.len)
      | none =>
        if hasFlag args.flags MAP_HUGETLB then .error EINVAL else .ok (some file, args.len)
  else if hasFlag args.flags MAP_HUGETLB then
    match env.hstateSizelog ((args.flags >>> MAP_HUGE_SHIFT) &&& MAP_HUGE_MASK) with
    | none => .error EINVAL
    | some shift =>
      match env.hugetlbFileSetup (Computation.alignUp shift.val args.len) with
      | .error e => .error e
      | .ok file => .ok (some file, Computation.alignUp shift.val args.len)
  else .ok (none, args.len)

/-- `ksys_mmap_pgoff`, called by `current` with registry `l`.
SOURCE: mm/mmap.c:1405-1456 -/
def ksysMmapPgoff (env : MmEnv) (find : PidT → Option TaskStruct) (current : TaskStruct)
    (l : MemoryList) (mm : MmStruct) (args : MmapArgs) : ULong × MmStruct :=
  match mmapFile env args with
  | .error e => (e.ptr, mm)
  | .ok (file, len) =>
    if ¬ isRequestAccepted find current.pid len l then (ENOMEM.ptr, mm)
    else vmMmapPgoff env mm file args.addr len args.prot args.flags args.pgoff

/-- `ksys_mmap_pgoff` before the change.
SOURCE: files/originalmmap.c:1395-1438 -/
def Original.ksysMmapPgoff (env : MmEnv) (mm : MmStruct) (args : MmapArgs) :
    ULong × MmStruct :=
  match mmapFile env args with
  | .error e => (e.ptr, mm)
  | .ok (file, len) => vmMmapPgoff env mm file args.addr len args.prot args.flags args.pgoff

/-! ### `ksys_mmap_pgoff` between other calls

The test is made under `memory_list_mutex` and the mapping under the mmap lock, so calls
of tasks that share an address space can interleave between the two. -/

/-- A call of `ksys_mmap_pgoff`: who makes it, its arguments, and the answers of the rest
of the kernel. -/
structure MmapCall where
  caller : TaskStruct
  args : MmapArgs
  env : MmEnv

/-- `ksys_mmap_pgoff` in two steps, on the address space that the tasks of `tbl` share.
SOURCE: mm/mmap.c:1405-1456 -/
def mmapObject (tbl : TaskTable) (l : MemoryList) :
    Computation.TestThenAct MmStruct MmapCall ULong where
  test c mm :=
    match mmapFile c.env c.args with
    | .error e => some e.ptr
    | .ok (_, len) =>
      if ¬ isRequestAccepted (findTaskByVpid (tbl.sharing mm) c.caller) c.caller.pid len l then
        some ENOMEM.ptr
      else none
  act c mm :=
    match mmapFile c.env c.args with
    | .error e => (mm, e.ptr)
    | .ok (file, len) =>
      (vmMmapPgoff c.env mm file c.args.addr len c.args.prot c.args.flags c.args.pgoff).swap

/-- INTERNAL: the two steps together are `ksys_mmap_pgoff`. -/
theorem mmapObject_call (tbl : TaskTable) (l : MemoryList) (c : MmapCall) (mm : MmStruct) :
    (mmapObject tbl l).call c mm =
      (ksysMmapPgoff c.env (findTaskByVpid (tbl.sharing mm) c.caller) c.caller l mm c.args).swap := by
  simp only [Computation.TestThenAct.call, mmapObject, ksysMmapPgoff]
  cases mmapFile c.env c.args with
  | error e => rfl
  | ok p =>
    obtain ⟨file, len⟩ := p
    simp only
    cases isRequestAccepted (findTaskByVpid (tbl.sharing mm) c.caller) c.caller.pid len l <;> rfl

/-- INTERNAL: when no other call comes between its two steps, a call in a schedule is
`ksys_mmap_pgoff`. -/
theorem mmapObject_schedule_call {κ : Type} [DecidableEq κ] (tbl : TaskTable) (l : MemoryList)
    (c : Computation.TestThenAct.Config κ MmStruct MmapCall) (k : κ) (call : MmapCall)
    (hk : c.pending k = none) :
    ((mmapObject tbl l).schedule.final c [.test k call, .act k]).shared =
      (ksysMmapPgoff call.env (findTaskByVpid (tbl.sharing c.shared) call.caller) call.caller l
        c.shared call.args).2 := by
  rw [Computation.TestThenAct.schedule_call _ _ _ _ hk, mmapObject_call]
  rfl

/-! ## `julioz_tamalloc` -/

/-- `julioz_tamalloc`. `vm_mmap` at offset zero is `vm_mmap_pgoff`.
SOURCE: Proyecto2/p2-kernel-linux/kernel/usac/tamalloc.c:7-36 -/
def juliozTamalloc (env : MmEnv) (mm : MmStruct) (size : ULong) : ULong × MmStruct :=
  if size = 0 then (EINVAL.ptr, mm)
  else
    let alignedSize := pageAlign size
    if alignedSize = 0 then (ENOMEM.ptr, mm)
    else vmMmapPgoff env mm none 0 alignedSize (PROT_READ ||| PROT_WRITE)
      (MAP_PRIVATE ||| MAP_ANONYMOUS ||| MAP_NORESERVE) 0

/-- The part of `julioz_tamalloc` before `vm_mmap`: the error with which it returns, or the
length that it asks for.
SOURCE: Proyecto2/p2-kernel-linux/kernel/usac/tamalloc.c:12-27 -/
def tamallocRequest (size : ULong) : Except Errno ULong :=
  if size = 0 then .error EINVAL
  else if pageAlign size = 0 then .error ENOMEM
  else .ok (pageAlign size)

/-- INTERNAL: an error before `vm_mmap` is returned as it is; otherwise the call is
`vm_mmap` for the length asked for. -/
theorem juliozTamalloc_eq (env : MmEnv) (mm : MmStruct) (size : ULong) :
    juliozTamalloc env mm size =
      match tamallocRequest size with
      | .error e => (e.ptr, mm)
      | .ok len => vmMmapPgoff env mm none 0 len (PROT_READ ||| PROT_WRITE)
          (MAP_PRIVATE ||| MAP_ANONYMOUS ||| MAP_NORESERVE) 0 := by
  unfold juliozTamalloc tamallocRequest
  by_cases hzero : size = 0
  · rw [if_pos hzero, if_pos hzero]
  · simp only [hzero, if_false]
    by_cases halign : pageAlign size = 0
    · rw [if_pos halign, if_pos halign]
    · rw [if_neg halign, if_neg halign]

end UsacKernel.Model
