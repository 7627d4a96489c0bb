import UsacKernel.Model.AddressSpace

/-!
# Making a mapping

The functions of `mm/mmap.c` that change the number of mapped pages on the way of `brk`
and `mmap`: `do_brk_flags`, and `do_mmap` with `mmap_region` under it. They are the same
in `mm/mmap.c` and `files/originalmmap.c`. `vm_mmap_pgoff` is in `mm/util.c`, which the
repository does not have; it asks the security module, takes the mmap lock and calls
`do_mmap`.
-/

set_option autoImplicit false

namespace UsacKernel.Model

/-! ## `do_brk_flags` and what `brk` checks before it -/

/-- `check_brk_limits`.
SOURCE: mm/mmap.c:168-178 -/
def checkBrkLimits (env : MmEnv) (mm : MmStruct) (addr len : ULong) : Bool :=
  if isErrValue (getUnmappedArea env none addr len 0 MAP_FIXED) then false
  else mlockFutureOk env mm mm.defFlags len

/-- `vm_start_gap`, in a configuration without user shadow stacks, which have a guard gap of
their own. -/
def vmStartGap (env : MmEnv) (v : VmArea) : ULong :=
  let gap := if hasFlag v.vmFlags VM_GROWSDOWN then env.stackGuardGap else 0
  if v.vmStart - gap > v.vmStart then 0 else v.vmStart - gap

/-- `do_brk_flags` with `flags` zero, as `brk` calls it. Whether the heap area is
expanded or a new one is made, one allocation can fail.
SOURCE: mm/mmap.c:3149-3228 -/
def doBrkFlags (env : MmEnv) (mm : MmStruct) (addr len : ULong) : Option Errno × MmStruct :=
  let flags := vmDataDefaultFlags env ||| VM_ACCOUNT ||| mm.defFlags
  let pages := bytesToPages len
  if ¬ mayExpandVm env mm flags pages then (some ENOMEM, mm)
  else if env.sysctlMaxMapCount < mm.mapCount then (some ENOMEM, mm)
  else if env.securityVmEnoughMemory pages then (some ENOMEM, mm)
  else if env.regionError.isSome then (some ENOMEM, mm)
  else
    (none, { mm with
      vmas := insertVma mm ⟨addr, addr + len, flags⟩
      mapCount := if env.merges then mm.mapCount else mm.mapCount + 1
      totalVm := mm.totalVm + pages
      dataVm := mm.dataVm + pages
      lockedVm := if hasFlag flags VM_LOCKED then mm.lockedVm + pages else mm.lockedVm })

/-! ## `mmap_region` -/

/-- `accountable_mapping`.
SOURCE: mm/mmap.c:1572-1582 -/
def accountableMapping (file : Option File) (vmFlags : ULong) : Bool :=
  if file.any (fun f => f.hugeShift.isSome) then false
  else decide (vmFlags &&& (VM_NORESERVE ||| VM_SHARED ||| VM_WRITE) = VM_WRITE)

/-- The end of `mmap_region`: the page counters of the new area.
SOURCE: mm/mmap.c:2943-2954 -/
def accountRegion (env : MmEnv) (mm : MmStruct) (vmFlags pages : ULong) : MmStruct :=
  let mm := vmStatAccount mm vmFlags pages
  if hasFlag vmFlags VM_LOCKED ∧ env.countsLocked then
    { mm with lockedVm := mm.lockedVm + pages }
  else mm

/-- The flags of the area in the end: those that lock pages are cleared where such pages are not
counted.
SOURCE: mm/mmap.c:2947-2951 -/
def settledFlags (env : MmEnv) (vmFlags : ULong) : ULong :=
  if hasFlag vmFlags VM_LOCKED ∧ ¬ env.countsLocked then vmFlags &&& ~~~ VM_LOCKED_MASK
  else vmFlags

/-- `map_count` once the range has become part of one neighbouring area or of two. -/
def mergedCount (env : MmEnv) (mm : MmStruct) : ℤ :=
  if env.joinsBoth then mm.mapCount - 1 else mm.mapCount

/-- `mmap_region`. The limit on the address space is checked a second time with the
pages that the mapping will replace, and these are unmapped before the new area is made;
a failure after that leaves them unmapped.
SOURCE: mm/mmap.c:2740-2996 -/
def mmapRegion (env : MmEnv) (mm : MmStruct) (file : Option File) (addr len vmFlags : ULong) :
    ULong × MmStruct :=
  let stop := addr + len
  let pages := bytesToPages len
  if ¬ mayExpandVm env mm vmFlags pages ∧
      ¬ mayExpandVm env mm vmFlags (pages - countVmaPagesRange mm addr stop) then
    (ENOMEM.ptr, mm)
  else
    match doVmiMunmap env mm addr len with
    | (some _, mm) => (ENOMEM.ptr, mm)
    | (none, mm) =>
      if accountableMapping file vmFlags ∧ env.securityVmEnoughMemory pages then
        (ENOMEM.ptr, mm)
      else
        let vmFlags :=
          if accountableMapping file vmFlags then vmFlags ||| VM_ACCOUNT else vmFlags
        if env.merges then
          (addr, accountRegion env
            { mm with
              vmas := insertVma mm ⟨addr, stop, settledFlags env vmFlags⟩
              mapCount := mergedCount env mm } vmFlags pages)
        else
          match env.regionError with
          | some e => (e.ptr, mm)
          | none =>
            -- the file's own mmap may have changed the flags of the area
            let vmFlags := if file.isSome then env.regionFlags vmFlags else vmFlags
            (addr, accountRegion env
              { mm with
                vmas := insertVma mm ⟨addr, stop, settledFlags env vmFlags⟩
                mapCount :=
                  if file.isSome ∧ env.mergesLate then mergedCount env mm else mm.mapCount + 1 }
              vmFlags pages)

/-! ## `do_mmap` -/

/-- `round_hint_to_min`.
SOURCE: mm/mmap.c:1165-1172 -/
def roundHintToMin (env : MmEnv) (hint : ULong) : ULong :=
  let hint := Computation.alignDown pageShift hint
  if hint ≠ 0 ∧ hint < env.mmapMinAddr then pageAlign env.mmapMinAddr else hint

/-- `file_mmap_size_max`.
SOURCE: mm/mmap.c:1191-1208 -/
def fileMmapSizeMax (file : File) : ULong :=
  match file.inodeKind with
  | .sized => 0x7fffffffffffffff
  | .unsignedOffset => 0
  | .unsized => 0xffffffffffffffff

/-- `file_mmap_ok`.
SOURCE: mm/mmap.c:1210-1221 -/
def fileMmapOk (file : File) (pgoff len : ULong) : Bool :=
  let maxsize := fileMmapSizeMax file
  if maxsize ≠ 0 ∧ len > maxsize then false
  else decide (¬ pgoff > bytesToPages (maxsize - len))

/-- The checks that `MAP_PRIVATE`, and after them the shared types, end with.
SOURCE: mm/mmap.c:1343-1356 -/
def privateChecks (file : File) (vmFlags : ULong) : Except Errno ULong :=
  if ¬ file.modeRead then .error EACCES
  else if file.pathNoexec ∧ hasFlag vmFlags VM_EXEC then .error EPERM
  else if ¬ file.hasMmap then .error ENODEV
  else if hasFlag vmFlags VM_GROWSDOWN then .error EINVAL
  else .ok (if file.pathNoexec then vmFlags &&& ~~~ VM_MAYEXEC else vmFlags)

/-- The checks of a shared mapping of a file.
SOURCE: mm/mmap.c:1322-1342 -/
def sharedChecks (env : MmEnv) (file : File) (prot flags vmFlags : ULong) :
    Except Errno ULong :=
  if flags &&& ~~~ (env.legacyMapMask ||| file.mmapSupportedFlags) ≠ 0 then .error EOPNOTSUPP
  else if hasFlag prot PROT_WRITE ∧ ¬ file.modeWrite then .error EACCES
  else if hasFlag prot PROT_WRITE ∧ file.isSwapfile then .error ETXTBSY
  else if file.isAppend ∧ file.modeWrite then .error EACCES
  else
    let vmFlags := vmFlags ||| VM_SHARED ||| VM_MAYSHARE
    privateChecks file
      (if ¬ file.modeWrite then vmFlags &&& ~~~ (VM_MAYWRITE ||| VM_SHARED) else vmFlags)

/-- The `switch` on the mapping type, with the flags it leaves for the rest.
SOURCE: mm/mmap.c:1302-1381 -/
def mapTypeChecks (env : MmEnv) (file : Option File) (len prot flags vmFlags pgoff : ULong) :
    Except Errno (ULong × ULong) :=
  match file with
  | some file =>
    if ¬ fileMmapOk file pgoff len then .error EOVERFLOW
    else if flags &&& MAP_TYPE = MAP_SHARED then
      (sharedChecks env file prot (flags &&& env.legacyMapMask) vmFlags).map
        (fun vmFlags => (vmFlags, flags &&& env.legacyMapMask))
    else if flags &&& MAP_TYPE = MAP_SHARED_VALIDATE then
      (sharedChecks env file prot flags vmFlags).map (fun vmFlags => (vmFlags, flags))
    else if flags &&& MAP_TYPE = MAP_PRIVATE then
      (privateChecks file vmFlags).map (fun vmFlags => (vmFlags, flags))
    else .error EINVAL
  | none =>
    if flags &&& MAP_TYPE = MAP_SHARED then
      if hasFlag vmFlags VM_GROWSDOWN then .error EINVAL
      else .ok (vmFlags ||| VM_SHARED ||| VM_MAYSHARE, flags)
    else if flags &&& MAP_TYPE = MAP_PRIVATE then .ok (vmFlags, flags)
    else .error EINVAL

/-- `MAP_NORESERVE`.
SOURCE: mm/mmap.c:1387-1395 -/
def noReserveFlags (env : MmEnv) (file : Option File) (flags vmFlags : ULong) : ULong :=
  if hasFlag flags MAP_NORESERVE ∧
      (¬ env.overcommitNever ∨ file.any (fun f => f.hugeShift.isSome)) then
    vmFlags ||| VM_NORESERVE
  else vmFlags

/-- `PROT_READ` implies `PROT_EXEC` for some personalities, unless the file is on a
`noexec` mount.
SOURCE: mm/mmap.c:1246-1248 -/
def execProt (env : MmEnv) (file : Option File) (prot : ULong) : ULong :=
  if hasFlag prot PROT_READ ∧ env.readImpliesExec ∧ ¬ file.any (fun f => f.pathNoexec) then
    prot ||| PROT_EXEC
  else prot

/-- The flags with which `do_mmap` goes on: `MAP_FIXED_NOREPLACE` implies `MAP_FIXED`.
SOURCE: mm/mmap.c:1251-1252 -/
def fixedFlags (flags : ULong) : ULong :=
  if hasFlag flags MAP_FIXED_NOREPLACE then flags ||| MAP_FIXED else flags

/-- The address to start the search from.
SOURCE: mm/mmap.c:1254-1255 -/
def hintAddr (env : MmEnv) (flags addr : ULong) : ULong :=
  if ¬ hasFlag flags MAP_FIXED then roundHintToMin env addr else addr

/-- The flags of the new area before the checks on the mapping type.
SOURCE: mm/mmap.c:1292-1293 -/
def newVmFlags (env : MmEnv) (mm : MmStruct) (prot flags : ULong) : ULong :=
  env.calcVmProtBits prot ||| env.calcVmFlagBits flags ||| mm.defFlags |||
    VM_MAYREAD ||| VM_MAYWRITE ||| VM_MAYEXEC

/-- `do_mmap` once the address is chosen.
SOURCE: mm/mmap.c:1277-1402 -/
def doMmapAt (env : MmEnv) (mm : MmStruct) (file : Option File)
    (addr len prot flags pgoff : ULong) : ULong × MmStruct :=
  if hasFlag flags MAP_FIXED_NOREPLACE ∧ (vmaFind mm addr (addr + len)).isSome then
    (EEXIST.ptr, mm)
  else if hasFlag flags MAP_LOCKED ∧ ¬ env.canDoMlock then (EPERM.ptr, mm)
  else if ¬ mlockFutureOk env mm (newVmFlags env mm prot flags) len then (EAGAIN.ptr, mm)
  else
    match mapTypeChecks env file len prot flags (newVmFlags env mm prot flags) pgoff with
    | .error e => (e.ptr, mm)
    | .ok (vmFlags, flags) =>
      mmapRegion env mm file addr len (noReserveFlags env file flags vmFlags)

/-- `do_mmap` once the length is page aligned.
SOURCE: mm/mmap.c:1259-1402 -/
def doMmapAligned (env : MmEnv) (mm : MmStruct) (file : Option File)
    (hint len prot flags pgoff : ULong) : ULong × MmStruct :=
  if len = 0 then (ENOMEM.ptr, mm)
  else if pgoff + bytesToPages len < pgoff then (EOVERFLOW.ptr, mm)
  else if env.sysctlMaxMapCount < mm.mapCount then (ENOMEM.ptr, mm)
  else
    let addr := getUnmappedArea env file hint len pgoff flags
    if isErrValue addr then (addr, mm)
    else doMmapAt env mm file addr len prot flags pgoff

/-- `do_mmap`, called with `vm_flags` zero.
SOURCE: mm/mmap.c:1226-1403 -/
def doMmap (env : MmEnv) (mm : MmStruct) (file : Option File)
    (addr len prot flags pgoff : ULong) : ULong × MmStruct :=
  if len = 0 then (EINVAL.ptr, mm)
  else
    doMmapAligned env mm file (hintAddr env (fixedFlags flags) addr) (pageAlign len)
      (execProt env file prot) (fixedFlags flags) pgoff

/-- `vm_mmap_pgoff`, as far as its callers here depend on it. -/
def vmMmapPgoff (env : MmEnv) (mm : MmStruct) (file : Option File)
    (addr len prot flags pgoff : ULong) : ULong × MmStruct :=
  match env.securityMmapFile with
  | some e => (e.ptr, mm)
  | none =>
    if env.lockKilled then (EINTR.ptr, mm)
    else doMmap env mm file addr len prot flags pgoff

end UsacKernel.Model
