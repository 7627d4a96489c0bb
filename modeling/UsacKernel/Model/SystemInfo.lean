import UsacKernel.Computation.Mealy
import UsacKernel.Model.Machine

/-!
# Memory and CPU of the whole system

`do_sysinfo` and `julioz_capture_memory_snapshot` of `kernel/sys.c`, and
`calculate_cpu_usage` with its initialisation from
`modules/mem_and_cpu_info_202110206.c` (all under `Proyecto1/kernel-linux`).

`si_meminfo` and `si_swapinfo` are not in the repository: the first sets the members for
RAM and the memory unit, the second the two for swap, and neither reads what was there. A
local `struct sysinfo` is modelled by the values of its members, which are arbitrary
before they are set.
-/

set_option autoImplicit false

namespace UsacKernel.Model

open UsacKernel.Computation

/-! ## `struct sysinfo` -/

structure Sysinfo where
  uptime : BitVec 64
  loads : Fin 3 → ULong
  totalram : ULong
  freeram : ULong
  sharedram : ULong
  bufferram : ULong
  totalswap : ULong
  freeswap : ULong
  procs : BitVec 16
  totalhigh : ULong
  freehigh : ULong
  memUnit : BitVec 32

/-- `memset` to zero. -/
def Sysinfo.zero : Sysinfo := ⟨0, fun _ => 0, 0, 0, 0, 0, 0, 0, 0, 0, 0, 0⟩

/-- What the system calls ask of the rest of the kernel: page counts and times. -/
structure SystemState where
  totalram : ULong
  freeram : ULong
  sharedram : ULong
  bufferram : ULong
  totalhigh : ULong
  freehigh : ULong
  memUnit : BitVec 32
  totalswap : ULong
  freeswap : ULong
  /-- `global_node_page_state(NR_FILE_PAGES)`. -/
  nrFilePages : ULong
  /-- `total_swapcache_pages()`. -/
  totalSwapcachePages : ULong
  /-- `global_node_page_state(NR_ACTIVE_ANON)`. -/
  nrActiveAnon : ULong
  /-- `global_node_page_state(NR_ACTIVE_FILE)`. -/
  nrActiveFile : ULong
  /-- The time since boot, in seconds and nanoseconds. -/
  bootSec : BitVec 64
  bootNsec : BitVec 64
  avenrun : Fin 3 → ULong
  nrThreads : CInt

/-- `si_meminfo`. -/
def siMeminfo (sys : SystemState) (info : Sysinfo) : Sysinfo :=
  { info with
    totalram := sys.totalram
    sharedram := sys.sharedram
    freeram := sys.freeram
    bufferram := sys.bufferram
    totalhigh := sys.totalhigh
    freehigh := sys.freehigh
    memUnit := sys.memUnit }

/-- `si_swapinfo`. -/
def siSwapinfo (sys : SystemState) (info : Sysinfo) : Sysinfo :=
  { info with totalswap := sys.totalswap, freeswap := sys.freeswap }

/-! ## `do_sysinfo` -/

/-- The first half: the counts as the kernel has them.
SOURCE: kernel/sys.c:2795-2806 -/
def gatherSysinfo (sys : SystemState) : Sysinfo :=
  siSwapinfo sys (siMeminfo sys
    { Sysinfo.zero with
      uptime := sys.bootSec + (if sys.bootNsec ≠ 0 then 1 else 0)
      loads := sys.avenrun
      procs := sys.nrThreads.setWidth 16 })

/-- The loop that counts the bits of the memory unit; `none` is the jump to `out`.
SOURCE: kernel/sys.c:2820-2829 -/
def unitBits (memUnit : BitVec 32) (memTotal : ULong) (bitcount : ℕ) : Option ℕ :=
  if h : memUnit > 1 then
    if memTotal <<< 1 < memTotal then none
    else unitBits (memUnit >>> 1) (memTotal <<< 1) (bitcount + 1)
  else some bitcount
termination_by memUnit.toNat
decreasing_by
  have hlt : 1 < memUnit.toNat := BitVec.lt_def.mp h
  rw [BitVec.toNat_ushiftRight, Nat.shiftRight_eq_div_pow]
  omega

/-- The second half: sizes in bytes, if the totals allow it.
SOURCE: kernel/sys.c:2817-2849 -/
def scaleSysinfo (info : Sysinfo) : Sysinfo :=
  let memTotal := info.totalram + info.totalswap
  if memTotal < info.totalram ∨ memTotal < info.totalswap then info
  else
    match unitBits info.memUnit memTotal 0 with
    | none => info
    | some bitcount =>
      { info with
        memUnit := 1
        totalram := info.totalram <<< bitcount
        freeram := info.freeram <<< bitcount
        sharedram := info.sharedram <<< bitcount
        bufferram := info.bufferram <<< bitcount
        totalswap := info.totalswap <<< bitcount
        freeswap := info.freeswap <<< bitcount
        totalhigh := info.totalhigh <<< bitcount
        freehigh := info.freehigh <<< bitcount }

/-- `do_sysinfo`.
SOURCE: kernel/sys.c:2789-2850 -/
def doSysinfo (sys : SystemState) : Sysinfo := scaleSysinfo (gatherSysinfo sys)

/-! ## `julioz_capture_memory_snapshot` -/

/-- `struct mem_snapshot`.
SOURCE: kernel/sys.c:2868-2875 -/
structure MemSnapshot where
  totalMemory : BitVec 64
  freeMemory : BitVec 64
  totalSwap : BitVec 64
  freeSwap : BitVec 64
  activePages : BitVec 64
  cachedPages : BitVec 64
  deriving DecidableEq

/-- The members of `struct mem_snapshot`, by their sizes. -/
def memSnapshot : Struct := [8, 8, 8, 8, 8, 8]

/-- The assignments to the members, in the order of the source. -/
def MemSnapshot.assignments (s : MemSnapshot) : List Assignment :=
  [⟨memSnapshot.offset 0, 64, s.totalMemory⟩, ⟨memSnapshot.offset 1, 64, s.freeMemory⟩,
    ⟨memSnapshot.offset 2, 64, s.totalSwap⟩, ⟨memSnapshot.offset 3, 64, s.freeSwap⟩,
    ⟨memSnapshot.offset 5, 64, s.cachedPages⟩, ⟨memSnapshot.offset 4, 64, s.activePages⟩]

/-- The members of the struct at `a`. -/
def MemSnapshot.read (m : Bytes) (a : ℤ) : MemSnapshot where
  totalMemory := m.load (a + memSnapshot.offset 0) 64
  freeMemory := m.load (a + memSnapshot.offset 1) 64
  totalSwap := m.load (a + memSnapshot.offset 2) 64
  freeSwap := m.load (a + memSnapshot.offset 3) 64
  activePages := m.load (a + memSnapshot.offset 4) 64
  cachedPages := m.load (a + memSnapshot.offset 5) 64

/-- Pages to kilobytes. -/
def pagesToKb (pages : ULong) : ULong := pages <<< (pageShift - 10)

/-- What is stored in the snapshot, with `previous` in the place of `sysinfo`. The test of
`cached` is one of an unsigned number.
SOURCE: kernel/sys.c:2884-2898 -/
def takeSnapshot (sys : SystemState) (previous : Sysinfo) : MemSnapshot :=
  let sysinfo := siMeminfo sys previous
  let cached := sys.nrFilePages - sys.totalSwapcachePages
  let cached := if cached < 0 then 0 else cached
  let active := sys.nrActiveAnon + sys.nrActiveFile
  { totalMemory := pagesToKb sysinfo.totalram
    freeMemory := pagesToKb sysinfo.freeram
    totalSwap := pagesToKb sysinfo.totalswap
    freeSwap := pagesToKb sysinfo.freeswap
    cachedPages := pagesToKb cached
    activePages := pagesToKb active }

/-- `julioz_capture_memory_snapshot`, with `previous` and `stack` in the places of its two
local structs; `left` is what `copy_to_user` returns.
SOURCE: kernel/sys.c:2877-2905 -/
def juliozCaptureMemorySnapshot (sys : SystemState) (userSnapshot : ULong) (left : ℕ)
    (previous : Sysinfo) (stack user : Bytes) : ℤ × Bytes :=
  let snapshot := assignAll 0 (takeSnapshot sys previous).assignments stack
  let user := copyToUser user userSnapshot.toNat snapshot memSnapshot.sizeof left
  if left ≠ 0 then (EFAULT.neg, user) else (0, user)

/-! ## CPU usage -/

/-- `kcpustat_cpu(0).cpustat`, as far as it is read: the times of CPU 0. -/
structure Cpustat where
  user : BitVec 64
  nice : BitVec 64
  system : BitVec 64
  idle : BitVec 64
  iowait : BitVec 64
  irq : BitVec 64
  softirq : BitVec 64
  steal : BitVec 64
  deriving DecidableEq

/-- The static variables `prev_idle` and `prev_total`. -/
structure PrevTimes where
  prevIdle : BitVec 64
  prevTotal : BitVec 64
  deriving DecidableEq

/-- `total`, in `calculate_cpu_usage`.
SOURCE: mem_and_cpu_info_202110206.c:37 -/
def Cpustat.total (c : Cpustat) : BitVec 64 :=
  c.user + c.nice + c.system + c.idle + c.iowait + c.irq + c.softirq + c.steal

def diffIdle (prev : PrevTimes) (c : Cpustat) : BitVec 64 := c.idle - prev.prevIdle

def diffTotal (prev : PrevTimes) (c : Cpustat) : BitVec 64 := c.total - prev.prevTotal

/-- `calculate_cpu_usage`.
SOURCE: mem_and_cpu_info_202110206.c:22-53 -/
def calculateCpuUsage (prev : PrevTimes) (c : Cpustat) : PrevTimes × ULong :=
  let usage :=
    if diffTotal prev c > 0 then 100 * (diffTotal prev c - diffIdle prev c) / diffTotal prev c
    else 0
  (⟨c.idle, c.total⟩, usage)

/-- `memandprocessesinfo_init`, with its own sum.
SOURCE: mem_and_cpu_info_202110206.c:84-94 -/
def memandprocessesinfoInit (c : Cpustat) : PrevTimes where
  prevIdle := c.idle
  prevTotal := c.user + c.nice + c.system + c.idle + c.iowait + c.irq + c.softirq + c.steal

/-- The module between its readings. -/
def cpuMachine : Mealy PrevTimes Cpustat ULong where
  step := calculateCpuUsage

end UsacKernel.Model
