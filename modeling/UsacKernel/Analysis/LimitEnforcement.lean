import UsacKernel.Analysis.Accounting
import UsacKernel.Analysis.RegistryRefinement

/-!
# What a limit does to the memory of a process

For a process of the initial pid namespace that has an entry in the registry: how far
`brk`, `mmap` and `tamalloc` can take its `total_vm`. `brk` compares the limit with the
bytes it is going to add, and keeps it. `mmap` compares the limit with the length it was
called with and adds that length rounded up to pages. `tamalloc` compares nothing.
-/

set_option autoImplicit false

namespace UsacKernel.Analysis

open UsacKernel.Computation UsacKernel.Model

/-! ## The request test for a limited process -/

/-- `current` is a task of the initial pid namespace with address space `mm`, and the
registry, which some schedule has led to, has an entry for its pid. -/
structure LimitedProcess (l : MemoryList) (tbl : TaskTable) (current : TaskStruct)
    (mm : MmStruct) (limit : ULong) : Prop where
  reachable : ReachableList l
  task : current ∈ tbl.tasks
  initial : current.activePidNs = initPidNs
  memory : current.mm = some mm
  entry : ⟨current.pid, limit⟩ ∈ l

/-- INTERNAL: the test for a listed pid, on usages and requests up to `TASK_SIZE`: the sum
does not wrap.
SOURCE: crudmemlimit.c:32-67 -/
theorem isRequestAccepted_iff (env : MmEnv) {find : PidT → Option TaskStruct} {pid : PidT}
    {l : MemoryList} {limit total : ULong}
    (husage : currentUsage find pid = some (pagesToBytes total))
    (hlimit : limitAt l pid = some limit) (htotal : total.toNat * 4096 ≤ env.taskSize.toNat)
    (requested : ULong) (hreq : requested.toNat ≤ env.taskSize.toNat) :
    isRequestAccepted find pid requested l = true ↔
      total.toNat * 4096 + requested.toNat ≤ limit.toNat := by
  have hsize := env.taskSize_le
  have hsum : (total.toNat * 4096 + requested.toNat) % 2 ^ 64 =
      total.toNat * 4096 + requested.toNat := Nat.mod_eq_of_lt (by omega)
  rw [isRequestAccepted_mod husage, hlimit, hsum]
  simp

/-- INTERNAL: the test for a limited process; the usage it reads is the caller's own. -/
theorem LimitedProcess.accepted_iff {l : MemoryList} {tbl : TaskTable} {current : TaskStruct}
    {mm : MmStruct} {limit : ULong} (h : LimitedProcess l tbl current mm limit) (env : MmEnv)
    (htotal : mm.totalVm.toNat * 4096 ≤ env.taskSize.toNat) (requested : ULong)
    (hreq : requested.toNat ≤ env.taskSize.toNat) :
    isRequestAccepted (findTaskByVpid tbl current) current.pid requested l = true ↔
      mm.totalVm.toNat * 4096 + requested.toNat ≤ limit.toNat := by
  have husage := currentUsage_eq_some
    (findTaskByVpid_current tbl current h.task h.initial) h.memory
  exact isRequestAccepted_iff env husage ((h.reachable.limitAt_eq_some _ _).mpr h.entry) htotal
    requested hreq

/-! ## `mmap` -/

/-- The length that the hook of `ksys_mmap_pgoff` asks about.
SOURCE: mm/mmap.c:1412-1444 -/
def requestedLen (env : MmEnv) (args : MmapArgs) : ULong :=
  match mmapFile env args with
  | .error _ => 0
  | .ok (_, len) => len

/-- The address that `ksys_mmap_pgoff` maps at, if it comes to that.
SOURCE: mm/mmap.c:1251-1275 -/
def requestedAddr (env : MmEnv) (args : MmapArgs) : ULong :=
  match mmapFile env args with
  | .error _ => 0
  | .ok (file, len) => mappingAddr env file args.addr len args.flags args.pgoff

/-- INTERNAL: a successful `mmap` passed the test and mapped its pages.
SOURCE: mm/mmap.c:1405-1456 -/
theorem ksysMmapPgoff_ok (env : MmEnv) (find : PidT → Option TaskStruct)
    (current : TaskStruct) (l : MemoryList) (mm : MmStruct) (args : MmapArgs)
    (hwf : WellFormed mm) (htotal : mm.totalVm.toNat * 4096 ≤ env.taskSize.toNat)
    (hok : isErrValue (ksysMmapPgoff env find current l mm args).1 = false) :
    isRequestAccepted find current.pid (requestedLen env args) l = true ∧
      MapsPages env mm (requestedAddr env args) (requestedLen env args)
        (ksysMmapPgoff env find current l mm args) := by
  unfold ksysMmapPgoff requestedLen requestedAddr at *
  cases hfile : mmapFile env args with
  | error e => simp [hfile] at hok
  | ok p =>
    obtain ⟨file, len⟩ := p
    simp only [hfile] at hok ⊢
    cases hacc : isRequestAccepted find current.pid len l with
    | false => simp [hacc] at hok
    | true =>
      simp only [hacc, not_true_eq_false, if_false] at hok ⊢
      obtain ⟨_, hcase⟩ := vmMmapPgoff_total env mm file args.addr len args.prot args.flags
        args.pgoff hwf htotal
      rcases hcase with ⟨herr, _⟩ | ⟨_, hmaps⟩
      · rw [hok] at herr
        cases herr
      · exact ⟨trivial, hmaps⟩

/-- MAIN: **what `mmap` leaves of a limit.** After a successful `mmap` of a limited
process, `total_vm` is within the limit exactly when the usage and the requested length
together stay below the last page boundary under the limit, not counting the pages that
are mapped in the range before the call. The test compares with the limit itself, so a
length that ends inside the limit's last, partial page is accepted and then rounded over
it, by less than a page. Limits or lengths of whole pages are kept.
SOURCE: mm/mmap.c:1226-1275, 1405-1456; crudmemlimit.c:32-67 -/
theorem ksysMmapPgoff_within_limit_iff (env : MmEnv) (tbl : TaskTable) (current : TaskStruct)
    (l : MemoryList) (mm : MmStruct) (limit : ULong) (args : MmapArgs)
    (hproc : LimitedProcess l tbl current mm limit) (hwf : WellFormed mm)
    (htotal : mm.totalVm.toNat * 4096 ≤ env.taskSize.toNat)
    (hok : isErrValue (ksysMmapPgoff env (findTaskByVpid tbl current) current l mm args).1 =
      false) :
    let r := ksysMmapPgoff env (findTaskByVpid tbl current) current l mm args
    let len := requestedLen env args
    let area := requestedAddr env args
    let replaced := (countVmaPagesRange mm area (area + pageAlign len)).toNat
    (r.2.totalVm.toNat * 4096 ≤ limit.toNat ↔
        mm.totalVm.toNat * 4096 + len.toNat ≤ limit.toNat / 4096 * 4096 + replaced * 4096) ∧
      r.2.totalVm.toNat * 4096 < limit.toNat + 4096 ∧
      (limit.toNat % 4096 = 0 ∨ len.toNat % 4096 = 0 →
        r.2.totalVm.toNat * 4096 ≤ limit.toNat) := by
  intro r len area replaced
  obtain ⟨haccepted, hmaps⟩ := ksysMmapPgoff_ok env _ current l mm args hwf htotal hok
  have haligned : (pageAlign len).toNat = (len.toNat + 4095) / 4096 * 4096 := hmaps.aligned
  have hrange : area.toNat + (pageAlign len).toNat ≤ env.taskSize.toNat := hmaps.range
  have hsum : r.2.totalVm.toNat + replaced =
      mm.totalVm.toNat + (len.toNat + 4095) / 4096 := hmaps.total
  have htest : mm.totalVm.toNat * 4096 + len.toNat ≤ limit.toNat :=
    (hproc.accepted_iff env htotal len (by omega)).mp haccepted
  exact ⟨by omega, by omega, by omega⟩

/-! ### A process that goes over its limit -/

/-- A kernel in which nothing fails and the search for a free range finds one high up. -/
def quietEnv : MmEnv where
  taskSize := 0x7ffffffff000
  taskSize_mod := by decide
  taskSize_le := by decide
  mmapMinAddr := 0x10000
  stackGuardGap := 0x100000
  sysctlMaxMapCount := 65530
  overcommitNever := false
  legacyMapMask := 0xffffffff
  rlimitAs := 0xffffffffffffffff
  rlimitData := 0xffffffffffffffff
  rlimitDataMax := 0xffffffffffffffff
  rlimitMemlock := 0x800000
  ignoreRlimitData := false
  capIpcLock := false
  canDoMlock := true
  readImpliesExec := false
  compatBrk := false
  checkDataRlimit := fun _ _ _ _ => false
  lockKilled := false
  getArea := fun _ addr _ _ flags => if hasFlag flags MAP_FIXED then addr else 0x7f0000000000
  securityMmapAddr := fun _ => none
  securityMmapFile := none
  securityVmEnoughMemory := fun _ => false
  munmapError := none
  merges := false
  joinsBoth := false
  regionError := none
  regionFlags := id
  mergesLate := false
  countsLocked := true
  calcVmProtBits := fun prot => prot &&& 0x7
  calcVmFlagBits := fun _ => 0
  fget := fun _ => none
  hstateSizelog := fun _ => none
  hugetlbFileSetup := fun _ => .error ENOMEM

/-- An address space of `pages` pages, all of them heap. -/
def heapMm (pages : ULong) : MmStruct where
  brk := 0x555555000000 + pagesToBytes pages
  startBrk := 0x555555000000
  startData := 0x555554000000
  endData := 0x555555000000
  totalVm := pages
  execVm := 0
  stackVm := 0
  dataVm := pages
  lockedVm := 0
  mapCount := 1
  defFlags := 0
  vmas := [⟨0x555555000000, 0x555555000000 + pagesToBytes pages, vmDataDefaultFlags quietEnv⟩]

/-- A single-threaded process of the initial pid namespace. -/
def processOf (pid : PidT) (mm : MmStruct) : TaskStruct :=
  ⟨pid, pid, [(initPidNs, pid)], initPidNs, some mm⟩

def tableOf (pid : PidT) (mm : MmStruct) : TaskTable where
  tasks := [processOf pid mm]
  pid_mem := by simp [processOf]
  unique := by simp

/-- INTERNAL: a list of one entry is reachable, by one `add`. -/
theorem reachableList_singleton (pid : PidT) (limit : ULong) (hpid : 0 ≤ pid.toInt) :
    ReachableList [⟨pid, limit⟩] := by
  refine ⟨[.call 0 (.registry (.add pid limit),
    ⟨true, fun _ => some (processOf pid (heapMm 1)), true, 0, false⟩), .critical 0], ?_⟩
  simp [LockedObject.schedule, LockedObject.start, limiterObject, registryObject, addChecks,
    invalidArguments_eq, not_lt.mpr hpid, addLocked, listed]

/-- INTERNAL: a table with one task and a list with one entry for it make a limited process. -/
theorem limitedProcess_of (pid : PidT) (limit : ULong) (mm : MmStruct) (hpid : 0 ≤ pid.toInt) :
    LimitedProcess [⟨pid, limit⟩] (tableOf pid mm) (processOf pid mm) mm limit :=
  ⟨reachableList_singleton pid limit hpid, List.mem_singleton.mpr rfl, rfl, rfl,
    List.mem_singleton.mpr rfl⟩

/-- `mmap` of `len` anonymous, private, writable bytes. -/
def anonymousArgs (len : ULong) : MmapArgs :=
  ⟨0, len, PROT_READ ||| PROT_WRITE, MAP_PRIVATE ||| MAP_ANONYMOUS, 0, 0⟩

/-- INTERNAL: 1000 pages are in use and the limit is 100 bytes above them; `mmap` of 100
bytes succeeds and makes it 1001 pages. -/
theorem ksysMmapPgoff_over_limit :
    let mm := heapMm 1000
    let r := ksysMmapPgoff quietEnv (findTaskByVpid (tableOf 5 mm) (processOf 5 mm))
      (processOf 5 mm) [⟨5, 4096100⟩] mm (anonymousArgs 100)
    LimitedProcess [⟨5, 4096100⟩] (tableOf 5 mm) (processOf 5 mm) mm 4096100 ∧
      WellFormed mm ∧ mm.totalVm.toNat * 4096 ≤ quietEnv.taskSize.toNat ∧
      isErrValue r.1 = false ∧ (4096100 : ULong).toNat < r.2.totalVm.toNat * 4096 :=
  ⟨limitedProcess_of 5 4096100 (heapMm 1000) (by decide), ⟨by decide, by decide⟩, by decide,
    by decide, by decide⟩

/-- INTERNAL: a process with a thousand pages and a limit one page above them meets the
assumptions. -/
theorem ksysMmapPgoff_within_limit_heapMm :
    let mm := heapMm 1000
    let r := ksysMmapPgoff quietEnv (findTaskByVpid (tableOf 5 mm) (processOf 5 mm))
      (processOf 5 mm) [⟨5, 4100096⟩] mm (anonymousArgs 100)
    r.2.totalVm.toNat * 4096 ≤ (4100096 : ULong).toNat :=
  (ksysMmapPgoff_within_limit_iff quietEnv (tableOf 5 (heapMm 1000)) (processOf 5 (heapMm 1000))
    [⟨5, 4100096⟩] (heapMm 1000) 4100096 (anonymousArgs 100)
    (limitedProcess_of 5 4100096 (heapMm 1000) (by decide)) ⟨by decide, by decide⟩
    (by decide) (by decide)).2.2 (Or.inl (by decide))

/-! ## `brk` -/

/-- INTERNAL: a request that the hook refuses ends at the label `out`, and so does one
that the checks before it refuse.
SOURCE: mm/mmap.c:191-228, 284-287 -/
theorem brk_refused (env : MmEnv) (find : PidT → Option TaskStruct) (current : TaskStruct)
    (l : MemoryList) (mm : MmStruct) (newBrk : ULong) (hlock : env.lockKilled = false)
    (hrefused : isRequestAccepted find current.pid (pageAlign newBrk - pageAlign mm.brk) l =
      false) :
    brk env find current l mm newBrk = (mm.brk, mm) := by
  simp [brk, hlock, hrefused, brkOut]

/-- INTERNAL: when `brk` changes `total_vm`, the hook has accepted the request.
SOURCE: mm/mmap.c:181-288 -/
theorem brk_accepted (env : MmEnv) (find : PidT → Option TaskStruct) (current : TaskStruct)
    (l : MemoryList) (mm : MmStruct) (newBrk : ULong)
    (hchanged : (brk env find current l mm newBrk).2.totalVm ≠ mm.totalVm) :
    isRequestAccepted find current.pid (pageAlign newBrk - pageAlign mm.brk) l = true ∧
      brk env find current l mm newBrk =
        brkApply env mm newBrk (pageAlign newBrk) (pageAlign mm.brk) := by
  unfold brk at hchanged ⊢
  cases hlock : env.lockKilled with
  | true => simp [hlock] at hchanged
  | false =>
    cases hrefused : brkRefused env mm newBrk with
    | true => simp [hlock, hrefused, brkOut] at hchanged
    | false =>
      cases hacc : isRequestAccepted find current.pid (pageAlign newBrk - pageAlign mm.brk) l with
      | false => simp [hlock, hrefused, hacc, brkOut] at hchanged
      | true => exact ⟨rfl, by simp [hacc]⟩

/-- MAIN: **`brk` keeps the limit.** For a limited process and any argument: when `brk`
makes `total_vm` grow, it grows by the pages between the two rounded breaks (a difference
that is not wrapped when the old break was below `TASK_SIZE`), and `total_vm` is within
the limit afterwards; and when the hook refuses, `brk` returns the old break and changes
nothing. A wrapped difference reaches the hook as a huge request; if the wrapped sum is
accepted, `check_brk_limits` refuses it.
SOURCE: mm/mmap.c:181-288, 1831-1876, 3149-3228; crudmemlimit.c:32-67 -/
theorem brk_within_limit (env : MmEnv) (tbl : TaskTable) (current : TaskStruct)
    (l : MemoryList) (mm : MmStruct) (limit newBrk : ULong)
    (hproc : LimitedProcess l tbl current mm limit) (hwf : WellFormed mm)
    (htotal : mm.totalVm.toNat * 4096 ≤ env.taskSize.toNat) :
    let find := findTaskByVpid tbl current
    let r := brk env find current l mm newBrk
    (mm.totalVm.toNat < r.2.totalVm.toNat →
        r.2.totalVm.toNat =
            mm.totalVm.toNat + (pageAlign newBrk - pageAlign mm.brk).toNat / 4096 ∧
          (mm.brk.toNat ≤ env.taskSize.toNat →
            (pageAlign mm.brk).toNat ≤ (pageAlign newBrk).toNat) ∧
          r.2.totalVm.toNat * 4096 ≤ limit.toNat) ∧
      (env.lockKilled = false →
        isRequestAccepted find current.pid (pageAlign newBrk - pageAlign mm.brk) l = false →
          r = (mm.brk, mm)) := by
  intro find r
  have hsize := env.taskSize_le
  refine ⟨?_, brk_refused env find current l mm newBrk⟩
  intro hgrown
  obtain ⟨hacc, happly⟩ := brk_accepted env find current l mm newBrk
    (fun h => hgrown.ne (congrArg BitVec.toNat h).symm)
  have hr : r = brkApply env mm newBrk (pageAlign newBrk) (pageAlign mm.brk) := happly
  rw [hr] at hgrown ⊢
  obtain ⟨hlt, hlen, hsum⟩ := brkApply_total env mm newBrk hwf htotal hgrown
  have htest := (hproc.accepted_iff env htotal _ hlen).mp hacc
  have hkept : (brkApply env mm newBrk (pageAlign newBrk) (pageAlign mm.brk)).2.totalVm.toNat *
      4096 ≤ limit.toNat := by
    rw [hsum, Nat.add_mul]
    exact (Nat.add_le_add_left (Nat.div_mul_le_self _ _) _).trans htest
  refine ⟨hsum, ?_, hkept⟩
  intro hbrk
  -- a new break that rounds to zero would need a request of almost the whole range
  have hne : pageAlign newBrk ≠ 0 := by
    intro hzero
    have hdiff : (pageAlign newBrk - pageAlign mm.brk).toNat =
        (2 ^ 64 - (pageAlign mm.brk).toNat) % 2 ^ 64 := by
      rw [hzero, zero_sub, BitVec.toNat_neg]
    have hold := pageAlign_toNat mm.brk
    omega
  exact pageAlign_le_pageAlign mm.brk newBrk (BitVec.le_of_lt hlt) hne

/-- INTERNAL: a process of 1000 pages limited to 1002 asks for two pages more. -/
theorem brk_within_limit_heapMm :
    let mm := heapMm 1000
    let r := brk quietEnv (findTaskByVpid (tableOf 5 mm) (processOf 5 mm)) (processOf 5 mm)
      [⟨5, 4104192⟩] mm (mm.brk + 8192)
    mm.totalVm.toNat < r.2.totalVm.toNat ∧ r.2.totalVm.toNat * 4096 ≤ (4104192 : ULong).toNat :=
  ⟨by decide, ((brk_within_limit quietEnv (tableOf 5 (heapMm 1000)) (processOf 5 (heapMm 1000))
    [⟨5, 4104192⟩] (heapMm 1000) 4104192 ((heapMm 1000).brk + 8192)
    (limitedProcess_of 5 4104192 (heapMm 1000) (by decide)) ⟨by decide, by decide⟩
    (by decide)).1 (by decide)).2.2⟩

/-! ## `tamalloc` -/

/-- INTERNAL: `tamalloc` fails and leaves the areas and `total_vm`, or maps the rounded size
in a free range. The length is rounded a second time by `do_mmap`, which leaves it.
SOURCE: Proyecto2/p2-kernel-linux/kernel/usac/tamalloc.c:7-36 -/
theorem juliozTamalloc_free (env : MmEnv) (mm : MmStruct) (size : ULong)
    (hfree : FindsFree env mm) :
    isErrValue (juliozTamalloc env mm size).1 = true ∧
        (juliozTamalloc env mm size).2.totalVm = mm.totalVm ∧
        (juliozTamalloc env mm size).2.vmas = mm.vmas ∨
      isErrValue (juliozTamalloc env mm size).1 = false ∧
        MapsFree env mm size (juliozTamalloc env mm size) := by
  rw [juliozTamalloc_eq]
  unfold tamallocRequest
  split_ifs with hzero halign
  · exact Or.inl ⟨isErrValue_ptr _, rfl, rfl⟩
  · exact Or.inl ⟨isErrValue_ptr _, rfl, rfl⟩
  · have htwice := pageAlign_of_mod _ (pageAlign_mod size)
    refine (vmMmapPgoff_free env mm none 0 (pageAlign size) (PROT_READ ||| PROT_WRITE)
      (MAP_PRIVATE ||| MAP_ANONYMOUS ||| MAP_NORESERVE) 0 hfree (by decide)).imp id ?_
    rintro ⟨hok, hmaps⟩
    obtain ⟨-, nonempty, range, page, apart, total, vmas⟩ := hmaps
    rw [htwice] at nonempty range total
    simp only [htwice] at apart vmas
    exact ⟨hok, pageAlign_toNat_of_ne_zero size halign, nonempty, range, page, apart, total, vmas⟩

/-- INTERNAL: a successful `tamalloc` adds the rounded size. -/
theorem juliozTamalloc_ok (env : MmEnv) (mm : MmStruct) (size : ULong)
    (hfree : FindsFree env mm) (hok : isErrValue (juliozTamalloc env mm size).1 = false) :
    (pageAlign size).toNat ≤ env.taskSize.toNat ∧
      (juliozTamalloc env mm size).2.totalVm = mm.totalVm + bytesToPages (pageAlign size) := by
  rcases juliozTamalloc_free env mm size hfree with ⟨herr, -⟩ | ⟨-, hmaps⟩
  · rw [hok] at herr
    cases herr
  · have hrange := hmaps.range
    exact ⟨by omega, hmaps.total⟩

/-- MAIN: **`tamalloc` does not know the limit.** A successful `tamalloc` of a limited
process that was within its limit leaves it there exactly when usage and rounded size
together are within it, which is what the request test would have said if it had been
asked.
SOURCE: Proyecto2/p2-kernel-linux/kernel/usac/tamalloc.c:7-36; mm/mmap.c:1226-1275;
crudmemlimit.c:32-67 -/
theorem juliozTamalloc_within_limit_iff (env : MmEnv) (tbl : TaskTable) (current : TaskStruct)
    (l : MemoryList) (mm : MmStruct) (limit size : ULong)
    (hproc : LimitedProcess l tbl current mm limit) (hfree : FindsFree env mm)
    (htotal : mm.totalVm.toNat * 4096 ≤ limit.toNat)
    (hok : isErrValue (juliozTamalloc env mm size).1 = false) :
    ((juliozTamalloc env mm size).2.totalVm.toNat * 4096 ≤ limit.toNat ↔
        mm.totalVm.toNat * 4096 + (pageAlign size).toNat ≤ limit.toNat) ∧
      (mm.totalVm.toNat * 4096 ≤ env.taskSize.toNat →
        ((juliozTamalloc env mm size).2.totalVm.toNat * 4096 ≤ limit.toNat ↔
          isRequestAccepted (findTaskByVpid tbl current) current.pid (pageAlign size) l = true)) := by
  have hsize := env.taskSize_le
  have hlimit := limit.isLt
  obtain ⟨hle, hsum⟩ := juliozTamalloc_ok env mm size hfree hok
  have hmod := pageAlign_mod size
  have hsum' : (juliozTamalloc env mm size).2.totalVm.toNat =
      mm.totalVm.toNat + (pageAlign size).toNat / 4096 := by
    rw [hsum, BitVec.toNat_add, bytesToPages_toNat]
    omega
  have hiff : (juliozTamalloc env mm size).2.totalVm.toNat * 4096 ≤ limit.toNat ↔
      mm.totalVm.toNat * 4096 + (pageAlign size).toNat ≤ limit.toNat := by
    rw [hsum']
    omega
  refine ⟨hiff, fun htask => ?_⟩
  rw [hiff, hproc.accepted_iff env htask _ hle]

/-- INTERNAL: the quiet environment finds a free range as long as the heap does not reach its
address. -/
theorem quietEnv_findsFree (pages : ULong) (hle : pages.toNat ≤ 0x100000) :
    FindsFree quietEnv (heapMm pages) := by
  intro file hint len pgoff flags hflags _ v hv
  have hbytes : (pagesToBytes pages).toNat = pages.toNat * 4096 := by
    rw [pagesToBytes_toNat]
    omega
  have hbase : (0x555555000000 : ULong).toNat = 0x555555000000 := rfl
  have harea : (0x7f0000000000 : ULong).toNat = 0x7f0000000000 := rfl
  rw [List.mem_singleton.mp hv]
  simp only [quietEnv, hflags, Bool.false_eq_true, if_false]
  rw [BitVec.toNat_add, hbytes, hbase, harea]
  omega

/-- INTERNAL: a process that uses all of its limit takes another page with `tamalloc`. -/
theorem juliozTamalloc_over_limit :
    let mm := heapMm 1000
    let r := juliozTamalloc quietEnv mm 1
    LimitedProcess [⟨5, 4096000⟩] (tableOf 5 mm) (processOf 5 mm) mm 4096000 ∧
      FindsFree quietEnv mm ∧ mm.totalVm.toNat * 4096 ≤ (4096000 : ULong).toNat ∧
      isErrValue r.1 = false ∧ (4096000 : ULong).toNat < r.2.totalVm.toNat * 4096 :=
  ⟨limitedProcess_of 5 4096000 (heapMm 1000) (by decide), quietEnv_findsFree 1000 (by decide),
    by decide, by decide, by decide⟩

/-- INTERNAL: a process with a thousand pages and a limit one page above them meets the
assumptions. -/
theorem juliozTamalloc_within_limit_heapMm :
    (juliozTamalloc quietEnv (heapMm 1000) 1).2.totalVm.toNat * 4096 ≤ (4100096 : ULong).toNat :=
  (juliozTamalloc_within_limit_iff quietEnv (tableOf 5 (heapMm 1000)) (processOf 5 (heapMm 1000))
    [⟨5, 4100096⟩] (heapMm 1000) 4100096 1
    (limitedProcess_of 5 4100096 (heapMm 1000) (by decide)) (quietEnv_findsFree 1000 (by decide))
    (by decide) (by decide)).1.mpr (by decide)

end UsacKernel.Analysis
