import UsacKernel.Model.Task

/-!
# Memory statistics of processes

`julioz_get_memory_usage_stats` of `kernel/usac/pidstats.c`, its second version in
`kernel/usac/pidstatsv2.c`, and `julioz_get_global_memory_usage_stats` of
`kernel/usac/globalstats.c` (all under `Proyecto2/p2-kernel-linux`). The two versions of
the first differ in how the `oom_score` member is computed and in nothing else; that
function is a parameter of `usageStats`.

The local variable `stats` is modelled by its bytes, which hold whatever the stack held
before, and so is user memory: a record reaches the user through `copy_to_user`, byte by
byte. The process table does not change during a call.
-/

set_option autoImplicit false

namespace UsacKernel.Model

open UsacKernel.Computation

/-- What the statistics calls ask of the rest of the kernel. -/
structure StatsEnv where
  /-- `get_mm_rss(task->mm)`, for a task with an address space. -/
  getMmRss : TaskStruct → ULong
  /-- `oom_badness(task, 0)`, a `long`. -/
  oomBadness : TaskStruct → BitVec 64
  /-- `task->signal->oom_score_adj`, a `short`, when there is a `signal`. -/
  oomScoreAdj : TaskStruct → Option (BitVec 16)
  /-- The value of the name `totalram_pages`. It is a function in this kernel (`kernel/fork.c:1004`
  calls it), so without a call its name stands for its address. -/
  totalramPages : ULong
  /-- The variable `total_swap_pages`. -/
  totalSwapPages : ULong
  /-- What the `k`-th `copy_to_user` of a call returns: the bytes it could not copy. -/
  copyToUser : ℕ → ℕ

/-- `for_each_process`: the thread-group leaders. -/
def forEachProcess (tbl : TaskTable) : List TaskStruct :=
  tbl.tasks.filter (fun task => decide (task.pid = task.tgid))

/-! ## `struct mem_usage_stats` -/

/-- `struct mem_usage_stats`.
SOURCE: pidstats.c:8-14 -/
structure MemUsageStats where
  pid : CInt
  vmsize : ULong
  vmrss : ULong
  oomScore : CInt
  committedPercent : CInt
  deriving DecidableEq

/-- The members of `struct mem_usage_stats`, by their sizes. -/
def memUsageStats : Struct := [4, 8, 8, 4, 4]

/-- The five assignments to the members of `stats`, in the order of the source. -/
def MemUsageStats.assignments (s : MemUsageStats) : List Assignment :=
  [⟨memUsageStats.offset 0, 32, s.pid⟩, ⟨memUsageStats.offset 1, 64, s.vmsize⟩,
    ⟨memUsageStats.offset 2, 64, s.vmrss⟩, ⟨memUsageStats.offset 4, 32, s.committedPercent⟩,
    ⟨memUsageStats.offset 3, 32, s.oomScore⟩]

/-- The members of the struct at `a`. -/
def MemUsageStats.read (m : Bytes) (a : ℤ) : MemUsageStats where
  pid := m.load (a + memUsageStats.offset 0) 32
  vmsize := m.load (a + memUsageStats.offset 1) 64
  vmrss := m.load (a + memUsageStats.offset 2) 64
  oomScore := m.load (a + memUsageStats.offset 3) 32
  committedPercent := m.load (a + memUsageStats.offset 4) 32

example : memUsageStats.offset 1 = 8 ∧ memUsageStats.offset 4 = 28 ∧ memUsageStats.sizeof = 32 := by
  decide

/-! ## `julioz_get_memory_usage_stats` -/

/-- What is stored in `stats` for a task; the same text stands in the loop and in the
branch for a single process.
SOURCE: pidstats.c:32-48, 63-79; pidstatsv2.c:62-78, 93-109 -/
def usageOf (score : TaskStruct → CInt) (env : StatsEnv) (task : TaskStruct) : MemUsageStats :=
  match task.mm with
  | some mm =>
    let vmsize := pagesToBytes mm.totalVm / 1024
    let vmrss := pagesToBytes (env.getMmRss task) / 1024
    { pid := task.pid
      vmsize := vmsize
      vmrss := vmrss
      oomScore := score task
      committedPercent := if vmsize > 0 then (vmrss * 100 / vmsize).setWidth 32 else 0 }
  | none => ⟨task.pid, 0, 0, score task, 0⟩

/-- The loop over all processes. `stats` is one local variable for all rounds.
SOURCE: pidstats.c:27-55 -/
def usageLoop (score : TaskStruct → CInt) (env : StatsEnv) (buffer maxEntries : ULong) :
    List TaskStruct → ULong → Bytes → Bytes → ℤ × Bytes
  | [], count, _, user => (count.toInt, user)
  | task :: rest, count, stats, user =>
    if count ≥ maxEntries then (count.toInt, user)
    else
      let stats := assignAll 0 (usageOf score env task).assignments stats
      let left := env.copyToUser count.toNat
      let user := copyToUser user (buffer.toNat + memUsageStats.sizeof * count.toNat) stats
        memUsageStats.sizeof left
      if left ≠ 0 then (EFAULT.neg, user)
      else usageLoop score env buffer maxEntries rest (count + 1) stats user

/-- The branch for one process.
SOURCE: pidstats.c:57-85 -/
def usageSingle (score : TaskStruct → CInt) (env : StatsEnv) (tbl : TaskTable)
    (current : TaskStruct) (pid : CInt) (buffer : ULong) (stats user : Bytes) : ℤ × Bytes :=
  match findTaskByVpid tbl current pid with
  | none => (ESRCH.neg, user)
  | some task =>
    let stats := assignAll 0 (usageOf score env task).assignments stats
    let left := env.copyToUser 0
    let user := copyToUser user buffer.toNat stats memUsageStats.sizeof left
    if left ≠ 0 then (EFAULT.neg, user) else (1, user)

/-- The system call, called by `current`, with `stack` in the place of `stats`.
SOURCE: pidstats.c:16-89 -/
def usageStats (score : TaskStruct → CInt) (env : StatsEnv) (tbl : TaskTable)
    (current : TaskStruct) (pid : CInt) (buffer maxEntries : ULong) (stack user : Bytes) :
    ℤ × Bytes :=
  if pid.toInt < 0 ∨ buffer = 0 ∨ maxEntries ≤ 0 then (EINVAL.neg, user)
  else if pid = 0 then
    usageLoop score env buffer maxEntries (forEachProcess tbl) 0 stack user
  else usageSingle score env tbl current pid buffer stack user

/-- `julioz_get_memory_usage_stats`: the score is `oom_badness`, cut to an `int`.
SOURCE: pidstats.c:16-89 -/
def juliozGetMemoryUsageStats (env : StatsEnv) (tbl : TaskTable) (current : TaskStruct)
    (pid : CInt) (buffer maxEntries : ULong) (stack user : Bytes) : ℤ × Bytes :=
  usageStats (fun task => (env.oomBadness task).setWidth 32) env tbl current pid buffer
    maxEntries stack user

/-- `calculate_oom_score`. The pages of swap are added to the address of `totalram_pages`, as
numbers of bytes, and the sum is stored as a number.
SOURCE: pidstatsv2.c:17-44 -/
def calculateOomScore (env : StatsEnv) (task : TaskStruct) : CInt :=
  let rss : ULong := if task.mm.isSome then env.getMmRss task else 0
  let totalpages := env.totalramPages + env.totalSwapPages
  let adj : BitVec 64 := ((env.oomScoreAdj task).map (fun adj => adj.signExtend 64)).getD 0
  let score : CInt := (rss * 1000 / totalpages).setWidth 32
  -- the sum is one of `long` numbers, cut back to an `int`
  let score : CInt := (score.signExtend 64 + adj).setWidth 32
  if score.toInt < 0 then 0 else if score.toInt > 1000 then 1000 else score

/-- `julioz_get_memory_usage_stats`, second version.
SOURCE: pidstatsv2.c:46-119 -/
def V2.juliozGetMemoryUsageStats (env : StatsEnv) (tbl : TaskTable) (current : TaskStruct)
    (pid : CInt) (buffer maxEntries : ULong) (stack user : Bytes) : ℤ × Bytes :=
  usageStats (calculateOomScore env) env tbl current pid buffer maxEntries stack user

/-! ## `julioz_get_global_memory_usage_stats` -/

/-- `struct global_mem_stats`.
SOURCE: globalstats.c:7-10 -/
structure GlobalMemStats where
  totalReservedMb : ULong
  totalCommittedMb : ULong
  deriving DecidableEq

/-- The members of `struct global_mem_stats`, by their sizes. -/
def globalMemStats : Struct := [8, 8]

def GlobalMemStats.assignments (s : GlobalMemStats) : List Assignment :=
  [⟨globalMemStats.offset 0, 64, s.totalReservedMb⟩,
    ⟨globalMemStats.offset 1, 64, s.totalCommittedMb⟩]

def GlobalMemStats.read (m : Bytes) (a : ℤ) : GlobalMemStats where
  totalReservedMb := m.load (a + globalMemStats.offset 0) 64
  totalCommittedMb := m.load (a + globalMemStats.offset 1) 64

/-- The loop over all processes.
SOURCE: globalstats.c:17-22 -/
def globalLoop (env : StatsEnv) : List TaskStruct → GlobalMemStats → GlobalMemStats
  | [], stats => stats
  | task :: rest, stats =>
    match task.mm with
    | none => globalLoop env rest stats
    | some mm =>
      globalLoop env rest
        { totalReservedMb := stats.totalReservedMb + pagesToBytes mm.totalVm / (1024 * 1024)
          totalCommittedMb :=
            stats.totalCommittedMb + pagesToBytes (env.getMmRss task) / (1024 * 1024) }

/-- `julioz_get_global_memory_usage_stats`.
SOURCE: globalstats.c:12-30 -/
def juliozGetGlobalMemoryUsageStats (env : StatsEnv) (tbl : TaskTable) (userStats : ULong)
    (stack user : Bytes) : ℤ × Bytes :=
  let stats := globalLoop env (forEachProcess tbl) ⟨0, 0⟩
  let bytes := assignAll 0 stats.assignments stack
  let left := env.copyToUser 0
  let user := copyToUser user userStats.toNat bytes globalMemStats.sizeof left
  if left ≠ 0 then (EFAULT.neg, user) else (0, user)

end UsacKernel.Model
