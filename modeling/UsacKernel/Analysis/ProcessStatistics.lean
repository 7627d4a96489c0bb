import UsacKernel.Computation.KeyedList
import UsacKernel.Model.ProcessStats

/-!
# What the memory statistics say

The records that `julioz_get_memory_usage_stats` leaves in user memory, for a list of
processes and for one process, and how they compare with the totals of
`julioz_get_global_memory_usage_stats`. The list form and the single form agree. The
totals are sums of megabytes that were cut off process by process, so they fall behind
the sum of the records by the kilobytes that were cut.
-/

set_option autoImplicit false

namespace UsacKernel.Analysis

open UsacKernel.Computation UsacKernel.Model

/-! ## Records in memory -/

/-- INTERNAL: a record has the pid at 0, padding from 4, the two sizes at 8 and 16, the score at
24, the percentage at 28, and 32 bytes. -/
theorem memUsageStats_offsets :
    memUsageStats.offset 0 = 0 ∧ memUsageStats.offset 1 = 8 ∧ memUsageStats.offset 2 = 16 ∧
      memUsageStats.offset 3 = 24 ∧ memUsageStats.offset 4 = 28 ∧ memUsageStats.sizeof = 32 := by
  decide

/-- INTERNAL: a struct whose members have been assigned arrives with their values.
SOURCE: pidstats.c:8-14, 32-52 -/
theorem MemUsageStats.read_delivered (s : MemUsageStats) (stack user : Bytes) (dst : ℤ) :
    MemUsageStats.read (copyToUser user dst (assignAll 0 s.assignments stack)
      memUsageStats.sizeof 0) dst = s := by
  obtain ⟨h0, h1, h2, h3, h4, hsize⟩ := memUsageStats_offsets
  have hload := load_copy_assignAll user stack dst memUsageStats.sizeof s.assignments
    (by simp [MemUsageStats.assignments, Assignment.Apart, h0, h1, h2, h3, h4])
    (by simp [MemUsageStats.assignments])
    (by simp [MemUsageStats.assignments, h0, h1, h2, h3, h4, hsize])
  simp only [MemUsageStats.assignments, List.forall_mem_cons] at hload
  obtain ⟨hpid, hvmsize, hvmrss, hpercent, hscore, -⟩ := hload
  simp only [MemUsageStats.read, MemUsageStats.assignments, copyToUser, Nat.sub_zero, hpid, hvmsize,
    hvmrss, hpercent, hscore]

/-- INTERNAL: a struct is what its 32 bytes are. -/
theorem MemUsageStats.read_congr {m m' : Bytes} {a : ℤ}
    (h : ∀ i : ℤ, a ≤ i → i < a + memUsageStats.sizeof → m i = m' i) :
    MemUsageStats.read m a = MemUsageStats.read m' a := by
  obtain ⟨h0, h1, h2, h3, h4, hsize⟩ := memUsageStats_offsets
  have hword (k w : ℕ) (hw : w % 8 = 0) (hk : k + w / 8 ≤ 32) :
      m.load (a + k) w = m'.load (a + k) w := by
    apply Bytes.load_congr hw
    intro j hj
    exact h _ (by omega) (by omega)
  unfold MemUsageStats.read
  rw [hword _ 32 (by decide) (by omega), hword _ 64 (by decide) (by omega),
    hword _ 64 (by decide) (by omega), hword _ 32 (by decide) (by omega),
    hword _ 32 (by decide) (by omega)]

/-! ## The loop over all processes -/

section Loop

variable (score : TaskStruct → CInt) (env : StatsEnv) (buffer maxEntries : ULong)

/-- INTERNAL: the counter of the loop does not overflow below the bound. -/
theorem toNat_succ_of_not_ge {count maxEntries : ULong} (h : ¬ count ≥ maxEntries) :
    (count + 1).toNat = count.toNat + 1 ∧ count.toNat < maxEntries.toNat := by
  have hlt : count.toNat < maxEntries.toNat := by
    rw [ge_iff_le, BitVec.not_le] at h
    exact BitVec.lt_def.mp h
  have hmax := maxEntries.isLt
  refine ⟨?_, hlt⟩
  rw [BitVec.toNat_add, show (1 : ULong).toNat = 1 from rfl]
  omega

/-- INTERNAL: the loop from `count` on writes the records from `count` on and nothing else,
whether its copies succeed or not.
SOURCE: pidstats.c:27-55 -/
theorem usageLoop_frame (tasks : List TaskStruct) (count : ULong) (stats user : Bytes) (a : ℤ)
    (ha : a < buffer.toNat + memUsageStats.sizeof * count.toNat ∨
      buffer.toNat + memUsageStats.sizeof *
        (min (count.toNat + tasks.length) maxEntries.toNat : ℕ) ≤ a) :
    (usageLoop score env buffer maxEntries tasks count stats user).2 a = user a := by
  obtain ⟨-, -, -, -, -, hsize⟩ := memUsageStats_offsets
  induction tasks generalizing count stats user with
  | nil => rfl
  | cons task rest ih =>
    by_cases hfull : count ≥ maxEntries
    · rw [usageLoop, if_pos hfull]
    · obtain ⟨hnext, hlt⟩ := toNat_succ_of_not_ge hfull
      simp only [hsize, List.length_cons] at ha
      have hcopied : copyToUser user (buffer.toNat + memUsageStats.sizeof * count.toNat)
          (assignAll 0 (usageOf score env task).assignments stats) memUsageStats.sizeof
          (env.copyToUser count.toNat) a = user a := by
        apply Bytes.copy_outside
        rw [hsize]
        omega
      simp only [usageLoop, if_neg hfull]
      split
      · exact hcopied
      · rw [ih (count + 1), hcopied]
        rw [hsize, hnext]
        omega

/-- INTERNAL: the `k`-th record from `count` on, once the copies up to it have succeeded. It is
the one that the members were computed for, whatever the local variable held before, and later
rounds leave it alone.
SOURCE: pidstats.c:27-55 -/
theorem usageLoop_record {tasks : List TaskStruct} {k : ℕ} {task : TaskStruct} (count : ULong)
    (stats user : Bytes) (htask : tasks[k]? = some task)
    (hk : count.toNat + k < maxEntries.toNat)
    (hcopy : ∀ i ≤ k, env.copyToUser (count.toNat + i) = 0) :
    MemUsageStats.read (usageLoop score env buffer maxEntries tasks count stats user).2
        (buffer.toNat + memUsageStats.sizeof * (count.toNat + k : ℕ)) =
      usageOf score env task := by
  obtain ⟨-, -, -, -, -, hsize⟩ := memUsageStats_offsets
  induction tasks generalizing count stats user k with
  | nil => simp at htask
  | cons head rest ih =>
    have hfull : ¬ count ≥ maxEntries := by
      rw [ge_iff_le, BitVec.le_def]
      omega
    obtain ⟨hnext, -⟩ := toNat_succ_of_not_ge hfull
    have hfirst := hcopy 0 (Nat.zero_le k)
    rw [Nat.add_zero] at hfirst
    simp only [usageLoop, if_neg hfull, hfirst, ne_eq, not_true_eq_false, if_false]
    cases k with
    | zero =>
      simp only [List.getElem?_cons_zero, Option.some.injEq] at htask
      rw [Nat.add_zero, ← htask]
      refine Eq.trans ?_ (MemUsageStats.read_delivered (usageOf score env head) stats user
        (buffer.toNat + memUsageStats.sizeof * count.toNat))
      apply MemUsageStats.read_congr
      intro i hi hi'
      apply usageLoop_frame
      rw [hsize, hnext]
      rw [hsize] at hi'
      omega
    | succ k =>
      have hrest := ih (count + 1) (assignAll 0 (usageOf score env head).assignments stats)
        (copyToUser user (buffer.toNat + memUsageStats.sizeof * count.toNat)
          (assignAll 0 (usageOf score env head).assignments stats) memUsageStats.sizeof 0)
        (by simpa using htask) (by omega) (by
          intro i hi
          rw [hnext, Nat.add_right_comm, Nat.add_assoc]
          exact hcopy (i + 1) (by omega))
      rw [show count.toNat + (k + 1) = (count + 1).toNat + k by omega]
      exact hrest

/-- INTERNAL: when the copies succeed the loop counts exactly.
SOURCE: pidstats.c:27-55 -/
theorem usageLoop_count (hcopy : ∀ k, env.copyToUser k = 0) (tasks : List TaskStruct)
    (count : ULong) (stats user : Bytes) (hcount : count.toNat ≤ maxEntries.toNat) :
    (usageLoop score env buffer maxEntries tasks count stats user).1 =
      (BitVec.ofNat 64 (min (count.toNat + tasks.length) maxEntries.toNat)).toInt := by
  induction tasks generalizing count stats user with
  | nil =>
    have hn : min count.toNat maxEntries.toNat = count.toNat := Nat.min_eq_left hcount
    simp [usageLoop, hn]
  | cons task rest ih =>
    by_cases hfull : count ≥ maxEntries
    · -- the buffer is full: the loop is left with what it has
      have heq : count.toNat = maxEntries.toNat := le_antisymm hcount (BitVec.le_def.mp hfull)
      have hn : min (count.toNat + (task :: rest).length) maxEntries.toNat = count.toNat := by
        omega
      rw [hn, usageLoop, if_pos hfull, BitVec.ofNat_toNat, BitVec.setWidth_eq]
    · obtain ⟨hnext, hlt⟩ := toNat_succ_of_not_ge hfull
      simp only [usageLoop, if_neg hfull, hcopy, ne_eq, not_true_eq_false, if_false]
      rw [ih (count + 1) _ _ (by omega), hnext, List.length_cons, Nat.add_right_comm,
        ← Nat.add_assoc]

end Loop

/-! ## The records of a call -/

/-- INTERNAL: arguments that pass the check.
SOURCE: pidstats.c:21-23 -/
theorem usageArguments_valid {pid : CInt} {buffer maxEntries : ULong} (hpid : 0 ≤ pid.toInt)
    (hbuffer : buffer ≠ 0) (hmax : 1 ≤ maxEntries.toNat) :
    ¬ (pid.toInt < 0 ∨ buffer = 0 ∨ maxEntries ≤ 0) := by
  rintro (hneg | hnull | hzero)
  · omega
  · exact hbuffer hnull
  · have hle : maxEntries.toNat ≤ (0 : ULong).toNat := BitVec.le_def.mp hzero
    exact absurd (hmax.trans hle) (by decide)

/-- The tasks for which a call is to write records, in their order. -/
def reportedTasks (tbl : TaskTable) (current : TaskStruct) (pid : CInt)
    (buffer maxEntries : ULong) : List TaskStruct :=
  if pid.toInt < 0 ∨ buffer = 0 ∨ maxEntries ≤ 0 then []
  else if pid = 0 then (forEachProcess tbl).take maxEntries.toNat
  else (findTaskByVpid tbl current pid).toList

/-- INTERNAL: without a pid, the first tasks of the table are reported, as many as the buffer
takes. -/
theorem reportedTasks_all (tbl : TaskTable) (current : TaskStruct) {buffer maxEntries : ULong}
    (hbuffer : buffer ≠ 0) (hmax : 1 ≤ maxEntries.toNat) :
    reportedTasks tbl current 0 buffer maxEntries = (forEachProcess tbl).take maxEntries.toNat := by
  rw [reportedTasks, if_neg (usageArguments_valid (by decide) hbuffer hmax), if_pos rfl]

/-- INTERNAL: every reported task is a task of the table. -/
theorem mem_of_reported {tbl : TaskTable} {current : TaskStruct} {pid : CInt}
    {buffer maxEntries : ULong} {k : ℕ} {task : TaskStruct}
    (h : (reportedTasks tbl current pid buffer maxEntries)[k]? = some task) : task ∈ tbl.tasks := by
  have hmem := List.mem_of_getElem? h
  unfold reportedTasks at hmem
  split_ifs at hmem
  · simp at hmem
  · exact List.mem_of_mem_filter (List.mem_of_mem_take hmem)
  · exact List.mem_of_find?_eq_some (Option.mem_toList.mp hmem)

/-- INTERNAL: every record whose copy, like those before it, has succeeded is the one computed
for its task, in the list form and in the single form.
SOURCE: pidstats.c:16-89; pidstatsv2.c:46-119 -/
theorem usageStats_record (score : TaskStruct → CInt) (env : StatsEnv) (tbl : TaskTable)
    (current : TaskStruct) (pid : CInt) (buffer maxEntries : ULong) (stack user : Bytes) {k : ℕ}
    {task : TaskStruct} (htask : (reportedTasks tbl current pid buffer maxEntries)[k]? = some task)
    (hcopy : ∀ i ≤ k, env.copyToUser i = 0) :
    MemUsageStats.read (usageStats score env tbl current pid buffer maxEntries stack user).2
        (buffer.toNat + memUsageStats.sizeof * k) = usageOf score env task := by
  have hzero : (0 : ULong).toNat = 0 := rfl
  unfold reportedTasks at htask
  unfold usageStats
  split_ifs at htask ⊢
  · simp at htask
  · obtain ⟨hk, hget⟩ := List.getElem?_eq_some_iff.mp htask
    rw [List.length_take] at hk
    rw [List.getElem_take] at hget
    have hrecord := usageLoop_record score env buffer maxEntries 0 stack user
      (List.getElem?_eq_some_iff.mpr ⟨by omega, hget⟩) (by rw [hzero]; omega)
      (by simpa [hzero] using hcopy)
    simpa [hzero] using hrecord
  · cases hfind : findTaskByVpid tbl current pid with
    | none => simp [hfind] at htask
    | some found =>
      -- there is one record, so it is the first
      rw [hfind, Option.toList_some] at htask
      cases k with
      | succ k => simp at htask
      | zero =>
        simp only [List.getElem?_cons_zero, Option.some.injEq] at htask
        have hfirst := hcopy 0 le_rfl
        simp only [usageSingle, hfind, hfirst, ne_eq, not_true_eq_false, if_false, Nat.cast_zero,
          mul_zero, add_zero, htask]
        exact MemUsageStats.read_delivered _ stack user buffer.toNat

/-! ## The list form and the single form -/

/-- INTERNAL: the call past its argument checks.
SOURCE: pidstats.c:21-25 -/
theorem usageStats_eq (score : TaskStruct → CInt) (env : StatsEnv) (tbl : TaskTable)
    (current : TaskStruct) (pid : CInt) (buffer maxEntries : ULong) (stack user : Bytes)
    (hpid : 0 ≤ pid.toInt) (hbuffer : buffer ≠ 0) (hmax : 1 ≤ maxEntries.toNat) :
    usageStats score env tbl current pid buffer maxEntries stack user =
      if pid = 0 then usageLoop score env buffer maxEntries (forEachProcess tbl) 0 stack user
      else usageSingle score env tbl current pid buffer stack user := by
  rw [usageStats, if_neg (usageArguments_valid hpid hbuffer hmax)]

/-- INTERNAL: the call for one process writes its record.
SOURCE: pidstats.c:57-85 -/
theorem usageStats_single (score : TaskStruct → CInt) (env : StatsEnv) (tbl : TaskTable)
    (current task : TaskStruct) (buffer maxEntries : ULong) (stack user : Bytes)
    (hcopy : env.copyToUser 0 = 0) (hfind : findTaskByVpid tbl current task.pid = some task)
    (hpid : 0 < task.pid.toInt) (hbuffer : buffer ≠ 0) (hmax : 1 ≤ maxEntries.toNat) :
    (usageStats score env tbl current task.pid buffer maxEntries stack user).1 = 1 ∧
      MemUsageStats.read
          (usageStats score env tbl current task.pid buffer maxEntries stack user).2
          buffer.toNat = usageOf score env task := by
  have hne : task.pid ≠ 0 := by
    intro h0
    rw [h0] at hpid
    exact absurd hpid (by decide)
  rw [usageStats_eq score env tbl current task.pid buffer maxEntries stack user hpid.le hbuffer
    hmax, if_neg hne, usageSingle, hfind]
  simp only [hcopy, ne_eq, not_true_eq_false, if_false, true_and]
  exact MemUsageStats.read_delivered _ stack user buffer.toNat

/-- INTERNAL: a table of processes with different numbers is shorter than a `long` counts. -/
theorem forEachProcess_length_lt (tbl : TaskTable)
    (hdistinct : ((forEachProcess tbl).map TaskStruct.pid).Nodup) :
    (forEachProcess tbl).length < 2 ^ 63 := by
  have hlength := KeyedList.UniqueKeys.length_le TaskStruct.pid hdistinct BitVec.toNat
    (fun _ _ h => BitVec.eq_of_toNat_eq h) 0 (2 ^ 32) (fun t _ => ⟨Nat.zero_le _, t.pid.isLt⟩)
  omega

/-- MAIN: **the list form and the single form agree.** For either version of the call and
a caller of the initial pid namespace: with pid 0 the call returns the number of processes
or `max_entries`, whichever is less, writes that many records and no other byte, and its
`k`-th record has the member values that the call with the number of the `k`-th process
delivers. The previous contents of the stack may differ between the two.
SOURCE: pidstats.c:16-89; pidstatsv2.c:46-119 -/
theorem memoryUsageStats_list_eq_single
    (call : StatsEnv → TaskTable → TaskStruct → CInt → ULong → ULong → Bytes → Bytes → ℤ × Bytes)
    (hcall : call = juliozGetMemoryUsageStats ∨ call = V2.juliozGetMemoryUsageStats)
    (env : StatsEnv) (tbl : TaskTable) (current : TaskStruct) (buffer maxEntries : ULong)
    (stack user : Bytes) (hns : current.activePidNs = initPidNs)
    (hdistinct : ((forEachProcess tbl).map TaskStruct.pid).Nodup)
    (hpositive : ∀ task ∈ forEachProcess tbl, 0 < task.pid.toInt)
    (hbuffer : buffer ≠ 0) (hmax : 1 ≤ maxEntries.toNat) (hcopy : ∀ k, env.copyToUser k = 0) :
    let list := call env tbl current 0 buffer maxEntries stack user
    let n := min (forEachProcess tbl).length maxEntries.toNat
    list.1 = n ∧
      (∀ a : ℤ, a < buffer.toNat ∨ buffer.toNat + memUsageStats.sizeof * n ≤ a →
        list.2 a = user a) ∧
      ∀ k < n, ∃ task, (forEachProcess tbl)[k]? = some task ∧
        ∀ stack' user', let single := call env tbl current task.pid buffer maxEntries stack' user'
          single.1 = 1 ∧
            MemUsageStats.read list.2 (buffer.toNat + memUsageStats.sizeof * k) =
              MemUsageStats.read single.2 buffer.toNat := by
  obtain ⟨score, hscore⟩ : ∃ score : TaskStruct → CInt, call env = usageStats score env := by
    rcases hcall with rfl | rfl
    · exact ⟨_, rfl⟩
    · exact ⟨_, rfl⟩
  intro list n
  have hlist : list = usageLoop score env buffer maxEntries (forEachProcess tbl) 0 stack user := by
    change call env tbl current 0 buffer maxEntries stack user = _
    rw [hscore, usageStats_eq score env tbl current 0 buffer maxEntries stack user (by decide)
      hbuffer hmax, if_pos rfl]
  have hret := usageLoop_count score env buffer maxEntries hcopy (forEachProcess tbl) 0 stack user
    (Nat.zero_le _)
  have hframe := usageLoop_frame score env buffer maxEntries (forEachProcess tbl) 0 stack user
  have hzero : (0 : ULong).toNat = 0 := rfl
  simp only [hzero, Nat.zero_add, Nat.cast_zero, mul_zero, add_zero] at hret hframe
  rw [← hlist] at hret hframe
  have hlength := forEachProcess_length_lt tbl hdistinct
  refine ⟨?_, hframe, ?_⟩
  · -- fewer records than a `long` counts, so the counter is returned as it is
    rw [hret, BitVec.toInt_eq_toNat_of_lt (by rw [BitVec.toNat_ofNat]; omega), BitVec.toNat_ofNat,
      Nat.mod_eq_of_lt (by omega)]
  · intro k hk
    have hk' : k < (forEachProcess tbl).length := by omega
    refine ⟨(forEachProcess tbl)[k], List.getElem?_eq_getElem hk', ?_⟩
    intro stack' user' single
    have hmem : (forEachProcess tbl)[k] ∈ forEachProcess tbl := List.getElem_mem hk'
    have htask : (forEachProcess tbl)[k] ∈ tbl.tasks := List.mem_of_mem_filter hmem
    have hfind := findTaskByVpid_eq_some tbl current _ _ htask (hns ▸ tbl.pid_mem _ htask)
    obtain ⟨hone, hread⟩ := usageStats_single score env tbl current _ buffer maxEntries stack'
      user' (hcopy 0) hfind (hpositive _ hmem) hbuffer hmax
    rw [← hscore] at hone hread
    have hreported : (reportedTasks tbl current 0 buffer maxEntries)[k]? =
        some (forEachProcess tbl)[k] := by
      rw [reportedTasks_all tbl current hbuffer hmax, List.getElem?_take_of_lt (by omega),
        List.getElem?_eq_getElem hk']
    have hrecord := usageStats_record score env tbl current 0 buffer maxEntries stack user hreported
      (fun i _ => hcopy i)
    rw [← hscore] at hrecord
    exact ⟨hone, hrecord.trans hread.symm⟩

/-- An address space of which only the page count matters. -/
def pagesMm (pages : ULong) : MmStruct := ⟨0, 0, 0, 0, pages, 0, 0, 0, 0, 0, 0, []⟩

/-- A process of the initial pid namespace, or a kernel thread when it has no address space. -/
def leaderOf (pid : PidT) (mm : Option MmStruct) : TaskStruct :=
  ⟨pid, pid, [(initPidNs, pid)], initPidNs, mm⟩

/-- Two processes. -/
def pairTable (mm mm' : Option MmStruct) : TaskTable where
  tasks := [leaderOf 1 mm, leaderOf 2 mm']
  pid_mem := by simp [leaderOf]
  unique := by
    intro t ht u hu n hnt hnu
    simp only [List.mem_cons, List.not_mem_nil, or_false] at ht hu
    rcases ht with rfl | rfl <;> rcases hu with rfl | rfl <;>
      simp_all [leaderOf]

/-- Nothing is resident, no score is given, and every copy succeeds. -/
def idleStats : StatsEnv := ⟨fun _ => 0, fun _ => 0, fun _ => none, 1000, 0, fun _ => 0⟩

/-- INTERNAL: a process of 300 pages and a kernel thread, listed with room for one record: both
forms deliver its number and its 1200 kilobytes. -/
theorem memoryUsageStats_list_eq_single_pair :
    let tbl := pairTable (some (pagesMm 300)) none
    let current := leaderOf 1 (some (pagesMm 300))
    let list := juliozGetMemoryUsageStats idleStats tbl current 0 4096 1 (fun _ => 0xaa) (fun _ => 0)
    let single := juliozGetMemoryUsageStats idleStats tbl current 1 4096 1 (fun _ => 0x55) (fun _ => 0)
    list.1 = 1 ∧ MemUsageStats.read list.2 4096 = MemUsageStats.read single.2 4096 ∧
      (MemUsageStats.read list.2 4096).pid = 1 ∧ (MemUsageStats.read list.2 4096).vmsize = 1200 := by
  intro tbl current list single
  obtain ⟨hret, -, hrecords⟩ := memoryUsageStats_list_eq_single juliozGetMemoryUsageStats
    (Or.inl rfl) idleStats tbl current 4096 1 (fun _ => 0xaa) (fun _ => 0) rfl
    (show ((forEachProcess (pairTable (some (pagesMm 300)) none)).map TaskStruct.pid).Nodup by
      decide)
    (show ∀ task ∈ forEachProcess (pairTable (some (pagesMm 300)) none), 0 < task.pid.toInt by
      decide)
    (by decide) (by decide) (fun _ => rfl)
  obtain ⟨task, htask, hsingle⟩ := hrecords 0 (by decide)
  have hread := usageStats_record (fun task => (idleStats.oomBadness task).setWidth 32) idleStats
    tbl current 0 4096 1 (fun _ => 0xaa) (fun _ => 0)
    (show (reportedTasks (pairTable (some (pagesMm 300)) none) (leaderOf 1 (some (pagesMm 300))) 0
      4096 1)[0]? = some (leaderOf 1 (some (pagesMm 300))) by decide) (fun _ _ => rfl)
  have haddr : ((4096 : ULong).toNat + memUsageStats.sizeof * (0 : ℕ) : ℤ) = 4096 := by decide
  rw [haddr] at hread
  have hrecord : MemUsageStats.read list.2 4096 = _ := hread
  cases htask
  refine ⟨hret, (hsingle (fun _ => 0x55) (fun _ => 0)).2, ?_, ?_⟩
  · rw [hrecord]
    rfl
  · rw [hrecord]
    rfl

/-! ## The totals of all processes -/

/-- The address space of a task in bytes. -/
def reservedBytes (task : TaskStruct) : ℕ :=
  match task.mm with
  | none => 0
  | some mm => mm.totalVm.toNat * 4096

/-- The resident memory of a task in bytes, as far as 64 bits hold it. -/
def committedBytes (env : StatsEnv) (task : TaskStruct) : ℕ :=
  match task.mm with
  | none => 0
  | some _ => (env.getMmRss task).toNat * 4096 % 2 ^ 64

/-- INTERNAL: the sizes in a record are those of the task, in kilobytes.
SOURCE: pidstats.c:33-44 -/
theorem usageOf_sizes (score : TaskStruct → CInt) (env : StatsEnv) (task : TaskStruct) :
    (usageOf score env task).vmsize.toNat = reservedBytes task % 2 ^ 64 / 1024 ∧
      (usageOf score env task).vmrss.toNat = committedBytes env task / 1024 := by
  unfold usageOf reservedBytes committedBytes
  cases task.mm with
  | none => simp
  | some mm =>
    simp only [BitVec.toNat_udiv, pagesToBytes_toNat]
    exact ⟨rfl, rfl⟩

/-- INTERNAL: the loop adds up megabytes, each process rounded down on its own.
SOURCE: globalstats.c:17-22 -/
theorem globalLoop_totals (env : StatsEnv) (tasks : List TaskStruct) (stats : GlobalMemStats) :
    (globalLoop env tasks stats).totalReservedMb.toNat =
        (stats.totalReservedMb.toNat +
          (tasks.map (fun t => reservedBytes t % 2 ^ 64 / 1048576)).sum) % 2 ^ 64 ∧
      (globalLoop env tasks stats).totalCommittedMb.toNat =
        (stats.totalCommittedMb.toNat +
          (tasks.map (fun t => committedBytes env t / 1048576)).sum) % 2 ^ 64 := by
  induction tasks generalizing stats with
  | nil =>
    have h1 := stats.totalReservedMb.isLt
    have h2 := stats.totalCommittedMb.isLt
    simp only [globalLoop, List.map_nil, List.sum_nil]
    omega
  | cons task rest ih =>
    have hmega : (1024 * 1024 : ULong).toNat = 1048576 := rfl
    simp only [List.map_cons, List.sum_cons]
    unfold globalLoop
    cases hmm : task.mm with
    | none =>
      obtain ⟨hreserved, hcommitted⟩ := ih stats
      simp only [hreserved, hcommitted, reservedBytes, committedBytes, hmm]
      simp
    | some mm =>
      simp only
      rw [(ih _).1, (ih _).2]
      simp only [BitVec.toNat_add, BitVec.toNat_udiv, pagesToBytes_toNat, hmega, reservedBytes,
        committedBytes, hmm]
      omega

/-- INTERNAL: what the call delivers.
SOURCE: globalstats.c:12-30 -/
theorem globalStats_read (env : StatsEnv) (tbl : TaskTable) (userStats : ULong)
    (stack user : Bytes) (hcopy : env.copyToUser 0 = 0) :
    GlobalMemStats.read (juliozGetGlobalMemoryUsageStats env tbl userStats stack user).2
      userStats.toNat = globalLoop env (forEachProcess tbl) ⟨0, 0⟩ := by
  have hoffsets : globalMemStats.offset 0 = 0 ∧ globalMemStats.offset 1 = 8 ∧
      globalMemStats.sizeof = 16 := by decide
  obtain ⟨h0, h1, hsize⟩ := hoffsets
  simp only [juliozGetGlobalMemoryUsageStats, hcopy, ne_eq, not_true_eq_false, if_false, copyToUser,
    Nat.sub_zero]
  generalize globalLoop env (forEachProcess tbl) ⟨0, 0⟩ = stats
  have hload := load_copy_assignAll user stack userStats.toNat globalMemStats.sizeof stats.assignments
    (by simp [GlobalMemStats.assignments, Assignment.Apart, h0, h1])
    (by simp [GlobalMemStats.assignments])
    (by simp [GlobalMemStats.assignments, h0, h1, hsize])
  simp only [GlobalMemStats.assignments, List.forall_mem_cons] at hload
  obtain ⟨hreserved, hcommitted, -⟩ := hload
  simp only [GlobalMemStats.read, GlobalMemStats.assignments, hreserved, hcommitted]

/-- The `n` records from `buffer` on. -/
def recordsAt (user : Bytes) (buffer : ULong) (n : ℕ) : List MemUsageStats :=
  (List.range n).map (fun k : ℕ =>
    MemUsageStats.read user (buffer.toNat + memUsageStats.sizeof * (k : ℤ)))

/-- INTERNAL: with room for all processes, the list form delivers a record for each. -/
theorem usageStats_all_records (score : TaskStruct → CInt) (env : StatsEnv) (tbl : TaskTable)
    (current : TaskStruct) (buffer maxEntries : ULong) (stack user : Bytes) (hbuffer : buffer ≠ 0)
    (hmax : 1 ≤ maxEntries.toNat) (hroom : (forEachProcess tbl).length ≤ maxEntries.toNat)
    (hcopy : ∀ k, env.copyToUser k = 0) :
    recordsAt (usageStats score env tbl current 0 buffer maxEntries stack user).2 buffer
        (forEachProcess tbl).length =
      (forEachProcess tbl).map (usageOf score env) := by
  unfold recordsAt
  apply List.ext_getElem
  · simp
  · intro k hk hk'
    have hk'' : k < (forEachProcess tbl).length := by simpa using hk'
    rw [List.getElem_map, List.getElem_map, List.getElem_range]
    apply usageStats_record
    · rw [reportedTasks_all tbl current hbuffer hmax, List.getElem?_take_of_lt (by omega),
        List.getElem?_eq_getElem hk'']
    · exact fun i _ => hcopy i

/-- INTERNAL: rounding down before adding up loses the remainders. -/
theorem sum_eq_div_add_mod (l : List ℕ) (d : ℕ) :
    l.sum = d * (l.map (fun n => n / d)).sum + (l.map (fun n => n % d)).sum := by
  induction l with
  | nil => simp
  | cons n l ih =>
    have hn := Nat.div_add_mod n d
    simp only [List.map_cons, List.sum_cons, Nat.mul_add]
    omega

/-- INTERNAL: a term of a sum of natural numbers is at most the sum. -/
theorem reservedBytes_lt {tasks : List TaskStruct} {bound : ℕ}
    (hsum : (tasks.map reservedBytes).sum < bound) : ∀ t ∈ tasks, reservedBytes t < bound := by
  intro t ht
  exact (List.single_le_sum (fun _ _ => Nat.zero_le _) _ (List.mem_map_of_mem ht)).trans_lt hsum

/-- MAIN: **when the totals are the sums of the records.** On one process table whose
address spaces together have fewer than 2^64 bytes, `total_reserved_mb` is the sum of the
`vmsize` members in whole megabytes exactly when the kilobytes by which the processes
exceed whole megabytes add up to less than one; the same goes for `total_committed_mb` and
`vmrss`, provided the total fits its 64 bits. Both calls round down, but the global one
does so for each process before it adds.
SOURCE: globalstats.c:12-30; pidstats.c:25-55 -/
theorem globalStats_eq_sum_iff (env : StatsEnv) (tbl : TaskTable) (current : TaskStruct)
    (buffer maxEntries userStats : ULong) (stack stack' user user' : Bytes)
    (hsum : ((forEachProcess tbl).map reservedBytes).sum < 2 ^ 64) (hbuffer : buffer ≠ 0)
    (hmax : 1 ≤ maxEntries.toNat) (hroom : (forEachProcess tbl).length ≤ maxEntries.toNat)
    (hcopy : ∀ k, env.copyToUser k = 0) :
    let list := juliozGetMemoryUsageStats env tbl current 0 buffer maxEntries stack user
    let records := recordsAt list.2 buffer (forEachProcess tbl).length
    let global := GlobalMemStats.read
      (juliozGetGlobalMemoryUsageStats env tbl userStats stack' user').2 userStats.toNat
    (global.totalReservedMb.toNat = (records.map (fun s => s.vmsize.toNat)).sum / 1024 ↔
        ((forEachProcess tbl).map (fun t => reservedBytes t / 1024 % 1024)).sum < 1024) ∧
      (global.totalCommittedMb.toNat = (records.map (fun s => s.vmrss.toNat)).sum / 1024 ↔
        ((forEachProcess tbl).map (fun t => committedBytes env t / 1024 % 1024)).sum < 1024 ∧
          ((forEachProcess tbl).map (fun t => committedBytes env t / 1048576)).sum < 2 ^ 64) := by
  intro list records global
  have hrecords : records = (forEachProcess tbl).map
      (usageOf (fun task => (env.oomBadness task).setWidth 32) env) :=
    usageStats_all_records _ env tbl current buffer maxEntries stack user hbuffer hmax hroom hcopy
  have hglobal : global = globalLoop env (forEachProcess tbl) ⟨0, 0⟩ :=
    globalStats_read env tbl userStats stack' user' (hcopy 0)
  obtain ⟨hreserved, hcommitted⟩ := globalLoop_totals env (forEachProcess tbl) ⟨0, 0⟩
  rw [← hglobal] at hreserved hcommitted
  simp only [show (0 : ULong).toNat = 0 from rfl, Nat.zero_add] at hreserved hcommitted
  rw [hreserved, hcommitted, hrecords, List.map_map, List.map_map]
  -- no address space alone reaches 2^64 bytes, so each is measured exactly
  have hexact := reservedBytes_lt hsum
  have hbytes (d : ℕ) : (forEachProcess tbl).map (fun t => reservedBytes t % 2 ^ 64 / d) =
      (forEachProcess tbl).map (fun t => reservedBytes t / d) := by
    apply List.map_congr_left
    intro t ht
    rw [Nat.mod_eq_of_lt (hexact t ht)]
  have hvmsize : (forEachProcess tbl).map ((fun s => s.vmsize.toNat) ∘
      usageOf (fun task => (env.oomBadness task).setWidth 32) env) =
      (forEachProcess tbl).map (fun t => reservedBytes t / 1024) := by
    rw [← hbytes]
    exact List.map_congr_left (fun t _ => (usageOf_sizes _ env t).1)
  have hvmrss : (forEachProcess tbl).map ((fun s => s.vmrss.toNat) ∘
      usageOf (fun task => (env.oomBadness task).setWidth 32) env) =
      (forEachProcess tbl).map (fun t => committedBytes env t / 1024) :=
    List.map_congr_left (fun t _ => (usageOf_sizes _ env t).2)
  rw [hbytes, hvmsize, hvmrss]
  have hsplit := sum_eq_div_add_mod ((forEachProcess tbl).map (fun t => reservedBytes t / 1024)) 1024
  have hsplit' :=
    sum_eq_div_add_mod ((forEachProcess tbl).map (fun t => committedBytes env t / 1024)) 1024
  have hwhole := sum_eq_div_add_mod ((forEachProcess tbl).map reservedBytes) 1048576
  simp only [List.map_map, Function.comp_def, Nat.div_div_eq_div_mul, Nat.reduceMul] at *
  omega

/-- INTERNAL: two processes of 512 kilobytes: the records add up to a megabyte, the total
is zero. -/
theorem globalStats_loses_megabyte :
    let tbl := pairTable (some (pagesMm 128)) (some (pagesMm 128))
    let current := leaderOf 1 (some (pagesMm 128))
    let list := juliozGetMemoryUsageStats idleStats tbl current 0 4096 2 (fun _ => 0) (fun _ => 0)
    let global := GlobalMemStats.read
      (juliozGetGlobalMemoryUsageStats idleStats tbl 4096 (fun _ => 0) (fun _ => 0)).2 4096
    ((forEachProcess tbl).map reservedBytes).sum < 2 ^ 64 ∧ global.totalReservedMb.toNat = 0 ∧
      ((recordsAt list.2 4096 (forEachProcess tbl).length).map (fun s => s.vmsize.toNat)).sum /
        1024 = 1 := by
  intro tbl current list global
  have hglobal : global = globalLoop idleStats (forEachProcess tbl) ⟨0, 0⟩ :=
    globalStats_read idleStats tbl 4096 (fun _ => 0) (fun _ => 0) rfl
  have hlist : list = usageStats (fun task => (idleStats.oomBadness task).setWidth 32) idleStats tbl
      current 0 4096 2 (fun _ => 0) (fun _ => 0) := rfl
  rw [hglobal, hlist, usageStats_all_records _ idleStats tbl current 4096 2 (fun _ => 0)
    (fun _ => 0) (by decide) (by decide) (by decide) (fun _ => rfl)]
  exact ⟨by decide, by decide, by decide⟩

/-- INTERNAL: a table with one process that has memory meets the assumptions. -/
theorem globalStats_eq_sum_one_process :
    let tbl := pairTable (some (pagesMm 300)) none
    let current := leaderOf 1 (some (pagesMm 300))
    let list := juliozGetMemoryUsageStats idleStats tbl current 0 4096 2 (fun _ => 0) (fun _ => 0)
    let global := GlobalMemStats.read
      (juliozGetGlobalMemoryUsageStats idleStats tbl 4096 (fun _ => 0) (fun _ => 0)).2 4096
    global.totalReservedMb.toNat =
      ((recordsAt list.2 4096 (forEachProcess tbl).length).map (fun s => s.vmsize.toNat)).sum /
        1024 :=
  (globalStats_eq_sum_iff idleStats (pairTable (some (pagesMm 300)) none)
    (leaderOf 1 (some (pagesMm 300))) 4096 2 4096 (fun _ => 0) (fun _ => 0) (fun _ => 0)
    (fun _ => 0) (by decide) (by decide) (by decide) (by decide) (fun _ => rfl)).1.mpr (by decide)

end UsacKernel.Analysis
