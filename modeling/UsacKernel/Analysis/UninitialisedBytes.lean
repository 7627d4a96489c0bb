import UsacKernel.Analysis.LimitListing
import UsacKernel.Analysis.ProcessStatistics

/-!
# Uninitialised kernel bytes in user memory

Both record types have four bytes of padding after their first member, which no
assignment reaches. `julioz_get_memory_limits` fills memory of `kmalloc_array` and
`julioz_get_memory_usage_stats` a local variable, and both copy whole structs to the user:
whenever one record arrives, its padding holds what the heap or the stack held before.
-/

set_option autoImplicit false

namespace UsacKernel.Analysis

open UsacKernel.Computation UsacKernel.Model

/-- Two runs that differ only in the previous content of the kernel memory end the same. -/
def IgnoresPrevious {α : Type} (run : Bytes → α) : Prop :=
  ∀ previous previous', run previous = run previous'

/-- INTERNAL: one byte that is copied from the previous content makes the runs differ. -/
theorem not_ignoresPrevious {run : Bytes → Bytes} {b i : ℤ}
    (h : ∀ previous, run previous b = previous i) : ¬ IgnoresPrevious run := by
  intro hignores
  have hbyte := congrFun (hignores (fun _ => 0) (fun _ => 0xff)) b
  rw [h, h] at hbyte
  exact absurd hbyte (by decide)

/-! ## `struct memory_limitation` -/

/-- INTERNAL: the bytes of the struct that its two assignments reach.
SOURCE: crudmemlimit.c:16-19, 153-154 -/
theorem MemoryLimitation.covers_iff (entry : MemoryLimitation) (d : ℤ) :
    (∃ x ∈ entry.assignments, x.Covers d) ↔ (0 ≤ d ∧ d < 4) ∨ (8 ≤ d ∧ d < 16) := by
  obtain ⟨h0, h1, -⟩ := memoryLimitation_offsets
  simp only [MemoryLimitation.assignments, List.mem_cons, List.not_mem_nil, or_false,
    exists_eq_or_imp, exists_eq_left, Assignment.Covers, h0, h1]
  omega

/-- INTERNAL: the loop leaves the padding of every struct of the buffer as it is.
SOURCE: crudmemlimit.c:148-156 -/
theorem fillBuffer_padding (maxEntries : ULong) (l : MemoryList) (count : CInt) (heap : Bytes)
    (i : ℤ) (hi : 4 ≤ i % 16 ∧ i % 16 < 8) :
    (Bytewise.fillBuffer maxEntries l count heap).2 i = heap i := by
  obtain ⟨-, -, hsize⟩ := memoryLimitation_offsets
  induction l generalizing count heap with
  | nil => rfl
  | cons entry rest ih =>
    unfold Bytewise.fillBuffer
    split_ifs with hfull
    · rfl
    · rw [ih]
      apply (assignAll_eq _ entry.assignments heap heap i).1
      intro x hx hcovers
      have hd := (MemoryLimitation.covers_iff entry _).mp ⟨x, hx, hcovers⟩
      rw [hsize] at hd
      omega

/-- INTERNAL: the loop counts without a look at the buffer, and a byte on which two
buffers agree before is one on which they agree afterwards.
SOURCE: crudmemlimit.c:148-156 -/
theorem fillBuffer_agree (maxEntries : ULong) (l : MemoryList) (count : CInt) (heap heap' : Bytes)
    (i : ℤ) (hi : heap i = heap' i) :
    (Bytewise.fillBuffer maxEntries l count heap).2 i =
      (Bytewise.fillBuffer maxEntries l count heap').2 i := by
  induction l generalizing count heap heap' with
  | nil => exact hi
  | cons entry rest ih =>
    unfold Bytewise.fillBuffer
    split_ifs with hfull
    · exact hi
    · apply ih
      obtain ⟨hkeep, hsame⟩ := assignAll_eq (memoryLimitation.sizeof * count.toInt)
        entry.assignments heap heap' i
      obtain ⟨hkeep', -⟩ := assignAll_eq (memoryLimitation.sizeof * count.toInt)
        entry.assignments heap' heap i
      by_cases hcovers : ∃ x ∈ entry.assignments,
          x.Covers (i - memoryLimitation.sizeof * count.toInt)
      · exact hsame hcovers
      · push Not at hcovers
        rw [hkeep hcovers, hkeep' hcovers, hi]

/-- INTERNAL: the pid of the first record is assigned, if there is a record.
SOURCE: crudmemlimit.c:148-156 -/
theorem fillBuffer_first_pid (maxEntries : ULong) (entry : MemoryLimitation) (rest : MemoryList)
    (hmax : 0 < maxEntries.toNat) (heap heap' : Bytes) (i : ℤ) (hi : 0 ≤ i ∧ i < 4) :
    (Bytewise.fillBuffer maxEntries (entry :: rest) 0 heap).2 i =
      (Bytewise.fillBuffer maxEntries (entry :: rest) 0 heap').2 i := by
  have hroom : ¬ (0 : CInt).signExtend 64 ≥ maxEntries := by
    rw [ge_iff_le, BitVec.not_le]
    exact BitVec.lt_def.mpr hmax
  unfold Bytewise.fillBuffer
  rw [if_neg hroom, if_neg hroom]
  apply fillBuffer_agree
  apply (assignAll_eq _ entry.assignments heap heap' i).2
  apply (MemoryLimitation.covers_iff entry _).mpr
  rw [show (0 : CInt).toInt = 0 from rfl]
  omega

/-- The number of bytes that `julioz_get_memory_limits` asks `copy_to_user` for: the counter,
as a `size_t`, times the size of a struct.
SOURCE: crudmemlimit.c:160 -/
def bytesAsked (maxEntries : ULong) (l : MemoryList) : ℕ :=
  ((BitVec.ofNat 32 (min l.length (min maxEntries.toNat (2 ^ 31)))).signExtend 64 *
    BitVec.ofNat 64 memoryLimitation.sizeof).toNat

/-- INTERNAL: user memory after the call, once the buffer is allocated.
SOURCE: crudmemlimit.c:127-174 -/
theorem get_user_eq (a : Answers) (dst maxEntries : ULong) (l : MemoryList) (heap user : Bytes)
    (halloc : getChecks a maxEntries = none) :
    (Bytewise.juliozGetMemoryLimits a dst maxEntries l heap user).user =
      copyToUser user dst.toNat (Bytewise.fillBuffer maxEntries l 0 heap).2
        (bytesAsked maxEntries l) a.copyToUser := by
  obtain ⟨hcount, -, -⟩ := fillBuffer_records maxEntries (getChecks_size halloc) l 0
    (Nat.zero_le _) heap
  rw [Nat.zero_add] at hcount
  simp only [Bytewise.juliozGetMemoryLimits, halloc, Bytewise.getCopies]
  rw [show (0 : CInt) = BitVec.ofNat 32 0 from rfl, hcount, ← bytesAsked]
  split_ifs <;> rfl

/-- INTERNAL: the call delivers no byte of the heap exactly when it delivers at most the
pid of the first record.
SOURCE: crudmemlimit.c:127-174 -/
theorem getMemoryLimits_ignoresPrevious_iff (a : Answers) (dst maxEntries : ULong) (l : MemoryList)
    (user : Bytes) :
    IgnoresPrevious (fun heap =>
        (Bytewise.juliozGetMemoryLimits a dst maxEntries l heap user).user) ↔
      getChecks a maxEntries ≠ none ∨ bytesAsked maxEntries l ≤ a.copyToUser + 4 := by
  cases hchecks : getChecks a maxEntries with
  | some e => simp [IgnoresPrevious, Bytewise.juliozGetMemoryLimits, hchecks]
  | none =>
    simp only [ne_eq, not_true_eq_false, false_or]
    constructor
    · intro hignores
      by_contra hmore
      refine not_ignoresPrevious (b := dst.toNat + 4) (i := 4) ?_ hignores
      intro heap
      rw [get_user_eq a dst maxEntries l heap user hchecks, copyToUser,
        Bytes.copy_inside _ _ _ _ _ (by omega),
        show 0 + (dst.toNat + 4 - (dst.toNat : ℤ)) = 4 by omega]
      exact fillBuffer_padding maxEntries l 0 heap 4 (by decide)
    · intro hfew heap heap'
      simp only [get_user_eq a dst maxEntries l _ user hchecks, copyToUser]
      apply Bytes.copy_congr
      intro k hk
      cases l with
      | nil =>
        have hnothing : bytesAsked maxEntries [] = 0 := by
          simp [bytesAsked]
        omega
      | cons entry rest =>
        have hmax : 0 < maxEntries.toNat := by
          by_contra hzero
          have hnothing : bytesAsked maxEntries (entry :: rest) = 0 := by
            simp [bytesAsked, Nat.eq_zero_of_not_pos hzero]
          omega
        exact fillBuffer_first_pid maxEntries entry rest hmax heap heap' _ (by omega)

/-! ## `struct mem_usage_stats` -/

/-- INTERNAL: the bytes of the struct that its five assignments reach.
SOURCE: pidstats.c:8-14, 32-48 -/
theorem MemUsageStats.covers_iff (s : MemUsageStats) (d : ℤ) :
    (∃ x ∈ s.assignments, x.Covers d) ↔ (0 ≤ d ∧ d < 4) ∨ (8 ≤ d ∧ d < 32) := by
  obtain ⟨h0, h1, h2, h3, h4, -⟩ := memUsageStats_offsets
  simp only [MemUsageStats.assignments, List.mem_cons, List.not_mem_nil, or_false,
    exists_eq_or_imp, exists_eq_left, Assignment.Covers, h0, h1, h2, h3, h4]
  omega

/-- INTERNAL: the first byte behind the pid of a record is what the stack had there. -/
theorem stats_padding (s : MemUsageStats) (stack : Bytes) :
    assignAll 0 s.assignments stack 4 = stack 4 := by
  apply (assignAll_eq 0 s.assignments stack stack 4).1
  intro x hx hcovers
  have hd := (MemUsageStats.covers_iff s _).mp ⟨x, hx, hcovers⟩
  omega

section UsageStats

variable (score : TaskStruct → CInt) (env : StatsEnv) (buffer maxEntries : ULong)

/-- INTERNAL: the rounds from `count` on write no byte before record `count`, whether the
copies succeed or not.
SOURCE: pidstats.c:27-55 -/
theorem usageLoop_before (tasks : List TaskStruct) (count : ULong) (stats user : Bytes) (b : ℤ)
    (hb : b < buffer.toNat + 32 * (count.toNat : ℤ)) :
    (usageLoop score env buffer maxEntries tasks count stats user).2 b = user b := by
  obtain ⟨-, -, -, -, -, hsize⟩ := memUsageStats_offsets
  apply usageLoop_frame
  rw [hsize]
  exact Or.inl hb

/-- INTERNAL: the first record, as it is copied to the user. The padding is the stack's when
it is copied, and the rest does not depend on the stack.
SOURCE: pidstats.c:32-54, 64-84 -/
theorem firstRecord_padding (s : MemUsageStats) (stack user : Bytes) (left : ℕ) (hleft : left < 28) :
    copyToUser user buffer.toNat (assignAll 0 s.assignments stack) memUsageStats.sizeof left
      (buffer.toNat + 4) = stack 4 := by
  obtain ⟨-, -, -, -, -, hsize⟩ := memUsageStats_offsets
  rw [copyToUser, hsize, Bytes.copy_inside _ _ _ _ _ (by omega),
    show 0 + (buffer.toNat + 4 - (buffer.toNat : ℤ)) = 4 by omega]
  exact stats_padding s stack

/-- INTERNAL: a copy that stops within the pid of a record does not depend on the stack. -/
theorem firstRecord_pid (s : MemUsageStats) (stack stack' user : Bytes) (left : ℕ)
    (hleft : 28 ≤ left) :
    copyToUser user buffer.toNat (assignAll 0 s.assignments stack) memUsageStats.sizeof left =
      copyToUser user buffer.toNat (assignAll 0 s.assignments stack') memUsageStats.sizeof left := by
  obtain ⟨-, -, -, -, -, hsize⟩ := memUsageStats_offsets
  rw [hsize]
  apply Bytes.copy_congr
  intro k hk
  apply (assignAll_eq 0 s.assignments stack stack' _).2
  exact (MemUsageStats.covers_iff s _).mpr (by omega)

/-- INTERNAL: the first round, in which a record of a first process is written.
SOURCE: pidstats.c:27-55 -/
theorem usageLoop_first (task : TaskStruct) (rest : List TaskStruct)
    (hmax : 1 ≤ maxEntries.toNat) (stack user : Bytes) :
    usageLoop score env buffer maxEntries (task :: rest) 0 stack user =
      let stats := assignAll 0 (usageOf score env task).assignments stack
      let user := copyToUser user buffer.toNat stats memUsageStats.sizeof (env.copyToUser 0)
      if env.copyToUser 0 ≠ 0 then (EFAULT.neg, user)
      else usageLoop score env buffer maxEntries rest 1 stats user := by
  have hroom : ¬ (0 : ULong) ≥ maxEntries := by
    rw [ge_iff_le, BitVec.not_le]
    exact BitVec.lt_def.mpr hmax
  conv_lhs => unfold usageLoop
  rw [if_neg hroom]
  simp

/-- INTERNAL: the loop delivers no byte of the stack exactly when there is no process or
the first copy delivers at most the pid.
SOURCE: pidstats.c:27-55 -/
theorem usageLoop_ignoresPrevious_iff (tasks : List TaskStruct)
    (hmax : 1 ≤ maxEntries.toNat) (user : Bytes) :
    IgnoresPrevious (fun stack =>
        (usageLoop score env buffer maxEntries tasks 0 stack user).2) ↔
      tasks = [] ∨ 28 ≤ env.copyToUser 0 := by
  cases tasks with
  | nil => simp [IgnoresPrevious, usageLoop]
  | cons task rest =>
    simp only [usageLoop_first score env buffer maxEntries task rest hmax, reduceCtorEq, false_or]
    constructor
    · intro hignores
      by_contra hmore
      refine not_ignoresPrevious (b := buffer.toNat + 4) (i := 4) ?_ hignores
      intro stack
      have hfirst := firstRecord_padding buffer (usageOf score env task) stack user
        (env.copyToUser 0) (by omega)
      split_ifs with hfault
      · exact hfirst
      · -- the padding of the first record outlives the later rounds
        rw [usageLoop_before _ _ _ _ _ _ _ _ _ (by rw [show (1 : ULong).toNat = 1 from rfl]; omega)]
        exact hfirst
    · intro hfew stack stack'
      simp only [if_pos (show env.copyToUser 0 ≠ 0 by omega)]
      exact firstRecord_pid buffer _ stack stack' user _ hfew

/-- INTERNAL: the branch for one process.
SOURCE: pidstats.c:57-85 -/
theorem usageSingle_ignoresPrevious_iff (tbl : TaskTable) (current : TaskStruct) (pid : CInt)
    (user : Bytes) :
    IgnoresPrevious (fun stack =>
        (usageSingle score env tbl current pid buffer stack user).2) ↔
      findTaskByVpid tbl current pid = none ∨ 28 ≤ env.copyToUser 0 := by
  cases hfind : findTaskByVpid tbl current pid with
  | none => simp [IgnoresPrevious, usageSingle, hfind]
  | some task =>
    have huser (stack : Bytes) : (usageSingle score env tbl current pid buffer stack user).2 =
        copyToUser user buffer.toNat (assignAll 0 (usageOf score env task).assignments stack)
          memUsageStats.sizeof (env.copyToUser 0) := by
      simp only [usageSingle, hfind]
      split_ifs <;> rfl
    simp only [huser, reduceCtorEq, false_or]
    constructor
    · intro hignores
      by_contra hmore
      exact not_ignoresPrevious (b := buffer.toNat + 4) (i := 4)
        (fun stack => firstRecord_padding buffer _ stack user _ (by omega)) hignores
    · intro hfew stack stack'
      exact firstRecord_pid buffer _ stack stack' user _ hfew

/-- INTERNAL: the call delivers no byte of the stack exactly when it fails before its first
copy, has no process to report, or its first copy delivers at most the pid.
SOURCE: pidstats.c:16-89 -/
theorem usageStats_ignoresPrevious_iff (tbl : TaskTable) (current : TaskStruct) (pid : CInt)
    (user : Bytes) :
    IgnoresPrevious (fun stack =>
        (usageStats score env tbl current pid buffer maxEntries stack user).2) ↔
      pid.toInt < 0 ∨ buffer = 0 ∨ maxEntries = 0 ∨ (pid = 0 ∧ forEachProcess tbl = []) ∨
        (pid ≠ 0 ∧ findTaskByVpid tbl current pid = none) ∨ 28 ≤ env.copyToUser 0 := by
  by_cases hmax : maxEntries = 0
  · simp [IgnoresPrevious, usageStats, hmax]
  by_cases hearly : pid.toInt < 0 ∨ buffer = 0
  · have hinvalid : pid.toInt < 0 ∨ buffer = 0 ∨ maxEntries ≤ 0 := by tauto
    simp only [usageStats, if_pos hinvalid]
    exact iff_of_true (fun _ _ => rfl) (by tauto)
  push Not at hearly
  have hone : 1 ≤ maxEntries.toNat := Nat.one_le_iff_ne_zero.mpr (BitVec.toNat_ne.mp hmax)
  simp only [usageStats_eq score env tbl current pid buffer maxEntries _ user hearly.1 hearly.2 hone,
    not_lt.mpr hearly.1, hearly.2, hmax, false_or]
  by_cases hall : pid = 0
  · simp only [hall, if_true, true_and, ne_eq, not_true_eq_false, false_and, false_or]
    exact usageLoop_ignoresPrevious_iff score env buffer maxEntries _ hone user
  · simp only [hall, if_false, false_and, ne_eq, not_false_eq_true, true_and, false_or]
    exact usageSingle_ignoresPrevious_iff score env buffer tbl current pid user

end UsageStats

/-! ## The calls -/

/-- MAIN: **when the record calls leak.** User memory after `julioz_get_memory_limits` is
the same for all previous contents of the heap exactly when the call fails before its copy
or at most the pid of the first record is copied, and user memory after either version of
`julioz_get_memory_usage_stats` the same for all previous contents of the stack exactly
when the call fails before its first copy, has no process to report or copies at most the
pid of the first one. Every call that delivers a whole record delivers kernel bytes with it.
SOURCE: crudmemlimit.c:127-174, pidstats.c:16-89, pidstatsv2.c:46-119 -/
theorem userBytes_ignorePrevious_iff (a : Answers) (env : StatsEnv) (l : MemoryList)
    (tbl : TaskTable) (current : TaskStruct) (pid : CInt) (buffer maxEntries : ULong)
    (user : Bytes) :
    (IgnoresPrevious (fun heap =>
          (Bytewise.juliozGetMemoryLimits a buffer maxEntries l heap user).user) ↔
        getChecks a maxEntries ≠ none ∨ bytesAsked maxEntries l ≤ a.copyToUser + 4) ∧
      ∀ call ∈ [juliozGetMemoryUsageStats, V2.juliozGetMemoryUsageStats],
        (IgnoresPrevious (fun stack =>
            (call env tbl current pid buffer maxEntries stack user).2) ↔
          pid.toInt < 0 ∨ buffer = 0 ∨ maxEntries = 0 ∨ (pid = 0 ∧ forEachProcess tbl = []) ∨
            (pid ≠ 0 ∧ findTaskByVpid tbl current pid = none) ∨ 28 ≤ env.copyToUser 0) := by
  refine ⟨getMemoryLimits_ignoresPrevious_iff a buffer maxEntries l user, ?_⟩
  intro call hcall
  simp only [List.mem_cons, List.not_mem_nil, or_false] at hcall
  rcases hcall with rfl | rfl
  · exact usageStats_ignoresPrevious_iff _ env buffer maxEntries tbl current pid user
  · exact usageStats_ignoresPrevious_iff _ env buffer maxEntries tbl current pid user

/-- INTERNAL: one entry, and one process. The fifth byte of user memory is what the heap,
or the stack, held. -/
theorem userBytes_padding_leaked :
    let limits (heap : Bytes) :=
      (Bytewise.juliozGetMemoryLimits readyAnswers 4096 1 [⟨5, 100⟩] heap (fun _ => 0)).user
    let stats (stack : Bytes) :=
      (juliozGetMemoryUsageStats idleStats (tableOf 5 (heapMm 1)) (processOf 5 (heapMm 1)) 0 4096 1
        stack (fun _ => 0)).2
    limits (fun _ => 0) 4100 = 0 ∧ limits (fun _ => 0xff) 4100 = 0xff ∧
      stats (fun _ => 0) 4100 = 0 ∧ stats (fun _ => 0xff) 4100 = 0xff := by
  decide

end UsacKernel.Analysis
