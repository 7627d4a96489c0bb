import UsacKernel.Analysis.ProcessStatistics
import UsacKernel.Model.UserDeclarations

/-!
# What user programs read from the kernel's records

Every declaration of `struct mem_usage_stats` outside the kernel source is a view of the
kernel's: it has the same members at the beginning, with types of the same width and sign,
and the same size, since the member that some of them leave out falls into what is padding
for them. So every element of an array that the kernel has written is read as it was stored,
not only the first.
-/

set_option autoImplicit false

namespace UsacKernel.Analysis

open UsacKernel.Computation UsacKernel.Model

/-! ## Views of the kernel's declaration -/

/-- INTERNAL: each declaration of the user programs begins as the kernel one does, and has its
size. -/
theorem userDeclarations_viewOf : ∀ d ∈ userDeclarations, d.ViewOf kernelDeclaration := by
  have hshort (d : Declaration StatsMember) (hd : d = kernelDeclaration.take 4) :
      d.ViewOf kernelDeclaration := by
    rw [hd]
    exact ⟨⟨kernelDeclaration.drop 4, List.take_append_drop 4 _⟩, by decide⟩
  intro d hd
  simp only [userDeclarations, List.mem_cons, List.not_mem_nil, or_false] at hd
  rcases hd with rfl | rfl | rfl
  · exact hshort headerDeclaration rfl
  · exact hshort testDeclaration rfl
  · exact ⟨⟨[], List.append_nil _⟩, rfl⟩

/-- The memory at `a` is an array, in the kernel's declaration, that begins with `records`. -/
def HoldsRecords (m : Bytes) (a : ℤ) (records : List MemUsageStats) : Prop :=
  ∀ (k : ℕ) (s : MemUsageStats), records[k]? = some s →
    MemUsageStats.read m (a + memUsageStats.sizeof * k) = s

/-- INTERNAL: an array of records, read through another declaration of the struct.
SOURCE: pidstats.c:8-14; include/pidstats.h:6-11; Project2/test.c:11-16;
Project2/mem_usage_stats.c:11-17 -/
theorem HoldsRecords.read_eq {m : Bytes} {a : ℤ} {records : List MemUsageStats}
    (h : HoldsRecords m a records) {d : Declaration StatsMember} (hd : d ∈ userDeclarations)
    {k : ℕ} {s : MemUsageStats} (hs : records[k]? = some s) {x : StatsMember} (hx : d.Declares x) :
    d.read m (d.element a k) x = some (s.value x) := by
  have hview := userDeclarations_viewOf d hd
  have helement : kernelDeclaration.element a k = a + memUsageStats.sizeof * k := rfl
  rw [hview.element_eq, hview.read_eq m _ hx, kernelDeclaration_read, helement, h k s hs]

/-! ## The records of a call -/

/-- INTERNAL: a call leaves an array of the records of the tasks it reports, as far as its
copies succeed.
SOURCE: pidstats.c:16-89; pidstatsv2.c:46-119 -/
theorem usageStats_holdsRecords (score : TaskStruct → CInt) (env : StatsEnv) (tbl : TaskTable)
    (current : TaskStruct) (pid : CInt) (buffer maxEntries : ULong) (stack user : Bytes) (n : ℕ)
    (hcopy : ∀ i < n, env.copyToUser i = 0) :
    HoldsRecords (usageStats score env tbl current pid buffer maxEntries stack user).2 buffer.toNat
      (((reportedTasks tbl current pid buffer maxEntries).take n).map (usageOf score env)) := by
  intro k s hs
  rw [List.getElem?_map, Option.map_eq_some_iff] at hs
  obtain ⟨task, htask, rfl⟩ := hs
  have hk : k < n := by
    have hlt := (List.getElem?_eq_some_iff.mp htask).1
    rw [List.length_take] at hlt
    omega
  rw [List.getElem?_take_of_lt hk] at htask
  exact usageStats_record score env tbl current pid buffer maxEntries stack user htask
    (fun i hi => hcopy i (by omega))

/-- MAIN: **user declarations decode what the kernel encodes.** A call of either version lays
out the records of the tasks it reports as an array, as far as its copies succeed. And every
element of every array of kernel records, read through the four-member struct of the header,
the four-member struct of the first program or the five-member struct of the second, at the
stride of that struct, has in every declared member exactly the number that was stored.
SOURCE: pidstats.c:8-55; include/pidstats.h:6-11; Project2/test.c:11-50;
Project2/mem_usage_stats.c:11-46 -/
theorem userDeclarations_decode (score : TaskStruct → CInt) (env : StatsEnv) (tbl : TaskTable)
    (current : TaskStruct) (pid : CInt) (buffer maxEntries : ULong) (stack user : Bytes) (n : ℕ)
    (hcopy : ∀ i < n, env.copyToUser i = 0) :
    HoldsRecords (usageStats score env tbl current pid buffer maxEntries stack user).2 buffer.toNat
        (((reportedTasks tbl current pid buffer maxEntries).take n).map (usageOf score env)) ∧
      ∀ (m : Bytes) (a : ℤ) (records : List MemUsageStats), HoldsRecords m a records →
        ∀ d ∈ userDeclarations, ∀ (k : ℕ) (s : MemUsageStats), records[k]? = some s →
          ∀ x, d.Declares x → d.read m (d.element a k) x = some (s.value x) := by
  have hwritten := usageStats_holdsRecords score env tbl current pid buffer maxEntries stack user n
    hcopy
  refine ⟨hwritten, ?_⟩
  intro m a records hrecords d hd k s hs x hx
  exact hrecords.read_eq hd hs hx

/-- INTERNAL: the first program reads the second of two records, that of a kernel thread. -/
theorem userDeclarations_decode_second :
    let written := (juliozGetMemoryUsageStats idleStats (pairTable (some (pagesMm 300)) none)
      (leaderOf 1 (some (pagesMm 300))) 0 4096 2 (fun _ => 0xaa) (fun _ => 0)).2
    testDeclaration.read written (testDeclaration.element (4096 : ULong).toNat 1) .pid =
      some 2 := by
  intro written
  obtain ⟨hrecords, hread⟩ := userDeclarations_decode
    (fun task => (idleStats.oomBadness task).setWidth 32) idleStats
    (pairTable (some (pagesMm 300)) none) (leaderOf 1 (some (pagesMm 300))) 0 4096 2
    (fun _ => 0xaa) (fun _ => 0) 2 (fun _ _ => rfl)
  exact hread _ _ _ hrecords testDeclaration (by simp [userDeclarations]) 1
    (usageOf (fun task => (idleStats.oomBadness task).setWidth 32) idleStats (leaderOf 2 none)) rfl
    .pid (by decide)

/-! ## The programs -/

/-- INTERNAL: a call whose copies succeed returns the number of its records, or an error when
it has none because of its arguments.
SOURCE: pidstats.c:16-89 -/
theorem usageStats_count (score : TaskStruct → CInt) (env : StatsEnv) (tbl : TaskTable)
    (current : TaskStruct) (pid : CInt) (buffer maxEntries : ULong) (stack user : Bytes)
    (hcopy : ∀ k, env.copyToUser k = 0) (hmax : maxEntries.toNat < 2 ^ 63) :
    (usageStats score env tbl current pid buffer maxEntries stack user).1.toNat =
      (reportedTasks tbl current pid buffer maxEntries).length := by
  have hzero : (0 : ULong).toNat = 0 := rfl
  unfold usageStats reportedTasks
  split_ifs
  · rfl
  · rw [usageLoop_count score env buffer maxEntries hcopy _ 0 stack user (Nat.zero_le _), hzero,
      List.length_take, BitVec.toInt_eq_toNat_of_lt (by rw [BitVec.toNat_ofNat]; omega),
      BitVec.toNat_ofNat, Int.toNat_natCast]
    omega
  · unfold usageSingle
    cases findTaskByVpid tbl current pid with
    | none => rfl
    | some task => simp [hcopy]

/-- INTERNAL: a call writes into its buffer only, whether its copies succeed or not.
SOURCE: pidstats.c:16-89 -/
theorem usageStats_frame (score : TaskStruct → CInt) (env : StatsEnv) (tbl : TaskTable)
    (current : TaskStruct) (pid : CInt) (buffer maxEntries : ULong) (stack user : Bytes) (a : ℤ)
    (ha : a < buffer.toNat ∨ buffer.toNat + memUsageStats.sizeof * maxEntries.toNat ≤ a) :
    (usageStats score env tbl current pid buffer maxEntries stack user).2 a = user a := by
  obtain ⟨-, -, -, -, -, hsize⟩ := memUsageStats_offsets
  have hzero : (0 : ULong).toNat = 0 := rfl
  unfold usageStats
  split_ifs with hinvalid
  · rfl
  · apply usageLoop_frame
    rw [hsize] at ha ⊢
    rw [hzero]
    omega
  · have hmax : 0 < maxEntries.toNat := by
      by_contra hnone
      exact hinvalid (Or.inr (Or.inr (BitVec.le_def.mpr (by rw [hzero]; omega))))
    rw [hsize] at ha
    unfold usageSingle
    cases findTaskByVpid tbl current pid with
    | none => rfl
    | some task =>
      have hcopied (left : ℕ) : copyToUser user buffer.toNat
          (assignAll 0 (usageOf score env task).assignments stack) memUsageStats.sizeof left a =
          user a := by
        apply Bytes.copy_outside
        rw [hsize]
        omega
      simp only
      split
      · exact hcopied _
      · exact hcopied _

/-- MAIN: **the programs print what the kernel stored, and the kernel stays in their buffers.**
Each program asks for at most 256 entries in a buffer of 256 structs of its own declaration.
When the copies succeed it prints, for every task that the call reports, the members of its
record; and whether they do or not, no byte outside of the buffer is written.
SOURCE: Project2/test.c:18-50; Project2/mem_usage_stats.c:19-49 -/
theorem program_prints_records (score : TaskStruct → CInt) (env : StatsEnv) (tbl : TaskTable)
    (current : TaskStruct) (pid : CInt) (buffer : ULong) (stack user : Bytes)
    (d : Declaration StatsMember) (hd : d ∈ userDeclarations) :
    let call := usageStats score env tbl current pid buffer programMaxEntries stack user
    ((∀ k, env.copyToUser k = 0) →
      printedRows d buffer call =
        (reportedTasks tbl current pid buffer programMaxEntries).map (fun task =>
          d.map (fun x => some ((usageOf score env task).value x.1)))) ∧
      ∀ a : ℤ, a < buffer.toNat ∨ d.element buffer.toNat programMaxEntries.toNat ≤ a →
        call.2 a = user a := by
  intro call
  refine ⟨?_, ?_⟩
  · intro hcopy
    have hcount := usageStats_count score env tbl current pid buffer programMaxEntries stack user
      hcopy (by decide)
    unfold printedRows
    rw [hcount]
    apply List.ext_getElem
    · simp
    · intro k hk hk'
      have hlt : k < (reportedTasks tbl current pid buffer programMaxEntries).length := by
        simpa using hk'
      have hrecords := usageStats_holdsRecords score env tbl current pid buffer programMaxEntries
        stack user (k + 1) (fun i _ => hcopy i)
      rw [List.getElem_map, List.getElem_map, List.getElem_range]
      apply List.map_congr_left
      intro x hx
      apply hrecords.read_eq hd
      · rw [List.getElem?_map, List.getElem?_take_of_lt (Nat.lt_succ_self k),
          List.getElem?_eq_getElem hlt]
        rfl
      · exact List.mem_map_of_mem hx
  · intro a ha
    apply usageStats_frame
    rw [(userDeclarations_viewOf d hd).element_eq] at ha
    exact ha

end UsacKernel.Analysis
