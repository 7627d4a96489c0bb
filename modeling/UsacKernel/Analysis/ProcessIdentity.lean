import UsacKernel.Analysis.LimitEnforcement

/-!
# Which process a limit is for

The registry has one entry for each number that an administrator passed. The hooks in
`brk` and `ksys_mmap_pgoff` look up `current->pid`, the number of the calling thread in
the initial pid namespace, and `is_request_accepted` resolves that number once more, in
the caller's own namespace. The results here say what follows for the threads of a
limited process, and for processes without a limit.
-/

set_option autoImplicit false

namespace UsacKernel.Analysis

open UsacKernel.Computation UsacKernel.Model

/-! ## Threads -/

/-- `t` is a thread of the process with leader `p`. -/
structure ThreadOf (p t : TaskStruct) : Prop where
  leader : p.tgid = p.pid
  group : t.tgid = p.pid
  memory : t.mm = p.mm

/-- The decision that a hook obtains when `current` asks for `size` bytes.
SOURCE: mm/mmap.c:225-228, 1444-1448 -/
def hookDecision (tbl : TaskTable) (l : MemoryList) (current : TaskStruct) (size : ULong) : Bool :=
  isRequestAccepted (findTaskByVpid tbl current) current.pid size l

/-- INTERNAL: the hook of a task that finds itself compares with the limit of its own pid, if
there is one. -/
theorem hookDecision_eq (tbl : TaskTable) (l : MemoryList) (t : TaskStruct) (mm : MmStruct)
    (hfind : findTaskByVpid tbl t t.pid = some t) (hmm : t.mm = some mm) (size : ULong) :
    hookDecision tbl l t size =
      (limitAt l t.pid).all (fun limit => decide (pagesToBytes mm.totalVm + size ≤ limit)) := by
  rw [hookDecision, isRequestAccepted_eq, currentUsage_eq_some hfind hmm, Option.any_some]

/-- INTERNAL: two bounds let the same sums pass, for all sizes, only if they are equal. -/
theorem bound_ext (usage x y : ULong)
    (h : ∀ size, decide (usage + size ≤ x) = decide (usage + size ≤ y)) : x = y := by
  have hx := h (x - usage)
  have hy := h (y - usage)
  rw [add_sub_cancel, decide_eq_decide] at hx hy
  exact BitVec.le_antisymm (hx.mp (BitVec.le_refl x)) (hy.mpr (BitVec.le_refl y))

/-- INTERNAL: no word exceeds the largest one. -/
theorem decide_le_allOnes (x : ULong) : decide (x ≤ BitVec.allOnes 64) = true := by
  apply decide_eq_true
  rw [BitVec.le_def, BitVec.toNat_allOnes]
  have hx := x.isLt
  omega

/-- INTERNAL: for one size, the hooks decide for a thread as for the leader exactly when the sum of
usage and size, as 64 bits hold it, is on the same side of both limits: not between the thread's
own limit and the leader's, and within the leader's if the thread has none.
SOURCE: crudmemlimit.c:32-67 -/
theorem thread_decision_size_iff (tbl : TaskTable) (l : MemoryList) (p t : TaskStruct)
    (mm : MmStruct) (limit size : ULong) (hreach : ReachableList l) (hthread : ThreadOf p t)
    (hmm : p.mm = some mm) (hp : findTaskByVpid tbl p p.pid = some p)
    (ht : findTaskByVpid tbl t t.pid = some t) (hentry : ⟨p.pid, limit⟩ ∈ l) :
    let sum := (mm.totalVm.toNat * 4096 + size.toNat) % 2 ^ 64
    hookDecision tbl l t size = hookDecision tbl l p size ↔
      ((∀ own, ⟨t.pid, own⟩ ∉ l) → sum ≤ limit.toNat) ∧
        ∀ own, ⟨t.pid, own⟩ ∈ l →
          ¬ (min own.toNat limit.toNat < sum ∧ sum ≤ max own.toNat limit.toNat) := by
  intro sum
  have hlimit := (hreach.limitAt_eq_some p.pid limit).mpr hentry
  have hsum : (pagesToBytes mm.totalVm + size).toNat = sum := by
    rw [BitVec.toNat_add, pagesToBytes_toNat]
    omega
  rw [hookDecision_eq tbl l p mm hp hmm, hookDecision_eq tbl l t mm ht (hthread.memory.trans hmm),
    hlimit, Option.all_some]
  cases hl : limitAt l t.pid with
  | some own =>
    have hmem := (hreach.limitAt_eq_some t.pid own).mp hl
    have hunique : ∀ other, ⟨t.pid, other⟩ ∈ l → other = own := by
      intro other hother
      have heq := (hreach.limitAt_eq_some t.pid other).mpr hother
      rw [hl, Option.some.injEq] at heq
      exact heq.symm
    rw [Option.all_some, decide_eq_decide, BitVec.le_def, BitVec.le_def, hsum]
    constructor
    · intro h
      refine ⟨fun hnone => absurd hmem (hnone own), fun other hother => ?_⟩
      rw [hunique other hother]
      omega
    · rintro ⟨-, h⟩
      have hown := h own hmem
      omega
  | none =>
    have hnone : ∀ own, ⟨t.pid, own⟩ ∉ l := by
      intro own hown
      rw [(hreach.limitAt_eq_some t.pid own).mpr hown] at hl
      cases hl
    rw [Option.all_none, eq_comm, decide_eq_true_eq, BitVec.le_def, hsum]
    exact ⟨fun h => ⟨fun _ => h, fun own hown => absurd hown (hnone own)⟩, fun h => h.1 hnone⟩

/-- MAIN: **what a limit does to the threads of a process.** The hooks decide for a
thread as they decide for the leader, for every size, exactly when the thread's own
number has an entry with the same limit, or has none and the limit admits everything.
SOURCE: crudmemlimit.c:32-67; mm/mmap.c:225-228, 1444-1448 -/
theorem thread_decision_iff (tbl : TaskTable) (l : MemoryList) (p t : TaskStruct)
    (mm : MmStruct) (limit : ULong) (hreach : ReachableList l) (hthread : ThreadOf p t)
    (hmm : p.mm = some mm) (hp : findTaskByVpid tbl p p.pid = some p)
    (ht : findTaskByVpid tbl t t.pid = some t) (hentry : ⟨p.pid, limit⟩ ∈ l) :
    (∀ size, hookDecision tbl l t size = hookDecision tbl l p size) ↔
      ⟨t.pid, limit⟩ ∈ l ∨ (∀ other, ⟨t.pid, other⟩ ∉ l) ∧ limit = BitVec.allOnes 64 := by
  have hlimit := (hreach.limitAt_eq_some p.pid limit).mpr hentry
  have hleader := hookDecision_eq tbl l p mm hp hmm
  have hown := hookDecision_eq tbl l t mm ht (hthread.memory.trans hmm)
  simp only [hleader, hown, hlimit, Option.all_some]
  -- the thread is compared with the limit of its own number, or with none
  cases hl : limitAt l t.pid with
  | some own =>
    have hmem := (hreach.limitAt_eq_some t.pid own).mp hl
    constructor
    · intro h
      exact Or.inl (bound_ext _ own limit h ▸ hmem)
    · rintro (h | ⟨hnone, _⟩)
      · have heq := (hreach.limitAt_eq_some t.pid limit).mpr h
        rw [hl, Option.some.injEq] at heq
        simp [heq]
      · exact absurd hmem (hnone own)
  | none =>
    have hnone : ∀ other, ⟨t.pid, other⟩ ∉ l := by
      intro other hother
      rw [(hreach.limitAt_eq_some t.pid other).mpr hother] at hl
      cases hl
    constructor
    · intro h
      refine Or.inr ⟨hnone, bound_ext (pagesToBytes mm.totalVm) _ _ fun size => ?_⟩
      rw [← h size, decide_le_allOnes, Option.all_none]
    · rintro (h | ⟨_, heq⟩)
      · exact absurd h (hnone limit)
      · intro size
        rw [heq, decide_le_allOnes, Option.all_none]

/-- A second thread of `processOf pid mm`. -/
def threadOf (pid tid : PidT) (mm : MmStruct) : TaskStruct :=
  ⟨tid, pid, [(initPidNs, tid)], initPidNs, some mm⟩

/-- The table with a process of two threads, 5 and 6. -/
def twoThreads (mm : MmStruct) : TaskTable where
  tasks := [processOf 5 mm, threadOf 5 6 mm]
  pid_mem := by simp [processOf, threadOf]
  unique := by simp [processOf, threadOf]

/-- INTERNAL: a process that uses all of its limit; its second thread, which has no entry
of its own, is allowed another page. -/
theorem thread_decision_differs :
    let mm := heapMm 1000
    let p := processOf 5 mm
    let t := threadOf 5 6 mm
    ReachableList [⟨5, 4096000⟩] ∧ ThreadOf p t ∧
      findTaskByVpid (twoThreads mm) p p.pid = some p ∧
      findTaskByVpid (twoThreads mm) t t.pid = some t ∧
      hookDecision (twoThreads mm) [⟨5, 4096000⟩] t 4096 = true ∧
      hookDecision (twoThreads mm) [⟨5, 4096000⟩] p 4096 = false :=
  ⟨reachableList_singleton 5 4096000 (by decide), ⟨rfl, rfl, rfl⟩, by decide, by decide,
    by decide, by decide⟩

/-- INTERNAL: a limit of all ones never refuses, so leader and thread agree. -/
theorem thread_decision_allOnes :
    let mm := heapMm 1000
    hookDecision (twoThreads mm) [⟨5, BitVec.allOnes 64⟩] (threadOf 5 6 mm) 4096 =
      hookDecision (twoThreads mm) [⟨5, BitVec.allOnes 64⟩] (processOf 5 mm) 4096 :=
  (thread_decision_iff (twoThreads (heapMm 1000)) [⟨5, BitVec.allOnes 64⟩]
    (processOf 5 (heapMm 1000)) (threadOf 5 6 (heapMm 1000)) (heapMm 1000) (BitVec.allOnes 64)
    (reachableList_singleton 5 _ (by decide)) ⟨rfl, rfl, rfl⟩ rfl (by decide) (by decide)
    List.mem_cons_self).mpr (Or.inr ⟨by simp [threadOf], rfl⟩) 4096

/-! ## Processes without a limit -/

/-- INTERNAL: without an entry for the caller's number, a request is accepted when the
lookups succeed.
SOURCE: crudmemlimit.c:38-66 -/
theorem isRequestAccepted_unlisted (find : PidT → Option TaskStruct) (pid : PidT)
    (requested : ULong) (l : MemoryList) (hnone : limitAt l pid = none) :
    isRequestAccepted find pid requested l = (currentUsage find pid).isSome := by
  rw [isRequestAccepted_eq, hnone]
  cases currentUsage find pid <;> rfl

/-- INTERNAL: where the hook accepts, `brk` and `ksys_mmap_pgoff` are the original ones.
SOURCE: mm/mmap.c:181-288, 1405-1456; files/originalmmap.c:178-278, 1395-1438 -/
theorem calls_eq_original (env : MmEnv) (find : PidT → Option TaskStruct) (current : TaskStruct)
    (l : MemoryList) (mm : MmStruct)
    (haccepted : ∀ size, isRequestAccepted find current.pid size l = true)
    (newBrk : ULong) (args : MmapArgs) :
    brk env find current l mm newBrk = Original.brk env mm newBrk ∧
      ksysMmapPgoff env find current l mm args = Original.ksysMmapPgoff env mm args := by
  constructor
  · simp [brk, Original.brk, haccepted]
  · unfold ksysMmapPgoff Original.ksysMmapPgoff
    cases mmapFile env args with
    | error e => rfl
    | ok p => simp [haccepted]

/-- INTERNAL: where the hook refuses, `ksys_mmap_pgoff` fails for want of memory.
SOURCE: mm/mmap.c:1444-1448 -/
theorem ksysMmapPgoff_refused (env : MmEnv) (find : PidT → Option TaskStruct)
    (current : TaskStruct) (l : MemoryList) (mm : MmStruct) (args : MmapArgs)
    {file : Option File} {len : ULong} (hfile : mmapFile env args = .ok (file, len))
    (hrefused : isRequestAccepted find current.pid len l = false) :
    ksysMmapPgoff env find current l mm args = (ENOMEM.ptr, mm) := by
  simp [ksysMmapPgoff, hfile, hrefused]

/-- INTERNAL: the lookups of the hook succeed when some task with an address space has
the number `current->pid` in the caller's namespace. -/
theorem currentUsage_isSome_iff (tbl : TaskTable) (current : TaskStruct) :
    (currentUsage (findTaskByVpid tbl current) current.pid).isSome = true ↔
      ∃ task ∈ tbl.tasks, (current.activePidNs, current.pid) ∈ task.numbers ∧
        task.mm.isSome = true := by
  constructor
  · intro h
    unfold currentUsage at h
    cases hfind : findTaskByVpid tbl current current.pid with
    | none => simp [hfind] at h
    | some task =>
      have hnumber := List.find?_some
        (p := fun t : TaskStruct => decide ((current.activePidNs, current.pid) ∈ t.numbers)) hfind
      refine ⟨task, List.mem_of_find?_eq_some hfind, of_decide_eq_true hnumber, ?_⟩
      rw [hfind] at h
      cases hmm : task.mm with
      | none => simp [hmm] at h
      | some mm => rfl
  · rintro ⟨task, htask, hnumber, hmm⟩
    obtain ⟨mm, hmm⟩ := Option.isSome_iff_exists.mp hmm
    simp [currentUsage, findTaskByVpid_eq_some tbl current task current.pid htask hnumber, hmm]

/-- INTERNAL: for one call of a process without an entry: `brk` is the original one exactly when
the lookups of the hook succeed, the lock is not taken, or the original changes nothing and gives
the old break; `ksys_mmap_pgoff` is exactly when they succeed, the call fails before the hook, or
the original fails for want of memory and changes nothing.
SOURCE: mm/mmap.c:181-288, 1405-1456; files/originalmmap.c:178-278, 1395-1438 -/
theorem unlimited_call_iff (env : MmEnv) (find : PidT → Option TaskStruct) (current : TaskStruct)
    (l : MemoryList) (mm : MmStruct) (hnone : limitAt l current.pid = none) (newBrk : ULong)
    (args : MmapArgs) :
    (brk env find current l mm newBrk = Original.brk env mm newBrk ↔
        (currentUsage find current.pid).isSome = true ∨ env.lockKilled = true ∨
          Original.brk env mm newBrk = (mm.brk, mm)) ∧
      (ksysMmapPgoff env find current l mm args = Original.ksysMmapPgoff env mm args ↔
        (currentUsage find current.pid).isSome = true ∨ (∃ e, mmapFile env args = .error e) ∨
          Original.ksysMmapPgoff env mm args = (ENOMEM.ptr, mm)) := by
  have hdecision (size : ULong) := isRequestAccepted_unlisted find current.pid size l hnone
  cases hlookup : (currentUsage find current.pid).isSome with
  | true =>
    obtain ⟨hbrk, hmmap⟩ := calls_eq_original env find current l mm
      (fun size => (hdecision size).trans hlookup) newBrk args
    exact ⟨iff_of_true hbrk (Or.inl rfl), iff_of_true hmmap (Or.inl rfl)⟩
  | false =>
    have hrefused (size : ULong) := (hdecision size).trans hlookup
    constructor
    · cases hkilled : env.lockKilled with
      | true => simp [brk, Original.brk, hkilled]
      | false =>
        rw [brk_refused env find current l mm newBrk hkilled (hrefused _), eq_comm]
        simp
    · cases hfile : mmapFile env args with
      | error e => simp [ksysMmapPgoff, Original.ksysMmapPgoff, hfile]
      | ok p =>
        rw [ksysMmapPgoff_refused env find current l mm args hfile (hrefused p.2), eq_comm]
        simp

/-- MAIN: **who is unaffected by the limiter.** Take a process none of whose numbers is
in the registry. Its `brk` and `ksys_mmap_pgoff` are those of the original kernel, for
every argument and in every state of the rest of the kernel, exactly when the number the
hooks use, its number in the initial namespace, names a task with an address space in the
process's own namespace. In the initial namespace it does; in another it need not, and
then the hooks refuse everything.
SOURCE: crudmemlimit.c:38-66; mm/mmap.c:181-288, 1405-1456; files/originalmmap.c -/
theorem unlimited_unaffected_iff (tbl : TaskTable) (l : MemoryList) (current : TaskStruct)
    (mm : MmStruct) (hreach : ReachableList l) (hmem : current ∈ tbl.tasks)
    (hnone : ∀ n ∈ current.numbers, ∀ limit, ⟨n.2, limit⟩ ∉ l) :
    (∀ env newBrk args,
        brk env (findTaskByVpid tbl current) current l mm newBrk = Original.brk env mm newBrk ∧
          ksysMmapPgoff env (findTaskByVpid tbl current) current l mm args =
            Original.ksysMmapPgoff env mm args) ↔
      ∃ task ∈ tbl.tasks, (current.activePidNs, current.pid) ∈ task.numbers ∧
        task.mm.isSome = true := by
  have hlimit : limitAt l current.pid = none := by
    cases hl : limitAt l current.pid with
    | none => rfl
    | some limit =>
      exact absurd ((hreach.limitAt_eq_some _ _).mp hl)
        (hnone _ (tbl.pid_mem current hmem) limit)
  have hcall := fun env newBrk args =>
    unlimited_call_iff env (findTaskByVpid tbl current) current l mm hlimit newBrk args
  rw [← currentUsage_isSome_iff]
  constructor
  · intro h
    -- a mapping that the security module forbids is refused with another error code
    let env : MmEnv := { quietEnv with securityMmapFile := some EPERM }
    have horiginal : Original.ksysMmapPgoff env mm (anonymousArgs 4096) = (EPERM.ptr, mm) := rfl
    rcases (hcall env 0 (anonymousArgs 4096)).2.mp (h env 0 (anonymousArgs 4096)).2 with
      hlookup | ⟨e, he⟩ | hfails
    · exact hlookup
    · cases he
    · rw [horiginal, Prod.mk.injEq] at hfails
      exact absurd hfails.1 (by decide)
  · intro hlookup env newBrk args
    exact ⟨(hcall env newBrk args).1.mpr (Or.inl hlookup),
      (hcall env newBrk args).2.mpr (Or.inl hlookup)⟩

/-- A process of a namespace of its own: 5000 in the initial one, 2 in its own. -/
def containedProcess (mm : MmStruct) : TaskStruct :=
  ⟨5000, 5000, [(initPidNs, 5000), (1, 2)], 1, some mm⟩

def containedTable (mm : MmStruct) : TaskTable where
  tasks := [containedProcess mm]
  pid_mem := by simp [containedProcess]
  unique := by simp

/-- INTERNAL: with an empty registry, the original calls give the process another page
and the modified ones refuse it. -/
theorem contained_process_refused :
    let mm := heapMm 1000
    let find := findTaskByVpid (containedTable mm) (containedProcess mm)
    ReachableList [] ∧
      (Original.brk quietEnv mm (mm.brk + 4096)).2.totalVm = 1001 ∧
      brk quietEnv find (containedProcess mm) [] mm (mm.brk + 4096) = (mm.brk, mm) ∧
      (Original.ksysMmapPgoff quietEnv mm (anonymousArgs 4096)).2.totalVm = 1001 ∧
      ksysMmapPgoff quietEnv find (containedProcess mm) [] mm (anonymousArgs 4096) =
        (ENOMEM.ptr, mm) :=
  ⟨⟨[], rfl⟩, by decide, by decide, by decide, by decide⟩

/-- INTERNAL: a process that finds itself under its pid, with an empty list, runs as before the
change. -/
theorem initial_process_unaffected :
    let mm := heapMm 1000
    let find := findTaskByVpid (tableOf 5 mm) (processOf 5 mm)
    brk quietEnv find (processOf 5 mm) [] mm (mm.brk + 4096) =
        Original.brk quietEnv mm (mm.brk + 4096) ∧
      ksysMmapPgoff quietEnv find (processOf 5 mm) [] mm (anonymousArgs 4096) =
        Original.ksysMmapPgoff quietEnv mm (anonymousArgs 4096) :=
  (unlimited_unaffected_iff (tableOf 5 (heapMm 1000)) [] (processOf 5 (heapMm 1000)) (heapMm 1000)
    ⟨[], rfl⟩ List.mem_cons_self (by simp)).mpr
    ⟨processOf 5 (heapMm 1000), List.mem_cons_self, by decide, by decide⟩ quietEnv
    ((heapMm 1000).brk + 4096) (anonymousArgs 4096)

end UsacKernel.Analysis
