import UsacKernel.Computation.LockTriple
import UsacKernel.Model.LockPrograms

/-!
# Lock discipline of the limiter

The programs of the calls take `memory_list_mutex` above an mmap lock and never the other
way round, look at `memory_list` under the mutex only, and give it back on every path. The
rules of `Computation.LockProgram` carry this from the text of each program to any number
of tasks in any interleaving.
-/

set_option autoImplicit false

namespace UsacKernel.Analysis

open UsacKernel.Computation UsacKernel.Computation.LockProgram UsacKernel.Model

def lockRank {μ : Type} : KernelLock μ → ℕ
  | .mmapLock _ => 0
  | .memoryListMutex => 1

section Programs

variable {μ : Type}

/-- The discipline of the kernel's two kinds of locks, with the mutex as the guard. -/
abbrev Disciplined (R H : List (KernelLock μ × LockMode)) (p : Code μ)
    (H' : List (KernelLock μ × LockMode)) : Prop :=
  Typed lockRank .memoryListMutex R H p H'

/-- Every lock held is the `mmap_lock` of some address space. -/
def OnlyMmapLocks (H : List (KernelLock μ × LockMode)) : Prop := ∀ x ∈ H, ∃ mm, x.1 = .mmapLock mm

variable {R H H' : List (KernelLock μ × LockMode)}

/-- INTERNAL: a thread that holds no lock holds only `mmap_lock`s. -/
theorem onlyMmapLocks_nil : OnlyMmapLocks ([] : List (KernelLock μ × LockMode)) := by
  intro x hx
  cases hx

/-- INTERNAL: the `mmap_lock` of one address space, in either mode, leaves the mutex to be
taken. -/
theorem onlyMmapLocks_singleton (mm : μ) (m : LockMode) : OnlyMmapLocks [(.mmapLock mm, m)] := by
  intro x hx
  exact ⟨mm, by rw [List.mem_singleton.mp hx]⟩

/-- INTERNAL: the mutex is not among locks that are all `mmap_lock`s. -/
theorem OnlyMmapLocks.mutex_not_mem (hH : OnlyMmapLocks H) (m : LockMode) :
    (.memoryListMutex, m) ∉ H := by
  intro hmem
  obtain ⟨mm, hmm⟩ := hH _ hmem
  cases hmm

/-! ## The programs one by one -/

/-- INTERNAL: returning a code is allowed when exactly the locks of the caller are held. -/
theorem disciplined_returnCode (code : ℤ) : Disciplined R R (returnCode code) H' :=
  .seq (.assign _ _ _) (.seq (.ret _ H') (.skip _ _))

/-- INTERNAL: returning a word is allowed when exactly the locks of the caller are held. -/
theorem disciplined_returnValue (value : Regs → ULong) :
    Disciplined R R (returnValue value) H' :=
  .seq (.assign _ _ _) (.seq (.ret _ H') (.skip _ _))

/-- INTERNAL: returning a verdict is allowed when exactly the locks of the caller are held. -/
theorem disciplined_returnAccepted (accepted : Bool) :
    Disciplined R R (returnAccepted accepted) H' :=
  .seq (.assign _ _ _) (.seq (.ret _ H') (.skip _ _))

/-- INTERNAL: `memory_list_mutex` may be taken under `mmap_lock`s, which rank below it. -/
theorem disciplined_mutexLock (hH : OnlyMmapLocks H) :
    Disciplined R H mutexLock ((.memoryListMutex, .write) :: H) := by
  refine .lock _ _ _ _ fun x hx => ?_
  obtain ⟨mm, hmm⟩ := hH x hx
  rw [hmm]
  exact Nat.zero_lt_one

/-- INTERNAL: the mutex is released when it was the last lock taken. -/
theorem disciplined_mutexUnlock :
    Disciplined R ((.memoryListMutex, .write) :: H) mutexUnlock H := .unlock _ _ _ _

/-- INTERNAL: the list is read and written under the mutex. -/
theorem disciplined_onList (f : Regs → MemoryList → Regs × MemoryList) :
    Disciplined R ((.memoryListMutex, .write) :: H) (onList f) ((.memoryListMutex, .write) :: H) :=
  .access _ _ _ _ List.mem_cons_self

/-- INTERNAL: a test of the current entry reads the list, so both branches start under the
mutex. -/
theorem disciplined_ifEntry (test : Regs → MemoryLimitation → Bool) {p q : Code μ}
    (hp : Disciplined R ((.memoryListMutex, .write) :: H) p H')
    (hq : Disciplined R ((.memoryListMutex, .write) :: H) q H') :
    Disciplined R ((.memoryListMutex, .write) :: H) (ifEntry test p q) H' :=
  .seq (disciplined_onList _) (.ite _ hp hq)

/-- INTERNAL: the loop over the list stays under the mutex when its body does. -/
theorem disciplined_listForEachEntry (stop : Regs → Bool) {body : Code μ}
    (hbody : Disciplined R ((.memoryListMutex, .write) :: H) body
      ((.memoryListMutex, .write) :: H)) :
    Disciplined R ((.memoryListMutex, .write) :: H) (listForEachEntry stop body)
      ((.memoryListMutex, .write) :: H) :=
  .seq (disciplined_onList _) (.loop _ (.seq hbody (disciplined_onList _)))

/-- INTERNAL: the search for a pid stays under the mutex when what it does on a hit does. -/
theorem disciplined_searchEntry (pid : PidT) {found : Code μ}
    (hfound : Disciplined R ((.memoryListMutex, .write) :: H) found
      ((.memoryListMutex, .write) :: H)) :
    Disciplined R ((.memoryListMutex, .write) :: H) (searchEntry pid found)
      ((.memoryListMutex, .write) :: H) :=
  disciplined_listForEachEntry _ (disciplined_ifEntry _ hfound (.skip _ _))

/-- INTERNAL: page faults take and release the `mmap_lock` for reading, each on its own, so no
lock may be held when they happen. -/
theorem disciplined_handleFaults (mm : μ) (n : ℕ) : Disciplined R [] (handleFaults mm n) [] := by
  induction n with
  | zero => exact .skip _ _
  | succ n ih =>
    refine .seq (.lock _ _ _ _ ?_) (.seq (.unlock _ _ _ _) (.seq ih (.skip _ _)))
    intro x hx
    cases hx

/-- `is_request_accepted` may be called with mmap locks held, and gives the mutex back on
each of its paths. -/
theorem disciplined_isRequestAcceptedCode (target : Option (Option μ)) (pid : PidT)
    (requested : Regs → ULong) (hH : OnlyMmapLocks H) :
    Disciplined H H (isRequestAcceptedCode target pid requested) H := by
  rcases target with _ | _ | mm
  · exact disciplined_returnAccepted false
  · exact disciplined_returnAccepted false
  · have hanswer (accepted : Bool) :
        Disciplined H ((.memoryListMutex, .write) :: H)
          (.block [mutexUnlock, returnAccepted accepted]) ((.memoryListMutex, .write) :: H) :=
      .seq disciplined_mutexUnlock (.seq (disciplined_returnAccepted accepted) (.skip _ _))
    have hpeek : KernelLock.mmapLock mm ≠ .memoryListMutex := by
      intro h
      cases h
    exact .seq (.peek _ _ _ _ hpeek) <| .seq (disciplined_mutexLock hH) <|
      .seq (disciplined_searchEntry pid (disciplined_ifEntry _ (hanswer false) (hanswer true))) <|
      .seq disciplined_mutexUnlock <| .seq (disciplined_returnAccepted true) (.skip _ _)

/-- INTERNAL: an early return comes before any lock of the function is taken. -/
theorem disciplined_check (c : Regs → Bool) (code : ℤ) :
    Disciplined R R (.ifThen c (returnCode code)) R :=
  .ite _ (disciplined_returnCode code) (.skip _ _)

/-- INTERNAL: a return from under the mutex releases it first. -/
theorem disciplined_unlockReturn (code : ℤ) :
    Disciplined R ((.memoryListMutex, .write) :: R) (.block [mutexUnlock, returnCode code]) H' :=
  .seq disciplined_mutexUnlock (.seq (disciplined_returnCode code) (.skip _ H'))

/-- INTERNAL: every path of `add` that takes the mutex releases it, also the one that finds the
pid.
SOURCE: crudmemlimit.c:72-117 -/
theorem disciplined_addCode (a : Answers) (pid : PidT) (limit : ULong) :
    Disciplined [] [] (addCode a pid limit : Code μ) [] :=
  .seq (disciplined_check _ _) <| .seq (disciplined_check _ _) <| .seq (disciplined_check _ _) <|
  .seq (disciplined_mutexLock onlyMmapLocks_nil) <|
  .seq (disciplined_searchEntry pid (disciplined_unlockReturn _)) <|
  .seq (.ite _ (disciplined_unlockReturn _) (.skip _ _)) <|
  .seq (disciplined_onList _) (disciplined_unlockReturn _)

/-- INTERNAL: `get` copies to user memory, and so faults, only after it has released the mutex.
-/
theorem disciplined_getCode (a : Answers) (mm : μ) (maxEntries : ULong)
    (copyFaults putFaults : ℕ) :
    Disciplined [] [] (getCode a mm maxEntries copyFaults putFaults) [] :=
  .seq (.assign _ _ _) <| .seq (disciplined_check _ _) <|
  .seq (disciplined_mutexLock onlyMmapLocks_nil) <|
  .seq (disciplined_listForEachEntry _ (disciplined_onList _)) <| .seq disciplined_mutexUnlock <|
  .seq (disciplined_handleFaults mm copyFaults) <| .seq (.assign _ _ _) <|
  .seq (disciplined_check _ _) <| .seq (disciplined_handleFaults mm putFaults) <|
  .seq (disciplined_check _ _) <| .seq (.assign _ _ _) <|
  .seq (disciplined_returnCode 0) (.skip _ _)

/-- `update` and `remove` after their checks. -/
theorem disciplined_changeEntry (pid : PidT) (change : Regs → MemoryList → Regs × MemoryList) :
    Disciplined [] [] (.block [
      mutexLock,
      searchEntry pid (.block [onList change, mutexUnlock, returnCode 0]),
      mutexUnlock,
      returnCode ESRCH.neg] : Code μ) [] :=
  .seq (disciplined_mutexLock onlyMmapLocks_nil) <|
  .seq (disciplined_searchEntry pid
    (.seq (disciplined_onList _) (disciplined_unlockReturn 0))) (disciplined_unlockReturn _)

/-- INTERNAL: both returns of `update` after the search release the mutex. -/
theorem disciplined_updateCode (a : Answers) (pid : PidT) (limit : ULong) :
    Disciplined [] [] (updateCode a pid limit : Code μ) [] :=
  .seq (disciplined_check _ _) <| .seq (disciplined_check _ _) <| disciplined_changeEntry pid _

/-- INTERNAL: both returns of `remove` after the search release the mutex. -/
theorem disciplined_removeCode (a : Answers) (pid : PidT) :
    Disciplined [] [] (removeCode a pid : Code μ) [] :=
  .seq (disciplined_check _ _) <| .seq (disciplined_check _ _) <| disciplined_changeEntry pid _

/-- INTERNAL: an `mmap_lock` is taken by a thread that holds no lock. -/
theorem disciplined_mmapLock (mm : μ) (m : LockMode) :
    Disciplined R [] (.lock (.mmapLock mm) m) [(.mmapLock mm, m)] := by
  refine .lock _ _ _ _ fun x hx => ?_
  cases hx

/-- INTERNAL: an address space is changed under its own `mmap_lock`, held for writing. -/
theorem disciplined_onMm (mm : μ) (f : Regs → MmStruct → Regs × MmStruct) :
    Disciplined R [(.mmapLock mm, .write)] (onMm mm f) [(.mmapLock mm, .write)] :=
  .access _ _ _ _ List.mem_cons_self

/-- INTERNAL: the error path of `brk` restores the break and releases the `mmap_lock`. -/
theorem disciplined_brkOutCode (mm : μ) :
    Disciplined [] [(.mmapLock mm, .write)] (brkOutCode mm) H' :=
  .seq (disciplined_onMm mm _) <| .seq (.unlock _ _ _ _) <|
  .seq (disciplined_returnValue _) (.skip _ H')

/-- `brk` calls `is_request_accepted` under its mmap lock. -/
theorem disciplined_brkCode (mm : μ) (env : MmEnv) (target : Option (Option μ)) (pid : PidT)
    (addr : ULong) (populateFaults : ℕ) :
    Disciplined [] [] (brkCode mm env target pid addr populateFaults) [] := by
  have honly := onlyMmapLocks_singleton mm .write
  have hout (c : Regs → Bool) :
      Disciplined [] [(.mmapLock mm, .write)] (.ifThen c (brkOutCode mm))
        [(.mmapLock mm, .write)] :=
    .ite _ (disciplined_brkOutCode mm) (.skip _ _)
  -- a shrinking brk downgrades the lock before it gives it up
  have hunlock : Disciplined [] [(.mmapLock mm, .write)]
      (.ite (fun r => r.shrunk)
        (.block [.downgrade (.mmapLock mm), .unlock (.mmapLock mm)])
        (.unlock (.mmapLock mm))) [] :=
    .ite _ (.seq (.downgrade _ _ _) (.seq (.unlock _ _ _ _) (.skip _ _))) (.unlock _ _ _ _)
  exact .seq (.ite _ (disciplined_returnValue _) (.skip _ _)) <|
    .seq (disciplined_mmapLock mm .write) <| .seq (disciplined_onMm mm _) <| .seq (hout _) <|
    .seq (.call _ honly.mutex_not_mem (disciplined_isRequestAcceptedCode target pid _ honly)) <|
    .seq (hout _) <| .seq (disciplined_onMm mm _) <| .seq hunlock <|
    .seq (disciplined_handleFaults mm populateFaults) <| .seq (.ret _ []) (.skip _ _)

/-- INTERNAL: `vm_mmap_pgoff` releases the `mmap_lock` before it populates the mapping. -/
theorem disciplined_vmMmapPgoffCode (mm : μ) (env : MmEnv) (file : Option File)
    (addr len prot flags pgoff : ULong) (populateFaults : ℕ) :
    Disciplined [] [] (vmMmapPgoffCode mm env file addr len prot flags pgoff populateFaults) [] := by
  unfold vmMmapPgoffCode
  split
  · exact disciplined_returnValue _
  · exact .seq (.ite _ (disciplined_returnValue _) (.skip _ _)) <|
      .seq (disciplined_mmapLock mm .write) <| .seq (disciplined_onMm mm _) <|
      .seq (.unlock _ _ _ _) <| .seq (disciplined_handleFaults mm populateFaults) <|
      .seq (.ret _ []) (.skip _ _)

/-- `ksys_mmap_pgoff` calls `is_request_accepted` before it has any lock. -/
theorem disciplined_ksysMmapPgoffCode (mm : μ) (env : MmEnv) (target : Option (Option μ))
    (pid : PidT) (args : MmapArgs) (populateFaults : ℕ) :
    Disciplined [] [] (ksysMmapPgoffCode mm env target pid args populateFaults) [] := by
  have hnil (m : LockMode) : (KernelLock.memoryListMutex, m) ∉ ([] : List (KernelLock μ × LockMode)) :=
    List.not_mem_nil
  unfold ksysMmapPgoffCode
  split
  · exact disciplined_returnValue _
  · exact .seq (.call _ hnil (disciplined_isRequestAcceptedCode target pid _ onlyMmapLocks_nil)) <|
      .seq (.ite _ (disciplined_returnValue _) (.skip _ _)) <|
      .seq (.call _ hnil (disciplined_vmMmapPgoffCode ..)) <| .seq (.ret _ []) (.skip _ _)

/-- INTERNAL: every call keeps the discipline, whatever its arguments and the answers of
the rest of the kernel. -/
theorem disciplined_code (call : KernelCall μ) : Disciplined [] [] call.code [] := by
  cases call with
  | brk mm env target pid addr faults => exact disciplined_brkCode mm env target pid addr faults
  | mmap mm env target pid args faults =>
    exact disciplined_ksysMmapPgoffCode mm env target pid args faults
  | add a pid limit => exact disciplined_addCode a pid limit
  | get a mm maxEntries copyFaults putFaults =>
    exact disciplined_getCode a mm maxEntries copyFaults putFaults
  | update a pid limit => exact disciplined_updateCode a pid limit
  | remove a pid => exact disciplined_removeCode a pid

/-- INTERNAL: the body of every kernel call follows the discipline. -/
theorem disciplined_programs (p : Code μ) (hp : p ∈ Set.range KernelCall.code) :
    Disciplined [] [] p [] := by
  obtain ⟨call, rfl⟩ := hp
  exact disciplined_code call

end Programs

/-! ## Any number of tasks -/

/-- The tasks `κ`, their calls, the list and the address spaces `μ`. -/
abbrev KernelState (κ μ : Type) := System κ (KernelLock μ) (Guarded μ) Regs

/-- What some interleaving of calls leads to from some content of the list and of the
address spaces. -/
def ReachableState {κ μ : Type} [DecidableEq κ] [DecidableEq μ] (c : KernelState κ μ) : Prop :=
  Reachable (Set.range KernelCall.code) c

section System

variable {κ μ : Type} [DecidableEq κ] [DecidableEq μ] {c : KernelState κ μ}

/-- INTERNAL: the discipline holds in every state that any interleaving of kernel calls reaches.
-/
theorem ReachableState.sound (h : ReachableState c) : Sound lockRank .memoryListMutex c :=
  reachable_sound disciplined_programs h

/-- INTERNAL: a thread that is about to take a lock does not hold the mutex. -/
theorem ReachableState.mutex_not_held (h : ReachableState c) {t : κ} {l : KernelLock μ}
    {m : LockMode} (hwants : wants (c.thread t) = some (l, m)) (m' : LockMode) :
    (.memoryListMutex, m') ∉ (c.thread t).held := by
  intro hheld
  have hrank := h.sound.wants_rank hwants _ hheld
  cases l with
  | memoryListMutex => exact lt_irrefl _ hrank
  | mmapLock mm => exact absurd hrank (Nat.not_lt_zero _)

/-- INTERNAL: an idle thread may run a call to any point of it while nobody else holds a lock,
and the state is still a reachable one. -/
theorem ReachableState.start (h : ReachableState c) {t : κ} (hidle : (c.thread t).control = [])
    (hothers : ∀ u, u ≠ t → (c.thread u).held = []) (call : KernelCall μ) (r : Regs)
    {b : (∀ l, Guarded μ l) × Thread (KernelLock μ) (Guarded μ) Regs}
    (hsteps : Steps (c.data, ⟨[.run call.code], r, []⟩) b) :
    ReachableState (⟨b.1, Function.update c.thread t b.2⟩ : KernelState κ μ) := by
  obtain ⟨hmoves, -⟩ := h.sound.moves_of_start disciplined_programs hidle hothers
    (Set.mem_range_self call) r hsteps
  obtain ⟨d, x, hreach⟩ := h
  exact ⟨d, x, hreach.trans hmoves⟩

end System

/-- MAIN: **Lock discipline of the limiter.** In every state that any number of tasks reach
with `brk`, `ksys_mmap_pgoff` and the registry calls, in any interleaving and from any list:
the task that is about to access `memory_list` holds `memory_list_mutex` and no other task
does, and nobody looks at the list in another way; who is about to take the mutex does not
have it; who is about to return does not have it, and who has returned from a call has no
lock; who is about to take an mmap lock does not have the mutex; and no tasks wait for each
other's locks in a circle. -/
theorem limiter_lock_discipline {κ μ : Type} [DecidableEq κ] [DecidableEq μ]
    (c : KernelState κ μ) (hc : ReachableState c) :
    (∀ t k f, (c.thread t).control = .run (.access .memoryListMutex f) :: k →
      (.memoryListMutex, .write) ∈ (c.thread t).held ∧
        ∀ u m, u ≠ t → (.memoryListMutex, m) ∉ (c.thread u).held) ∧
    (∀ t k f, (c.thread t).control ≠ .run (.peek .memoryListMutex f) :: k) ∧
    (∀ t m, wants (c.thread t) = some (.memoryListMutex, m) →
      ∀ m', (.memoryListMutex, m') ∉ (c.thread t).held) ∧
    (∀ t k, (c.thread t).control = .run .ret :: k →
      ∀ m, (.memoryListMutex, m) ∉ (c.thread t).held) ∧
    (∀ t, (c.thread t).control = [] → (c.thread t).held = []) ∧
    (∀ t mm m, wants (c.thread t) = some (.mmapLock mm, m) →
      ∀ m', (.memoryListMutex, m') ∉ (c.thread t).held) ∧
    ∀ t, ¬ Relation.TransGen (WaitsFor c) t t := by
  refine ⟨fun t k f hk => hc.sound.access hk, fun t k f hk => hc.sound.peek hk rfl,
    fun t m hwants => hc.mutex_not_held hwants, fun t k hk => hc.sound.ret hk,
    fun t hk => hc.sound.done hk, fun t mm m hwants => hc.mutex_not_held hwants,
    fun t => hc.sound.no_waiting_cycle t⟩

def blankRegs : Regs where
  ret := 0
  retval := 0
  accepted := false
  currentUsage := 0
  index := 0
  more := false
  test := false
  count := 0
  buffer := fun _ => none
  records := []
  processesReturned := none
  origbrk := 0
  newbrk := 0
  oldbrk := 0
  refused := false
  shrunk := false

def oneEntry : ∀ l : KernelLock Unit, Guarded Unit l
  | .memoryListMutex => ([⟨5, 4096⟩] : MemoryList)
  | .mmapLock _ => (⟨0, 0, 0, 0, 0, 0, 0, 0, 0, 0, 0, []⟩ : MmStruct)

/-- Two tasks remove the entry: one is about to look at the list, the other waits for the
mutex. -/
theorem limiter_lock_discipline_two_removes :
    ∃ c : KernelState Bool Unit, ReachableState c ∧ WaitsFor c true false ∧
      (∃ k f, (c.thread false).control = .run (.access .memoryListMutex f) :: k) ∧
      (∀ m, (KernelLock.memoryListMutex, m) ∉ (c.thread true).held) ∧
      ∀ t, ¬ Relation.TransGen (WaitsFor c) t t := by
  let call : KernelCall Unit := .remove ⟨true, fun _ => none, true, 0, false⟩ 5
  let start : Thread (KernelLock Unit) (Guarded Unit) Regs := ⟨[.run call.code], blankRegs, []⟩
  -- the seventh step of the call leads to the mutex, the tenth to the list
  obtain ⟨waiting, hwaiting⟩ : ∃ b, stepMany 7 (oneEntry, start) = some b := ⟨_, rfl⟩
  obtain ⟨looking, hlooking⟩ : ∃ b, stepMany 10 (oneEntry, start) = some b := ⟨_, rfl⟩
  have hidle : ReachableState (idle oneEntry fun _ => blankRegs : KernelState Bool Unit) :=
    ⟨_, _, .refl⟩
  have hfirst := hidle.start (t := true) rfl (fun _ _ => rfl) call blankRegs
    (steps_of_stepMany 7 hwaiting)
  cases hwaiting
  have hsecond := hfirst.start (t := false) rfl (fun u hu => by
      cases u with
      | false => exact absurd rfl hu
      | true => rfl) call blankRegs (steps_of_stepMany 10 hlooking)
  cases hlooking
  have hdiscipline := limiter_lock_discipline _ hsecond
  refine ⟨_, hsecond, ⟨.memoryListMutex, .write, .write, rfl, ?_⟩, ⟨_, _, rfl⟩, ?_, ?_⟩
  · exact List.mem_cons_self
  · exact hdiscipline.2.2.1 true .write rfl
  · exact hdiscipline.2.2.2.2.2.2

end UsacKernel.Analysis
