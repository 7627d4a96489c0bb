import UsacKernel.Computation.LockProgram
import UsacKernel.Model.SystemCalls

/-!
# The calls as programs with locks

`brk`, `ksys_mmap_pgoff` and the four registry calls at the granularity of lock, unlock,
list access and user copy. There is one `memory_list_mutex`, and an mmap lock for each
address space; `memory_list` is the data of the first, an `mm_struct` that of the second.
What the calls compute between two such steps is taken from the functional model.

The loop variable of `list_for_each_entry` is an index into the list: to move it and to
look at the entry it points to are both list accesses. A user copy takes the caller's mmap
lock for reading at each fault.
-/

set_option autoImplicit false

namespace UsacKernel.Model

open UsacKernel.Computation

/-- The locks; `μ` are the address spaces. -/
inductive KernelLock (μ : Type) where
  | memoryListMutex
  | mmapLock (mm : μ)
  deriving DecidableEq

def Guarded (μ : Type) : KernelLock μ → Type
  | .memoryListMutex => MemoryList
  | .mmapLock _ => MmStruct

/-- The local variables of the calls and what they return. -/
structure Regs where
  /-- What a registry call returns. -/
  ret : ℤ
  /-- What `brk` and `ksys_mmap_pgoff` return. -/
  retval : ULong
  /-- What `is_request_accepted` returns. -/
  accepted : Bool
  currentUsage : ULong
  /-- The loop variable, and whether it points to an entry. -/
  index : ℕ
  more : Bool
  /-- The condition on the entry that was evaluated last. -/
  test : Bool
  count : CInt
  buffer : ProcessesBuffer
  /-- The records in the user's buffer, and `*processes_returned`. -/
  records : List (Option MemoryLimitation)
  processesReturned : Option CInt
  origbrk : ULong
  newbrk : ULong
  oldbrk : ULong
  /-- A check of `brk` before the hook has failed. -/
  refused : Bool
  /-- `brk` has unmapped pages. -/
  shrunk : Bool

abbrev Code (μ : Type) := Stmt (KernelLock μ) (Guarded μ) Regs

section

variable {μ : Type}

/-! ## Steps -/

/-- `mutex_lock(&memory_list_mutex)`. -/
def mutexLock : Code μ := .lock .memoryListMutex .write

/-- `mutex_unlock(&memory_list_mutex)`. -/
def mutexUnlock : Code μ := .unlock .memoryListMutex

def onList (f : Regs → MemoryList → Regs × MemoryList) : Code μ := .access .memoryListMutex f

/-- A look at the entry the loop variable points to. -/
def onEntry (f : Regs → MemoryLimitation → Regs) : Code μ :=
  onList (fun r l => ((l[r.index]?).elim r (f r), l))

def ifEntry (test : Regs → MemoryLimitation → Bool) (p q : Code μ) : Code μ :=
  .seq (onEntry (fun r entry => { r with test := test r entry })) (.ite (fun r => r.test) p q)

def onMm (mm : μ) (f : Regs → MmStruct → Regs × MmStruct) : Code μ := .access (.mmapLock mm) f

/-- A look at an address space without its lock. -/
def peekMm (mm : μ) (f : Regs → MmStruct → Regs) : Code μ := .peek (.mmapLock mm) f

/-- `return`, in a registry call. -/
def returnCode (code : ℤ) : Code μ := .block [.assign (fun r => { r with ret := code }), .ret]

/-- `return`, in a call that returns an address. -/
def returnValue (value : Regs → ULong) : Code μ :=
  .block [.assign (fun r => { r with retval := value r }), .ret]

/-- `return`, in `is_request_accepted`. -/
def returnAccepted (accepted : Bool) : Code μ :=
  .block [.assign (fun r => { r with accepted := accepted }), .ret]

/-- The loop variable moves to position `i` of the list. -/
def Regs.moveTo (r : Regs) (i : ℕ) (l : MemoryList) : Regs :=
  { r with index := i, more := decide (i < l.length) }

/-- `list_for_each_entry`, with the condition of a `break` at the start of its body. -/
def listForEachEntry (stop : Regs → Bool) (body : Code μ) : Code μ :=
  .seq (onList (fun r l => (r.moveTo 0 l, l)))
    (.loop (fun r => r.more && !stop r)
      (.seq body (onList (fun r l => (r.moveTo (r.index + 1) l, l)))))

/-- The loop that looks for a pid and does not go on when it has found it. -/
def searchEntry (pid : PidT) (found : Code μ) : Code μ :=
  listForEachEntry (fun _ => false) (ifEntry (fun _ entry => decide (entry.pid = pid)) found .skip)

/-- Page faults of the caller, each under its mmap lock: those of a user copy, or those
that `mm_populate` brings about. -/
def handleFaults (mm : μ) : ℕ → Code μ
  | 0 => .skip
  | n + 1 => .block [.lock (.mmapLock mm) .read, .unlock (.mmapLock mm), handleFaults mm n]

/-! ## `is_request_accepted` -/

/-- `is_request_accepted`. `target` is what the two lookups find: no task, a task without
address space, or a task with one, whose `total_vm` is read without its lock.
SOURCE: crudmemlimit.c:32-67 -/
def isRequestAcceptedCode (target : Option (Option μ)) (pid : PidT)
    (requested : Regs → ULong) : Code μ :=
  match target with
  | none => returnAccepted false
  | some none => returnAccepted false
  | some (some mm) =>
    .block [
      peekMm mm (fun r mm => { r with currentUsage := pagesToBytes mm.totalVm }),
      mutexLock,
      searchEntry pid
        (ifEntry (fun r entry => decide (r.currentUsage + requested r > entry.memoryLimit))
          (.block [mutexUnlock, returnAccepted false])
          (.block [mutexUnlock, returnAccepted true])),
      mutexUnlock,
      returnAccepted true]

/-! ## The registry calls -/

/-- `julioz_add_memory_limit`.
SOURCE: crudmemlimit.c:72-117 -/
def addCode (a : Answers) (pid : PidT) (limit : ULong) : Code μ :=
  .block [
    .ifThen (fun _ => invalidArguments pid limit) (returnCode EINVAL.neg),
    .ifThen (fun _ => !a.capable) (returnCode EPERM.neg),
    .ifThen (fun _ => (a.findTaskByVpid pid).isNone) (returnCode ESRCH.neg),
    mutexLock,
    searchEntry pid (.block [mutexUnlock, returnCode (-101)]),
    .ifThen (fun _ => !a.kmalloc) (.block [mutexUnlock, returnCode ENOMEM.neg]),
    onList (fun r l => (r, ⟨pid, limit⟩ :: l)),
    mutexUnlock,
    returnCode 0]

/-- The kernel buffer gets the entry of the loop. -/
def Regs.store (r : Regs) (entry : MemoryLimitation) : Regs :=
  { r with
    buffer := Function.update r.buffer r.count.toInt (some entry)
    count := r.count + 1 }

/-- `julioz_get_memory_limits`, called with address space `mm`.
SOURCE: crudmemlimit.c:127-174 -/
def getCode (a : Answers) (mm : μ) (maxEntries : ULong) (copyFaults putFaults : ℕ) : Code μ :=
  .block [
    .assign (fun r =>
      { r with count := 0, buffer := fun _ => none, records := [], processesReturned := none }),
    .ifThen (fun _ => decide (2 ^ 64 ≤ maxEntries.toNat * sizeofMemoryLimitation) || !a.kmalloc)
      (returnCode ENOMEM.neg),
    mutexLock,
    listForEachEntry (fun r => decide (r.count.signExtend 64 ≥ maxEntries)) (onEntry Regs.store),
    mutexUnlock,
    handleFaults mm copyFaults,
    .assign (fun r => { r with records := userRecords r.count r.buffer a.copyToUser }),
    .ifThen (fun _ => decide (a.copyToUser ≠ 0)) (returnCode EFAULT.neg),
    handleFaults mm putFaults,
    .ifThen (fun _ => a.putUser) (returnCode EFAULT.neg),
    .assign (fun r => { r with processesReturned := some r.count }),
    returnCode 0]

/-- `julioz_update_memory_limit`.
SOURCE: crudmemlimit.c:178-206 -/
def updateCode (a : Answers) (pid : PidT) (limit : ULong) : Code μ :=
  .block [
    .ifThen (fun _ => invalidArguments pid limit) (returnCode EINVAL.neg),
    .ifThen (fun _ => !a.capable) (returnCode EPERM.neg),
    mutexLock,
    searchEntry pid
      (.block [
        onList (fun r l => (r, l.modify r.index (fun entry => { entry with memoryLimit := limit }))),
        mutexUnlock,
        returnCode 0]),
    mutexUnlock,
    returnCode ESRCH.neg]

/-- `julioz_remove_memory_limit`.
SOURCE: crudmemlimit.c:213-241 -/
def removeCode (a : Answers) (pid : PidT) : Code μ :=
  .block [
    .ifThen (fun _ => decide (pid.toInt < 0)) (returnCode EINVAL.neg),
    .ifThen (fun _ => !a.capable) (returnCode EPERM.neg),
    mutexLock,
    searchEntry pid
      (.block [onList (fun r l => (r, l.eraseIdx r.index)), mutexUnlock, returnCode 0]),
    mutexUnlock,
    returnCode ESRCH.neg]

/-! ## `brk` and `ksys_mmap_pgoff` -/

/-- `brk` reaches the label `success_unlocked`: the pages below the old break are unmapped
and the lock is dropped on the way.
SOURCE: mm/mmap.c:237-256 -/
def brkShrinks (env : MmEnv) (mm : MmStruct) (brk newbrk oldbrk : ULong) : Bool :=
  decide (oldbrk ≠ newbrk) && decide (brk ≤ mm.brk) &&
    (vmaFind mm newbrk oldbrk).any (fun brkvma =>
      decide (brkvma.vmStart < oldbrk) &&
        (doVmiAlignMunmap env { mm with brk := brk } brkvma newbrk oldbrk).1.isNone)

/-- The label `out` of `brk`.
SOURCE: mm/mmap.c:284-287 -/
def brkOutCode (mm : μ) : Code μ :=
  .block [
    onMm mm (fun r mm => (r, { mm with brk := r.origbrk })),
    .unlock (.mmapLock mm),
    returnValue (fun r => r.origbrk)]

/-- `brk` of a task with address space `mm`.
SOURCE: mm/mmap.c:181-288 -/
def brkCode (mm : μ) (env : MmEnv) (target : Option (Option μ)) (pid : PidT) (brk : ULong)
    (populateFaults : ℕ) : Code μ :=
  .block [
    .ifThen (fun _ => env.lockKilled) (returnValue (fun _ => EINTR.ptr)),
    .lock (.mmapLock mm) .write,
    onMm mm (fun r mm =>
      ({ r with
          origbrk := mm.brk
          refused := brkRefused env mm brk
          newbrk := pageAlign brk
          oldbrk := pageAlign mm.brk }, mm)),
    .ifThen (fun r => r.refused) (brkOutCode mm),
    .call (isRequestAcceptedCode target pid (fun r => r.newbrk - r.oldbrk)),
    .ifThen (fun r => !r.accepted) (brkOutCode mm),
    onMm mm (fun r mm =>
      ({ r with
          retval := (brkApply env mm brk r.newbrk r.oldbrk).1
          shrunk := brkShrinks env mm brk r.newbrk r.oldbrk },
        (brkApply env mm brk r.newbrk r.oldbrk).2)),
    .ite (fun r => r.shrunk)
      (.block [.downgrade (.mmapLock mm), .unlock (.mmapLock mm)])
      (.unlock (.mmapLock mm)),
    handleFaults mm populateFaults,
    .ret]

/-- `vm_mmap_pgoff` of a task with address space `mm`. -/
def vmMmapPgoffCode (mm : μ) (env : MmEnv) (file : Option File)
    (addr len prot flags pgoff : ULong) (populateFaults : ℕ) : Code μ :=
  match env.securityMmapFile with
  | some e => returnValue (fun _ => e.ptr)
  | none =>
    .block [
      .ifThen (fun _ => env.lockKilled) (returnValue (fun _ => EINTR.ptr)),
      .lock (.mmapLock mm) .write,
      onMm mm (fun r mm =>
        ({ r with retval := (doMmap env mm file addr len prot flags pgoff).1 },
          (doMmap env mm file addr len prot flags pgoff).2)),
      .unlock (.mmapLock mm),
      handleFaults mm populateFaults,
      .ret]

/-- `ksys_mmap_pgoff` of a task with address space `mm`.
SOURCE: mm/mmap.c:1405-1456 -/
def ksysMmapPgoffCode (mm : μ) (env : MmEnv) (target : Option (Option μ)) (pid : PidT)
    (args : MmapArgs) (populateFaults : ℕ) : Code μ :=
  match mmapFile env args with
  | .error e => returnValue (fun _ => e.ptr)
  | .ok (file, len) =>
    .block [
      .call (isRequestAcceptedCode target pid (fun _ => len)),
      .ifThen (fun r => !r.accepted) (returnValue (fun _ => ENOMEM.ptr)),
      .call (vmMmapPgoffCode mm env file args.addr len args.prot args.flags args.pgoff
        populateFaults),
      .ret]

end

/-- A call with its arguments, the address space of the caller, and the answers of the
rest of the kernel. -/
inductive KernelCall (μ : Type) where
  | brk (mm : μ) (env : MmEnv) (target : Option (Option μ)) (pid : PidT) (addr : ULong)
      (populateFaults : ℕ)
  | mmap (mm : μ) (env : MmEnv) (target : Option (Option μ)) (pid : PidT) (args : MmapArgs)
      (populateFaults : ℕ)
  | add (a : Answers) (pid : PidT) (limit : ULong)
  | get (a : Answers) (mm : μ) (maxEntries : ULong) (copyFaults putFaults : ℕ)
  | update (a : Answers) (pid : PidT) (limit : ULong)
  | remove (a : Answers) (pid : PidT)

def KernelCall.code {μ : Type} : KernelCall μ → Code μ
  | .brk mm env target pid addr faults => brkCode mm env target pid addr faults
  | .mmap mm env target pid args faults => ksysMmapPgoffCode mm env target pid args faults
  | .add a pid limit => addCode a pid limit
  | .get a mm maxEntries copyFaults putFaults => getCode a mm maxEntries copyFaults putFaults
  | .update a pid limit => updateCode a pid limit
  | .remove a pid => removeCode a pid

end UsacKernel.Model
