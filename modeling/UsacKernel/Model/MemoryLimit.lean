import UsacKernel.Computation.KeyedList
import UsacKernel.Computation.LockedObject
import UsacKernel.Model.Task

/-!
# The limit registry

The five functions of `kernel/usac/project3/crudmemlimit.c`. Each is written as the
source has it, in three parts: the checks before `memory_list_mutex` is taken, the code
between lock and unlock, and the code after it. `limiterObject` puts them together as an
object guarded by one lock, whose calls may come from any number of tasks.

`memory_list` is a list with the most recent entry first, as `list_add` keeps it. The
loops over it are recursive functions that stop at the first match.
-/

set_option autoImplicit false

namespace UsacKernel.Model

open UsacKernel.Computation

/-- `struct memory_limitation`. -/
structure MemoryLimitation where
  pid : PidT
  memoryLimit : ULong
  deriving DecidableEq

/-- `memory_list`. -/
abbrev MemoryList := List MemoryLimitation

/-- `sizeof(struct memory_limitation)`: four bytes, four of padding, eight. -/
def sizeofMemoryLimitation : ℕ := 16

/-- What a call asks of the rest of the kernel. -/
structure Answers where
  /-- `capable(CAP_SYS_ADMIN)`. -/
  capable : Bool
  findTaskByVpid : PidT → Option TaskStruct
  /-- `kmalloc` finds memory. -/
  kmalloc : Bool
  /-- What `copy_to_user` returns: the number of bytes it could not copy. -/
  copyToUser : ℕ
  /-- `put_user` faults. -/
  putUser : Bool

/-! ## `is_request_accepted` -/

/-- The task lookups before the lock: `some` is the usage to go on with.
SOURCE: crudmemlimit.c:38-49 -/
def currentUsage (find : PidT → Option TaskStruct) (pid : PidT) : Option ULong :=
  match find pid with
  | none => none
  | some task =>
    match task.mm with
    | none => none
    | some mm => some (pagesToBytes mm.totalVm)

/-- The loop under the lock: the limit that was compared against, if any, and the
answer.
SOURCE: crudmemlimit.c:52-66 -/
def acceptLoop (pid : PidT) (usage requested : ULong) : MemoryList → Option ULong × Bool
  | [] => (none, true)
  | entry :: rest =>
    if entry.pid = pid then
      if usage + requested > entry.memoryLimit then (some entry.memoryLimit, false)
      else (some entry.memoryLimit, true)
    else acceptLoop pid usage requested rest

/-- `is_request_accepted`.
SOURCE: crudmemlimit.c:32-67 -/
def isRequestAccepted (find : PidT → Option TaskStruct) (pid : PidT) (requested : ULong)
    (l : MemoryList) : Bool :=
  match currentUsage find pid with
  | none => false
  | some usage => (acceptLoop pid usage requested l).2

/-! ## `julioz_add_memory_limit` -/

/-- The argument check of `add` and `update`. The second comparison is one of unsigned
numbers.
SOURCE: crudmemlimit.c:79, 183 -/
def invalidArguments (pid : PidT) (limit : ULong) : Bool := decide (pid.toInt < 0 ∨ limit < 0)

/-- The checks before the lock.
SOURCE: crudmemlimit.c:79-92 -/
def addChecks (a : Answers) (pid : PidT) (limit : ULong) : Option ℤ :=
  if invalidArguments pid limit then some EINVAL.neg
  else if ¬ a.capable then some EPERM.neg
  else if (a.findTaskByVpid pid).isNone then some ESRCH.neg
  else none

/-- The search loop under the lock.
SOURCE: crudmemlimit.c:96-101 -/
def listed (pid : PidT) : MemoryList → Bool
  | [] => false
  | existing :: rest => if existing.pid = pid then true else listed pid rest

/-- The code under the lock.
SOURCE: crudmemlimit.c:95-116 -/
def addLocked (a : Answers) (pid : PidT) (limit : ULong) (l : MemoryList) : ℤ × MemoryList :=
  if listed pid l then (-101, l)
  else if ¬ a.kmalloc then (ENOMEM.neg, l)
  else (0, ⟨pid, limit⟩ :: l)

/-- `julioz_add_memory_limit`: its return code and the list after it.
SOURCE: crudmemlimit.c:72-117 -/
def juliozAddMemoryLimit (a : Answers) (pid : PidT) (limit : ULong) (l : MemoryList) :
    ℤ × MemoryList :=
  match addChecks a pid limit with
  | some r => (r, l)
  | none => addLocked a pid limit l

/-! ## `julioz_get_memory_limits` -/

/-- The kernel buffer: the record written at each index, if one was. -/
abbrev ProcessesBuffer := ℤ → Option MemoryLimitation

/-- `kmalloc_array` and its check; the product of the two sizes may not overflow.
SOURCE: crudmemlimit.c:140-143 -/
def getChecks (a : Answers) (maxEntries : ULong) : Option ℤ :=
  if 2 ^ 64 ≤ maxEntries.toNat * sizeofMemoryLimitation ∨ ¬ a.kmalloc then some ENOMEM.neg
  else none

/-- The loop under the lock. `count` is an `int`, compared as a `size_t`.
SOURCE: crudmemlimit.c:148-156 -/
def fillBuffer (maxEntries : ULong) :
    MemoryList → CInt → ProcessesBuffer → CInt × ProcessesBuffer
  | [], count, buffer => (count, buffer)
  | entry :: rest, count, buffer =>
    if count.signExtend 64 ≥ maxEntries then (count, buffer)
    else fillBuffer maxEntries rest (count + 1)
      (Function.update buffer count.toInt (some entry))

/-- The records that reach the user when `left` of `count * sizeof` bytes do not. -/
def userRecords (count : CInt) (buffer : ProcessesBuffer) (left : ℕ) :
    List (Option MemoryLimitation) :=
  (List.range (((count.signExtend 64 * BitVec.ofNat 64 sizeofMemoryLimitation).toNat - left) /
    sizeofMemoryLimitation)).map (fun k => buffer k)

/-- What `get` gives back: its code, the records copied out and the count stored at
`processes_returned`. -/
structure GetReply where
  ret : ℤ
  records : List (Option MemoryLimitation)
  processesReturned : Option CInt
  deriving DecidableEq

/-- The two user copies after the lock.
SOURCE: crudmemlimit.c:160-173 -/
def getCopies (a : Answers) (count : CInt) (buffer : ProcessesBuffer) : GetReply :=
  let records := userRecords count buffer a.copyToUser
  if a.copyToUser ≠ 0 then ⟨EFAULT.neg, records, none⟩
  else if a.putUser then ⟨EFAULT.neg, records, none⟩
  else ⟨0, records, some count⟩

/-- `julioz_get_memory_limits`; it does not change the list.
SOURCE: crudmemlimit.c:127-174 -/
def juliozGetMemoryLimits (a : Answers) (maxEntries : ULong) (l : MemoryList) : GetReply :=
  match getChecks a maxEntries with
  | some r => ⟨r, [], none⟩
  | none =>
    let filled := fillBuffer maxEntries l 0 (fun _ => none)
    getCopies a filled.1 filled.2

/-! ## `julioz_update_memory_limit` and `julioz_remove_memory_limit` -/

/-- SOURCE: crudmemlimit.c:183-191 -/
def updateChecks (a : Answers) (pid : PidT) (limit : ULong) : Option ℤ :=
  if invalidArguments pid limit then some EINVAL.neg
  else if ¬ a.capable then some EPERM.neg
  else none

/-- The loop under the lock, with the list after it.
SOURCE: crudmemlimit.c:194-205 -/
def updateLocked (pid : PidT) (limit : ULong) : MemoryList → ℤ × MemoryList
  | [] => (ESRCH.neg, [])
  | entry :: rest =>
    if entry.pid = pid then (0, { entry with memoryLimit := limit } :: rest)
    else
      let r := updateLocked pid limit rest
      (r.1, entry :: r.2)

/-- `julioz_update_memory_limit`.
SOURCE: crudmemlimit.c:178-206 -/
def juliozUpdateMemoryLimit (a : Answers) (pid : PidT) (limit : ULong) (l : MemoryList) :
    ℤ × MemoryList :=
  match updateChecks a pid limit with
  | some r => (r, l)
  | none => updateLocked pid limit l

/-- SOURCE: crudmemlimit.c:218-225 -/
def removeChecks (a : Answers) (pid : PidT) : Option ℤ :=
  if pid.toInt < 0 then some EINVAL.neg
  else if ¬ a.capable then some EPERM.neg
  else none

/-- The loop under the lock, with the list after it.
SOURCE: crudmemlimit.c:228-240 -/
def removeLocked (pid : PidT) : MemoryList → ℤ × MemoryList
  | [] => (ESRCH.neg, [])
  | entry :: rest =>
    if entry.pid = pid then (0, rest)
    else
      let r := removeLocked pid rest
      (r.1, entry :: r.2)

/-- `julioz_remove_memory_limit`.
SOURCE: crudmemlimit.c:213-241 -/
def juliozRemoveMemoryLimit (a : Answers) (pid : PidT) (l : MemoryList) : ℤ × MemoryList :=
  match removeChecks a pid with
  | some r => (r, l)
  | none => removeLocked pid l

/-! ## The registry as an object -/

inductive RegistryCall where
  | add (pid : PidT) (limit : ULong)
  | get (maxEntries : ULong)
  | update (pid : PidT) (limit : ULong)
  | remove (pid : PidT)
  deriving DecidableEq

inductive RegistryReply where
  | code (r : ℤ)
  | limits (reply : GetReply)
  deriving DecidableEq

def RegistryReply.ret : RegistryReply → ℤ
  | .code r => r
  | .limits reply => reply.ret

/-- What the code under the lock hands to the code after it. -/
inductive RegistryLocked where
  | code (r : ℤ)
  | filled (count : CInt) (buffer : ProcessesBuffer)

/-- The four system calls, each with its answers, on `memory_list`. -/
def registryObject :
    LockedObject MemoryList (RegistryCall × Answers) RegistryLocked RegistryReply where
  enter
    | (.add pid limit, a) => (addChecks a pid limit).map .code
    | (.get maxEntries, a) => (getChecks a maxEntries).map (fun r => .limits ⟨r, [], none⟩)
    | (.update pid limit, a) => (updateChecks a pid limit).map .code
    | (.remove pid, a) => (removeChecks a pid).map .code
  critical
    | (.add pid limit, a), l => (addLocked a pid limit l).map .code id
    | (.get maxEntries, _), l =>
      (.filled (fillBuffer maxEntries l 0 (fun _ => none)).1
        (fillBuffer maxEntries l 0 (fun _ => none)).2, l)
    | (.update pid limit, _), l => (updateLocked pid limit l).map .code id
    | (.remove pid, _), l => (removeLocked pid l).map .code id
  leave
    | _, .code r => .code r
    | (_, a), .filled count buffer => .limits (getCopies a count buffer)

/-- The calls on the registry: the system calls, and the test made for a request. -/
inductive LimiterCall where
  | registry (call : RegistryCall)
  | request (pid : PidT) (requested : ULong)
  deriving DecidableEq

/-- The reply to a call. For a test it records the limit that was compared against. -/
inductive LimiterReply where
  | registry (reply : RegistryReply)
  | decision (accepted : Bool) (compared : Option ULong)
  deriving DecidableEq

/-- The five functions on `memory_list`. -/
def limiterObject :
    LockedObject MemoryList (LimiterCall × Answers) (RegistryLocked ⊕ Option ULong × Bool)
      LimiterReply where
  enter
    | (.registry call, a) => (registryObject.enter (call, a)).map .registry
    | (.request pid _, a) =>
      match currentUsage a.findTaskByVpid pid with
      | none => some (.decision false none)
      | some _ => none
  critical
    | (.registry call, a), l => (registryObject.critical (call, a) l).map .inl id
    | (.request pid requested, a), l =>
      (.inr (acceptLoop pid ((currentUsage a.findTaskByVpid pid).getD 0) requested l), l)
  leave
    | (.registry call, a), .inl r => .registry (registryObject.leave (call, a) r)
    | _, .inr (compared, accepted) => .decision accepted compared
    | _, .inl (.code r) => .registry (.code r)
    | (_, a), .inl (.filled count buffer) => .registry (.limits (getCopies a count buffer))

/-- INTERNAL: a call of `add` without anything between entry and return is the function. -/
theorem registryObject_call_add (a : Answers) (pid : PidT) (limit : ULong) (l : MemoryList) :
    registryObject.call (.add pid limit, a) l =
      ((juliozAddMemoryLimit a pid limit l).2, .code (juliozAddMemoryLimit a pid limit l).1) := by
  simp only [LockedObject.call, registryObject, juliozAddMemoryLimit]
  cases addChecks a pid limit <;> rfl

/-- INTERNAL: a call of `get` without anything between entry and return is the function, and
leaves the list alone. -/
theorem registryObject_call_get (a : Answers) (maxEntries : ULong) (l : MemoryList) :
    registryObject.call (.get maxEntries, a) l =
      (l, .limits (juliozGetMemoryLimits a maxEntries l)) := by
  simp only [LockedObject.call, registryObject, juliozGetMemoryLimits]
  cases getChecks a maxEntries <;> rfl

/-- INTERNAL: a call of `update` without anything between entry and return is the function. -/
theorem registryObject_call_update (a : Answers) (pid : PidT) (limit : ULong) (l : MemoryList) :
    registryObject.call (.update pid limit, a) l =
      ((juliozUpdateMemoryLimit a pid limit l).2,
        .code (juliozUpdateMemoryLimit a pid limit l).1) := by
  simp only [LockedObject.call, registryObject, juliozUpdateMemoryLimit]
  cases updateChecks a pid limit <;> rfl

/-- INTERNAL: a call of `remove` without anything between entry and return is the function. -/
theorem registryObject_call_remove (a : Answers) (pid : PidT) (l : MemoryList) :
    registryObject.call (.remove pid, a) l =
      ((juliozRemoveMemoryLimit a pid l).2, .code (juliozRemoveMemoryLimit a pid l).1) := by
  simp only [LockedObject.call, registryObject, juliozRemoveMemoryLimit]
  cases removeChecks a pid <;> rfl

/-! ## What the loops compute

Each loop stops at the first entry with the pid it looks for, so its result is a
function of `limitAt`, the limit of that entry. -/

/-- The limit of the first entry for a pid. -/
def limitAt (l : MemoryList) (pid : PidT) : Option ULong :=
  KeyedList.valueAt MemoryLimitation.pid MemoryLimitation.memoryLimit l pid

/-- No two entries have the same pid. -/
def UniquePids (l : MemoryList) : Prop := KeyedList.UniqueKeys MemoryLimitation.pid l

/-- INTERNAL: the empty list limits nobody. -/
@[simp] theorem limitAt_nil (pid : PidT) : limitAt [] pid = none := rfl

/-- INTERNAL: the first entry decides for its pid. -/
theorem limitAt_cons (entry : MemoryLimitation) (l : MemoryList) (pid : PidT) :
    limitAt (entry :: l) pid =
      if entry.pid = pid then some entry.memoryLimit else limitAt l pid :=
  KeyedList.valueAt_cons _ _ entry l pid

/-- INTERNAL: the unsigned comparison of the argument check is never true, so only a
negative pid is refused. -/
theorem invalidArguments_eq (pid : PidT) (limit : ULong) :
    invalidArguments pid limit = decide (pid.toInt < 0) := by
  simp [invalidArguments]

/-- INTERNAL: a pid is listed when it has a limit. -/
theorem listed_eq (pid : PidT) (l : MemoryList) : listed pid l = (limitAt l pid).isSome := by
  induction l with
  | nil => rfl
  | cons entry rest ih =>
    rw [listed, limitAt_cons]
    by_cases h : entry.pid = pid <;> simp [h, ih]

/-- INTERNAL: the loop of the request test compares against the limit of the first
entry, and against nothing when there is none. -/
theorem acceptLoop_eq (pid : PidT) (usage requested : ULong) (l : MemoryList) :
    acceptLoop pid usage requested l =
      (limitAt l pid, (limitAt l pid).all (fun limit => decide (usage + requested ≤ limit))) := by
  induction l with
  | nil => rfl
  | cons entry rest ih =>
    rw [acceptLoop, limitAt_cons]
    by_cases h : entry.pid = pid
    · by_cases hgt : usage + requested > entry.memoryLimit
      · simp [h, hgt, BitVec.not_le.mpr hgt]
      · simp [h, hgt, BitVec.not_lt.mp hgt]
    · simp [h, ih]

/-- INTERNAL: a request is accepted when the usage is known, and usage and request are within
the limit if there is one. -/
theorem isRequestAccepted_eq (find : PidT → Option TaskStruct) (pid : PidT) (requested : ULong)
    (l : MemoryList) :
    isRequestAccepted find pid requested l =
      (currentUsage find pid).any (fun usage =>
        (limitAt l pid).all (fun limit => decide (usage + requested ≤ limit))) := by
  unfold isRequestAccepted
  cases currentUsage find pid with
  | none => rfl
  | some usage => simp [acceptLoop_eq]

/-- INTERNAL: the usage of a task with an address space is its `total_vm` in bytes. -/
theorem currentUsage_eq_some {find : PidT → Option TaskStruct} {pid : PidT} {task : TaskStruct}
    {mm : MmStruct} (hfind : find pid = some task) (hmm : task.mm = some mm) :
    currentUsage find pid = some (pagesToBytes mm.totalVm) := by
  simp only [currentUsage, hfind, hmm]

/-- INTERNAL: the test compares the limit, if there is one, with the wrapped sum.
SOURCE: crudmemlimit.c:32-67 -/
theorem isRequestAccepted_mod {find : PidT → Option TaskStruct} {pid : PidT} {total : ULong}
    (husage : currentUsage find pid = some (pagesToBytes total)) (l : MemoryList)
    (requested : ULong) :
    isRequestAccepted find pid requested l = true ↔
      ∀ limit, limitAt l pid = some limit →
        (total.toNat * 4096 + requested.toNat) % 2 ^ 64 ≤ limit.toNat := by
  rw [isRequestAccepted_eq, husage, Option.any_some]
  cases limitAt l pid with
  | none => simp
  | some limit =>
    rw [Option.all_some, decide_eq_true_eq, BitVec.le_def, BitVec.toNat_add, pagesToBytes_toNat,
      Nat.mod_add_mod]
    simp

/-- INTERNAL: the loop of `update`. -/
theorem updateLocked_eq (pid : PidT) (limit : ULong) (l : MemoryList) :
    updateLocked pid limit l =
      if (limitAt l pid).isSome then
        (0, KeyedList.modifyFirst MemoryLimitation.pid pid
          (fun entry => { entry with memoryLimit := limit }) l)
      else (ESRCH.neg, l) := by
  induction l with
  | nil => rfl
  | cons entry rest ih =>
    rw [updateLocked, limitAt_cons, KeyedList.modifyFirst]
    by_cases h : entry.pid = pid
    · simp [h]
    · simp only [h, if_false, ih]
      split <;> rfl

/-- INTERNAL: the loop of `remove`. -/
theorem removeLocked_eq (pid : PidT) (l : MemoryList) :
    removeLocked pid l =
      if (limitAt l pid).isSome then
        (0, l.eraseP (fun entry => decide (entry.pid = pid)))
      else (ESRCH.neg, l) := by
  induction l with
  | nil => rfl
  | cons entry rest ih =>
    rw [removeLocked, limitAt_cons]
    by_cases h : entry.pid = pid
    · simp [h]
    · simp only [h, if_false, ih, List.eraseP_cons, decide_false]
      split <;> rfl

end UsacKernel.Model
