import UsacKernel.Computation.Mealy
import UsacKernel.Model.Machine

/-!
# The counters of system calls

`track_syscall` and `julioz_track_syscall_usage` of `kernel/usac/syscall2.c` (under
`Proyecto1/kernel-linux`), and the five system calls that begin with a call of
`track_syscall`. What those calls do after the hook does not touch the counters. The table
of counters does not exist before the first query; until then `syscall_counters` is a null
pointer.
-/

set_option autoImplicit false

namespace UsacKernel.Model

open UsacKernel.Computation

/-- `struct timespec64`. -/
structure Timespec64 where
  tvSec : BitVec 64
  tvNsec : BitVec 64
  deriving DecidableEq

/-- `struct syscall_usage`.
SOURCE: syscall2.c:13-16 -/
structure SyscallUsage where
  count : ULong
  timeLastUsed : Timespec64
  deriving DecidableEq

/-- The counter that `kzalloc` leaves. -/
def SyscallUsage.zero : SyscallUsage := ⟨0, ⟨0, 0⟩⟩

def MAX_SYS_CALLS : ℕ := 1024

/-- `sizeof(struct syscall_usage)`. -/
def sizeofSyscallUsage : ℕ := 24

/-- `syscall_counters`: a null pointer, or the array it points to.
SOURCE: syscall2.c:19 -/
abbrev SyscallCounters := Option (ℤ → SyscallUsage)

/-- `init_syscall_counters`, when `kzalloc` finds memory or does not.
SOURCE: syscall2.c:22-26 -/
def initSyscallCounters (kzalloc : Bool) : ℤ × SyscallCounters :=
  if kzalloc then (0, some (fun _ => .zero)) else (ENOMEM.neg, none)

/-- `track_syscall`, when the clock shows `now`.
SOURCE: syscall2.c:28-42 -/
def trackSyscall (syscallId : CInt) (now : Timespec64) : SyscallCounters → SyscallCounters
  | none => none
  | some counters =>
    if syscallId.toInt ≥ MAX_SYS_CALLS then some counters
    else some (Function.update counters syscallId.toInt
      ⟨(counters syscallId.toInt).count + 1, now⟩)

/-- What a query gives back: its code and the records copied out. -/
structure UsageReply where
  ret : ℤ
  statistics : List SyscallUsage
  deriving DecidableEq

/-- The records that reach the user when `left` bytes of the array do not. -/
def copiedUsage (counters : ℤ → SyscallUsage) (left : ℕ) : List SyscallUsage :=
  (List.range ((sizeofSyscallUsage * MAX_SYS_CALLS - left) / sizeofSyscallUsage)).map
    (fun k : ℕ => counters k)

/-- The copy of the array; its result is an `int`.
SOURCE: syscall2.c:54-59 -/
def copyCounters (counters : ℤ → SyscallUsage) (left : ℕ) : UsageReply :=
  if BitVec.ofNat 32 left ≠ 0 then ⟨EFAULT.neg, copiedUsage counters left⟩
  else ⟨0, copiedUsage counters left⟩

/-- `julioz_track_syscall_usage`; `left` is what `copy_to_user` returns.
SOURCE: syscall2.c:47-60 -/
def juliozTrackSyscallUsage (kzalloc : Bool) (left : ℕ) :
    SyscallCounters → SyscallCounters × UsageReply
  | some counters => (some counters, copyCounters counters left)
  | none =>
    match initSyscallCounters kzalloc with
    | (_, none) => (none, ⟨ENOMEM.neg, []⟩)
    | (_, some counters) => (some counters, copyCounters counters left)

/-! ## The system calls that are counted -/

/-- The system calls with a hook.
SOURCE: fs/read_write.c:629-635, 657-662; fs/open.c:1427-1434; kernel/fork.c:2989-3005, 3041-3057 -/
inductive TrackedCall where
  | sysRead
  | sysWrite
  | sysOpen
  | sysClone
  | sysFork
  deriving DecidableEq

/-- The number that the hook of a call passes: `__NR_read` and so on.
SOURCE: arch/x86/entry/syscalls/syscall_64.tbl:11-13, 67-68 -/
def TrackedCall.nr : TrackedCall → CInt
  | .sysRead => 0
  | .sysWrite => 1
  | .sysOpen => 2
  | .sysClone => 56
  | .sysFork => 57

/-- What happens to the counters: a tracked call, with the time it is made at, or a query,
with the answers it gets from the rest of the kernel. -/
inductive CounterInput where
  | call (call : TrackedCall) (now : Timespec64)
  | query (kzalloc : Bool) (left : ℕ)
  deriving DecidableEq

def CounterInput.isQuery : CounterInput → Bool
  | .call _ _ => false
  | .query _ _ => true

/-- The counters as a machine; only queries have an answer. -/
def counterMachine : Mealy SyscallCounters CounterInput (Option UsageReply) where
  step
    | counters, .call call now => (trackSyscall call.nr now counters, none)
    | counters, .query kzalloc left =>
      ((juliozTrackSyscallUsage kzalloc left counters).1,
        some (juliozTrackSyscallUsage kzalloc left counters).2)

end UsacKernel.Model
