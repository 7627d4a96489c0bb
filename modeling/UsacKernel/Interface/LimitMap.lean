import UsacKernel.Model.MemoryLimit

/-!
# The registry as a partial map

What the registry is for: a partial map from pids to limits, with the system calls as
its operations. This is a specification, not a translation; `limitMapObject` has the
calls of `limiterObject` and answers each of them from the map alone.
-/

set_option autoImplicit false

namespace UsacKernel.Interface

open UsacKernel.Computation UsacKernel.Model

abbrev LimitMap := PidT → Option ULong

def LimitMap.empty : LimitMap := fun _ => none

/-- What is observed of a call: the code of a system call, or the decision on a request
and the limit it was compared with. -/
inductive MapReply where
  | code (r : ℤ)
  | decision (accepted : Bool) (compared : Option ULong)
  deriving DecidableEq

/-- What the map specification sees of a reply. -/
def observe : LimiterReply → MapReply
  | .registry reply => .code reply.ret
  | .decision accepted compared => .decision accepted compared

/-- The pages that the process `pid` has mapped, if there is one with an address space. -/
def mappedPages (a : Answers) (pid : PidT) : Option ULong :=
  (a.findTaskByVpid pid).bind fun task => task.mm.map MmStruct.totalVm

/-- The map specification of the five calls. -/
def limitMapObject : LockedObject LimitMap (LimiterCall × Answers) MapReply MapReply where
  enter
    | (.registry (.add pid _), a) =>
      if pid.toInt < 0 then some (.code EINVAL.neg)
      else if ¬ a.capable then some (.code EPERM.neg)
      else if (a.findTaskByVpid pid).isNone then some (.code ESRCH.neg)
      else none
    | (.registry (.get maxEntries), a) =>
      if 2 ^ 64 ≤ maxEntries.toNat * sizeofMemoryLimitation ∨ ¬ a.kmalloc then
        some (.code ENOMEM.neg)
      else none
    | (.registry (.update pid _), a) | (.registry (.remove pid), a) =>
      if pid.toInt < 0 then some (.code EINVAL.neg)
      else if ¬ a.capable then some (.code EPERM.neg)
      else none
    | (.request pid _, a) =>
      if (mappedPages a pid).isNone then some (.decision false none) else none
  critical
    | (.registry (.add pid limit), a), m =>
      if (m pid).isSome then (.code (-101), m)
      else if ¬ a.kmalloc then (.code ENOMEM.neg, m)
      else (.code 0, Function.update m pid (some limit))
    | (.registry (.get _), a), m =>
      (.code (if a.copyToUser ≠ 0 ∨ a.putUser then EFAULT.neg else 0), m)
    | (.registry (.update pid limit), _), m =>
      if (m pid).isSome then (.code 0, Function.update m pid (some limit))
      else (.code ESRCH.neg, m)
    | (.registry (.remove pid), _), m =>
      if (m pid).isSome then (.code 0, Function.update m pid none)
      else (.code ESRCH.neg, m)
    | (.request pid requested, a), m =>
      match m pid with
      | none => (.decision true none, m)
      | some limit =>
        (.decision (decide ((mappedPages a pid).getD 0 * 4096 + requested ≤ limit)) (some limit), m)
  leave _ r := r

end UsacKernel.Interface
