import UsacKernel.Model.MemoryLimit

/-!
# Processes that come and go

The registry next to the allocation of pid numbers. A process instance is created with a
number that no living process has, and gives the number back when it exits; the number
can then go to another instance. The registry is changed by its own system calls only:
no function on the way of a process exit mentions it.
-/

set_option autoImplicit false

namespace UsacKernel.Model

open UsacKernel.Computation

/-- The registry, and the process instance that has each number. Instances are numbered
in the order of their creation. -/
structure LifeState where
  list : MemoryList
  holder : PidT → Option ℕ
  created : ℕ

def LifeState.initial : LifeState := ⟨[], fun _ => none, 0⟩

/-- `find_task_by_vpid` in the initial namespace, for processes with address space `mm`. -/
def LifeState.find (s : LifeState) (mm : Option MmStruct) (nr : PidT) : Option TaskStruct :=
  (s.holder nr).map (fun _ => ⟨nr, nr, [(initPidNs, nr)], initPidNs, mm⟩)

/-- What happens. The answers of a system call are taken from `a`, except for the task
lookup, and a request comes with the address space of the process at the time. -/
inductive LifeEvent where
  | create (pid : PidT)
  | exit (pid : PidT)
  | registry (call : RegistryCall) (a : Answers)
  | request (pid : PidT) (mm : MmStruct) (requested : ULong)

/-- The answers to a system call, with the lookup in the living processes. -/
def LifeState.answers (s : LifeState) (a : Answers) : Answers :=
  { a with findTaskByVpid := s.find none }

def LifeState.requestAnswers (s : LifeState) (mm : MmStruct) : Answers :=
  ⟨false, s.find (some mm), false, 0, false⟩

def processLife : Mealy LifeState LifeEvent (Option LimiterReply) where
  step s e :=
    match e with
    | .create pid =>
      if (s.holder pid).isSome then (s, none)
      else
        ({ s with
            holder := Function.update s.holder pid (some s.created)
            created := s.created + 1 }, none)
    | .exit pid => ({ s with holder := Function.update s.holder pid none }, none)
    | .registry call a =>
      let r := limiterObject.call (.registry call, s.answers a) s.list
      ({ s with list := r.1 }, some r.2)
    | .request pid mm requested =>
      let r := limiterObject.call (.request pid requested, s.requestAnswers mm) s.list
      ({ s with list := r.1 }, some r.2)

end UsacKernel.Model
