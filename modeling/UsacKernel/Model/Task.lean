import UsacKernel.Model.AddressSpace

/-!
# Tasks and pid namespaces

A task has one number in each pid namespace it is visible in. `current->pid` is the
number in the initial namespace; `find_task_by_vpid` looks a number up in the caller's
own namespace. Threads of a process are tasks of their own with the leader's number as
`tgid` and the same `mm`.
-/

set_option autoImplicit false

namespace UsacKernel.Model

/-- A pid namespace; `0` is the initial one. -/
abbrev PidNamespace := ℕ

def initPidNs : PidNamespace := 0

/-- The modelled part of `struct task_struct`; `mm` is what the pointer points to. -/
structure TaskStruct where
  pid : PidT
  tgid : PidT
  /-- `struct pid`: the number of the task in each namespace that sees it. -/
  numbers : List (PidNamespace × PidT)
  /-- `task_active_pid_ns`. -/
  activePidNs : PidNamespace
  mm : Option MmStruct
  deriving DecidableEq

/-- The tasks of the system. `pid` is the number in the initial namespace, and a number
names one task in each namespace. -/
structure TaskTable where
  tasks : List TaskStruct
  pid_mem : ∀ t ∈ tasks, (initPidNs, t.pid) ∈ t.numbers
  unique : ∀ t ∈ tasks, ∀ u ∈ tasks, ∀ n, n ∈ t.numbers → n ∈ u.numbers → t = u

/-- `find_task_by_vpid` called by `current`. -/
def findTaskByVpid (tbl : TaskTable) (current : TaskStruct) (nr : PidT) : Option TaskStruct :=
  tbl.tasks.find? (fun t => decide ((current.activePidNs, nr) ∈ t.numbers))

/-- INTERNAL: a number that a task has in the namespace of the caller finds that task. -/
theorem findTaskByVpid_eq_some (tbl : TaskTable) (current t : TaskStruct) (nr : PidT)
    (ht : t ∈ tbl.tasks) (hn : (current.activePidNs, nr) ∈ t.numbers) :
    findTaskByVpid tbl current nr = some t := by
  cases hfind : findTaskByVpid tbl current nr with
  | none =>
    have hnot := List.find?_eq_none.mp hfind t ht
    simp [hn] at hnot
  | some u =>
    have hu := List.mem_of_find?_eq_some hfind
    have hnu := List.find?_some hfind
    rw [tbl.unique t ht u hu _ hn (of_decide_eq_true hnu)]

/-- INTERNAL: in the initial namespace `current->pid` is resolved to `current`. -/
theorem findTaskByVpid_current (tbl : TaskTable) (current : TaskStruct)
    (hmem : current ∈ tbl.tasks) (hns : current.activePidNs = initPidNs) :
    findTaskByVpid tbl current current.pid = some current :=
  findTaskByVpid_eq_some tbl current current current.pid hmem
    (hns ▸ tbl.pid_mem current hmem)

/-- The same tasks, all of them sharing the address space `mm`. -/
def TaskTable.sharing (tbl : TaskTable) (mm : MmStruct) : TaskTable where
  tasks := tbl.tasks.map (fun t => { t with mm := some mm })
  pid_mem := by
    intro t ht
    obtain ⟨u, hu, rfl⟩ := List.mem_map.mp ht
    exact tbl.pid_mem u hu
  unique := by
    intro t ht u hu n hnt hnu
    obtain ⟨t', ht', rfl⟩ := List.mem_map.mp ht
    obtain ⟨u', hu', rfl⟩ := List.mem_map.mp hu
    rw [tbl.unique t' ht' u' hu' n hnt hnu]

/-- INTERNAL: a task that shares `mm` finds itself with that address space. -/
theorem findTaskByVpid_sharing (tbl : TaskTable) (current : TaskStruct) (mm : MmStruct)
    (hmem : current ∈ tbl.tasks) (hns : current.activePidNs = initPidNs) :
    findTaskByVpid (tbl.sharing mm) current current.pid = some { current with mm := some mm } :=
  findTaskByVpid_eq_some (tbl.sharing mm) current { current with mm := some mm } current.pid
    (List.mem_map.mpr ⟨current, hmem, rfl⟩) (hns ▸ tbl.pid_mem current hmem)

end UsacKernel.Model
