import UsacKernel.Analysis.Layout
import UsacKernel.Analysis.ProcessIdentity

/-!
# Concurrent `mmap` calls under one limit

`ksys_mmap_pgoff` makes the request test before `vm_mmap_pgoff` takes the mmap lock.
Tasks that share an address space and are listed with the same limit can therefore pass
their tests one after the other, each against the same `total_vm`, and then map one after
the other. The limit holds in the schedules in which every test that is accepted while
other accepted requests are not yet mapped leaves room for them as well.
-/

set_option autoImplicit false

namespace UsacKernel.Analysis

open UsacKernel.Computation UsacKernel.Model

/-- Any number of `mmap` calls, each in its slot, on one address space. -/
abbrev MmapConfig (κ : Type) := TestThenAct.Config κ MmStruct MmapCall

abbrev MmapMove (κ : Type) := TestThenAct.Move κ MmapCall

/-- A request for whole pages, at no fixed address and not of huge pages, by a task of the
initial pid namespace that is listed with `limit`. -/
structure PlainCall (tbl : TaskTable) (l : MemoryList) (limit taskSize : ULong) (call : MmapCall) :
    Prop where
  task : call.caller ∈ tbl.tasks
  initial : call.caller.activePidNs = initPidNs
  entry : limitAt l call.caller.pid = some limit
  size : call.env.taskSize = taskSize
  pages : call.args.len.toNat % 4096 = 0
  notFixed : hasFlag (fixedFlags call.args.flags) MAP_FIXED = false
  notHuge : hasFlag call.args.flags MAP_HUGETLB = false
  smallFile : ∀ file, call.env.fget call.args.fd = some file → file.hugeShift = none

/-- What the schedules are made of: plain requests, and mappings for which the search
finds free ranges. -/
def PlainMove {κ : Type} (tbl : TaskTable) (l : MemoryList) (limit taskSize : ULong)
    (c : MmapConfig κ) : MmapMove κ → Prop
  | .test _ call => PlainCall tbl l limit taskSize call
  | .act k => ∀ call, c.pending k = some call → FindsFree call.env c.shared

/-- What a request adds when it is mapped; one longer than `TASK_SIZE` never is. -/
def requestBytes (taskSize : ULong) (call : MmapCall) : ℕ :=
  if call.args.len.toNat ≤ taskSize.toNat then call.args.len.toNat else 0

/-- A test that is made and accepted while other accepted requests are not yet mapped leaves
room for them as well. A test on a slot with a request under way is not made. -/
def CountsPending {κ : Type} [Fintype κ] (tbl : TaskTable) (l : MemoryList)
    (limit taskSize : ULong) (c : MmapConfig κ) : MmapMove κ → Prop
  | .test k call =>
    let pending := TestThenAct.pendingCost (requestBytes taskSize) c
    c.pending k = none → (mmapObject tbl l).test call c.shared = none → pending ≠ 0 →
      c.shared.totalVm.toNat * 4096 + pending + requestBytes taskSize call ≤ limit.toNat
  | .act _ => True

section

variable {tbl : TaskTable} {l : MemoryList} {limit taskSize : ULong} {call : MmapCall}

/-- INTERNAL: a plain request is not rounded before the hook.
SOURCE: mm/mmap.c:1412-1441 -/
theorem PlainCall.mmapFile_len (h : PlainCall tbl l limit taskSize call) {file : Option File}
    {len : ULong} (hfile : mmapFile call.env call.args = .ok (file, len)) :
    len = call.args.len := by
  unfold mmapFile at hfile
  simp only [h.notHuge] at hfile
  split at hfile
  · cases hget : call.env.fget call.args.fd with
    | none => simp [hget] at hfile
    | some f =>
      simp only [hget, h.smallFile f hget] at hfile
      simp_all
  · simp_all

/-- INTERNAL: a plain request that the test accepts fits next to the usage, if it can be
mapped at all.
SOURCE: crudmemlimit.c:32-67; mm/mmap.c:1444-1448 -/
theorem PlainCall.test_room (h : PlainCall tbl l limit taskSize call) {mm : MmStruct}
    (hlayout : Layout taskSize mm) (htest : (mmapObject tbl l).test call mm = none)
    (hfits : call.args.len.toNat ≤ taskSize.toNat) :
    mm.totalVm.toNat * 4096 + call.args.len.toNat ≤ limit.toNat := by
  simp only [mmapObject] at htest
  cases hfile : mmapFile call.env call.args with
  | error e => simp [hfile] at htest
  | ok p =>
    obtain ⟨file, len⟩ := p
    have hlen := h.mmapFile_len hfile
    subst hlen
    simp only [hfile] at htest
    split at htest
    · cases htest
    · rename_i hacc
      have husage : currentUsage (findTaskByVpid (tbl.sharing mm) call.caller) call.caller.pid =
          some (pagesToBytes mm.totalVm) := by
        simp only [currentUsage, findTaskByVpid_sharing tbl call.caller mm h.task h.initial]
      have hsize := h.size
      exact (isRequestAccepted_iff call.env husage h.entry (hsize ▸ hlayout.total_le) _
        (hsize ▸ hfits)).mp (not_not.mp hacc)

/-- INTERNAL: mapping a plain request keeps the layout and adds at most its bytes.
SOURCE: mm/mmap.c:1226-1403, 2943-2946 -/
theorem PlainCall.act_total (h : PlainCall tbl l limit taskSize call) {mm : MmStruct}
    (hlayout : Layout taskSize mm) (hfree : FindsFree call.env mm) :
    Layout taskSize ((mmapObject tbl l).act call mm).1 ∧
      ((mmapObject tbl l).act call mm).1.totalVm.toNat * 4096 ≤
        mm.totalVm.toNat * 4096 + requestBytes taskSize call := by
  simp only [mmapObject]
  cases hfile : mmapFile call.env call.args with
  | error e => exact ⟨hlayout, Nat.le_add_right _ _⟩
  | ok p =>
    obtain ⟨file, len⟩ := p
    have hlen := h.mmapFile_len hfile
    subst hlen
    have hpages := h.pages
    rw [← h.size] at hlayout ⊢
    obtain ⟨hlayout', hcase⟩ := hlayout.vmMmapPgoff file call.args.addr call.args.len
      call.args.prot call.args.flags call.args.pgoff hfree h.notFixed
    refine ⟨hlayout', ?_⟩
    simp only [Prod.fst_swap]
    rcases hcase with hsame | ⟨hle, hadd⟩
    · rw [hsame]
      exact Nat.le_add_right _ _
    · rw [hadd, requestBytes, if_pos hle]
      omega

end

/-- MAIN: **concurrent requests stay within the limit when tests count what is pending.**
Any number of `mmap` calls of whole pages, by tasks that share one address space and are
listed with the same limit, in any interleaving of their tests and mappings, from an
address space within the limit. If each test that is accepted while other accepted
requests are not yet mapped leaves room for them too (in particular if no test is made
between the test and the mapping of another call), every state is within the limit.
SOURCE: mm/mmap.c:1405-1456, 2943-2946; crudmemlimit.c:49-66 -/
theorem concurrent_mmap_within_limit {κ : Type} [Fintype κ] [DecidableEq κ] (tbl : TaskTable)
    (l : MemoryList) (limit taskSize : ULong) (mm : MmStruct) (hlayout : Layout taskSize mm)
    (htotal : mm.totalVm.toNat * 4096 ≤ limit.toNat) (moves : List (MmapMove κ))
    (hplain : (mmapObject tbl l).schedule.Along (PlainMove tbl l limit taskSize)
      (TestThenAct.start mm) moves)
    (hpending : (mmapObject tbl l).schedule.Along (CountsPending tbl l limit taskSize)
      (TestThenAct.start mm) moves) :
    ((mmapObject tbl l).schedule.final (TestThenAct.start mm) moves).shared.totalVm.toNat * 4096 ≤
      limit.toNat := by
  refine (TestThenAct.schedule_bounded (mmapObject tbl l) (fun mm => mm.totalVm.toNat * 4096)
    (requestBytes taskSize) limit.toNat (Layout taskSize) (PlainCall tbl l limit taskSize)
    (fun c m => PlainMove tbl l limit taskSize c m ∧ CountsPending tbl l limit taskSize c m)
    ?_ ?_ ?_ mm hlayout htotal moves (hplain.and hpending)).2
  · intro c k call hP
    exact hP.1
  · intro c k call hP hk hlayout hcall
    exact hcall.act_total hlayout (hP.1 call hk)
  · intro c k call hP hk htest hlayout hbound
    by_cases hnone : TestThenAct.pendingCost (requestBytes taskSize) c = 0
    · -- nothing is pending: the test itself has compared the sum
      simp only [hnone, Nat.add_zero, requestBytes] at hbound ⊢
      split_ifs with hfits
      · exact PlainCall.test_room hP.1 hlayout htest hfits
      · rwa [Nat.add_zero]
    · exact hP.2 hk htest hnone

/-! ### Two callers -/

/-- A kernel like `quietEnv` whose search answers with another range. -/
def quietEnvAt (addr : ULong) : MmEnv :=
  { quietEnv with getArea := fun _ hint _ _ flags => if hasFlag flags MAP_FIXED then hint else addr }

/-- One page for the thread `t` of `twoThreads`, mapped at `addr`. -/
def pageCall (t : TaskStruct) (addr : ULong) : MmapCall := ⟨t, anonymousArgs 4096, quietEnvAt addr⟩

/-- Both threads of `twoThreads` are listed with 1001 pages. -/
def bothListed : MemoryList := [⟨6, 4100096⟩, ⟨5, 4100096⟩]

/-- INTERNAL: an address space with one heap of a thousand pages has the layout that every run
keeps. -/
theorem heapMm_layout : Layout quietEnv.taskSize (heapMm 1000) :=
  ⟨by decide, by decide, List.pairwise_singleton _ _, by decide⟩

/-- INTERNAL: an environment that answers every search with `addr` finds a free range, when all
areas end there or below. -/
theorem quietEnvAt_findsFree (addr : ULong) (mm : MmStruct)
    (h : ∀ v ∈ mm.vmas, v.vmEnd.toNat ≤ addr.toNat) : FindsFree (quietEnvAt addr) mm := by
  intro file hint len pgoff flags hflags _ v hv
  simp only [quietEnvAt, hflags]
  exact Or.inr (h v hv)

/-- INTERNAL: the call for one page is a plain one for either of the two threads. -/
theorem pageCall_plain (t : TaskStruct) (ht : t ∈ (twoThreads (heapMm 1000)).tasks) (addr : ULong) :
    PlainCall (twoThreads (heapMm 1000)) bothListed 4100096 quietEnv.taskSize (pageCall t addr) := by
  have hcases : t = processOf 5 (heapMm 1000) ∨ t = threadOf 5 6 (heapMm 1000) := by
    simpa [twoThreads] using ht
  refine ⟨ht, ?_, ?_, rfl, by simp only [pageCall]; decide, by simp only [pageCall]; decide,
    by simp only [pageCall]; decide, ?_⟩
  · rcases hcases with rfl | rfl <;> rfl
  · rcases hcases with rfl | rfl <;> simp only [pageCall] <;> decide
  · intro file hfile
    cases hfile

def leaderCall : MmapCall := pageCall (processOf 5 (heapMm 1000)) 0x7f0000000000

def threadCall : MmapCall := pageCall (threadOf 5 6 (heapMm 1000)) 0x7f8000000000

/-- INTERNAL: the second half of a call for one page is a plain move, when all areas end at or
below its address. -/
theorem act_plain (c : MmapConfig Bool) (k : Bool) (t : TaskStruct) (addr : ULong)
    (hk : c.pending k = some (pageCall t addr))
    (h : ∀ v ∈ c.shared.vmas, v.vmEnd.toNat ≤ addr.toNat) :
    PlainMove (twoThreads (heapMm 1000)) bothListed 4100096 quietEnv.taskSize c (.act k) := by
  intro call hcall
  rw [hk, Option.some.injEq] at hcall
  subst hcall
  exact quietEnvAt_findsFree addr c.shared h

/-- INTERNAL: 1000 pages are in use and both threads are limited to 1001. Both tests are
made before either mapping, both are accepted, and 1002 pages are in use at the end. -/
theorem concurrent_mmap_over_limit :
    let M := (mmapObject (twoThreads (heapMm 1000)) bothListed).schedule
    let moves : List (MmapMove Bool) :=
      [.test false leaderCall, .test true threadCall, .act false, .act true]
    Layout quietEnv.taskSize (heapMm 1000) ∧
      (heapMm 1000).totalVm.toNat * 4096 ≤ (4100096 : ULong).toNat ∧
      M.Along (PlainMove (twoThreads (heapMm 1000)) bothListed 4100096 quietEnv.taskSize)
        (TestThenAct.start (heapMm 1000)) moves ∧
      (4100096 : ULong).toNat <
        (M.final (TestThenAct.start (heapMm 1000)) moves).shared.totalVm.toNat * 4096 := by
  refine ⟨heapMm_layout, by decide, ⟨?_, ?_, ?_, ?_, trivial⟩, by decide⟩
  · exact pageCall_plain _ (by decide) _
  · exact pageCall_plain _ (by decide) _
  · exact act_plain _ _ (processOf 5 (heapMm 1000)) 0x7f0000000000 rfl (by decide)
  · exact act_plain _ _ (threadOf 5 6 (heapMm 1000)) 0x7f8000000000 rfl (by decide)

/-- INTERNAL: two calls one after the other, each within the limit, show that a run of plain
moves exists. -/
theorem sequential_mmap_within_limit :
    let M := (mmapObject (twoThreads (heapMm 1000)) bothListed).schedule
    let moves : List (MmapMove Bool) :=
      [.test false leaderCall, .act false, .test true threadCall, .act true]
    (M.final (TestThenAct.start (heapMm 1000)) moves).shared.totalVm.toNat * 4096 ≤
      (4100096 : ULong).toNat := by
  refine concurrent_mmap_within_limit (twoThreads (heapMm 1000)) bothListed 4100096
    quietEnv.taskSize (heapMm 1000) heapMm_layout (by decide) _ ⟨?_, ?_, ?_, ?_, trivial⟩
    ⟨?_, trivial, ?_, trivial, trivial⟩
  · exact pageCall_plain _ (by decide) _
  · exact act_plain _ _ (processOf 5 (heapMm 1000)) 0x7f0000000000 rfl (by decide)
  · exact pageCall_plain _ (by decide) _
  · intro call hcall
    cases hcall
  · intro _ _ hpending
    exact absurd rfl hpending
  · intro _ _ hpending
    exact absurd rfl hpending

end UsacKernel.Analysis
