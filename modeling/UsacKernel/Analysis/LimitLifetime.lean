import UsacKernel.Analysis.LimitEnforcement
import UsacKernel.Analysis.RegistryErasure
import UsacKernel.Model.ProcessLife

/-!
# How long a limit lasts

An entry of the registry belongs to a number, not to a process instance. It is made by an
`add` for the number while some instance has it, and lasts until a `remove` for the
number, whoever has the number in between. A process can so be refused memory because of
a limit that was set for an earlier holder of its number.
-/

set_option autoImplicit false

namespace UsacKernel.Analysis

open UsacKernel.Computation UsacKernel.Model UsacKernel.Interface

def SetsLimit (pid : PidT) (call : RegistryCall) : Prop :=
  ∃ limit, call = .add pid limit ∨ call = .update pid limit

/-- The event is a system call that returns `0`. -/
def Succeeds (s : LifeState) (e : LifeEvent) : Prop :=
  (processLife.step s e).2.map observe = some (.code 0)

/-- The event is not a successful `remove` for the number. -/
def NotRemoved (pid : PidT) (s : LifeState) (e : LifeEvent) : Prop :=
  ∀ a, e = .registry (.remove pid) a → ¬ Succeeds s e

/-- In the run, a system call of the kind `sets` was made successfully, while the holder of
the number was as `holds` says, and no successful `remove` came after it. -/
def LimitSet (sets : RegistryCall → Prop) (holds : Option ℕ → Prop) (pid : PidT)
    (events : List LifeEvent) : Prop :=
  ∃ before call a after, events = before ++ .registry call a :: after ∧ sets call ∧
    holds ((processLife.final .initial before).holder pid) ∧
    Succeeds (processLife.final .initial before) (.registry call a) ∧
    processLife.Along (NotRemoved pid)
      (processLife.step (processLife.final .initial before) (.registry call a)).1 after

/-! ## The entries along a run -/

/-- INTERNAL: no event of a process life makes a pid appear twice in the list. -/
theorem processLife_step_unique (s : LifeState) (e : LifeEvent) (h : UniquePids s.list) :
    UniquePids (processLife.step s e).1.list := by
  have hcall (i : LimiterCall × Answers) : UniquePids (limiterObject.call i s.list).1 :=
    (call_represents i s.list (limitAt s.list) ⟨h, rfl⟩).1.unique
  cases e with
  | create pid =>
    simp only [processLife]
    split <;> exact h
  | exit pid => exact h
  | registry call a => exact hcall _
  | request pid mm requested => exact hcall _

/-- INTERNAL: a registry call in a process life does to the limits what it does to the abstract
map. -/
theorem registry_call_eq (s : LifeState) (h : UniquePids s.list) (call : RegistryCall)
    (a : Answers) :
    limitAt (processLife.step s (.registry call a)).1.list =
        (limitMapObject.call (.registry call, s.answers a) (limitAt s.list)).1 ∧
      (processLife.step s (.registry call a)).2.map observe =
        some (limitMapObject.call (.registry call, s.answers a) (limitAt s.list)).2 := by
  obtain ⟨hrep, hout⟩ := call_represents (.registry call, s.answers a) s.list (limitAt s.list)
    ⟨h, rfl⟩
  exact ⟨hrep.limits, congrArg some hout⟩

/-- INTERNAL: in the map, an entry appears only by a successful `add` for a number that
some task has.
SOURCE: crudmemlimit.c:72-117 -/
theorem limitMap_entry_appears (call : RegistryCall) (a : Answers) (m : LimitMap) (pid : PidT)
    (hnone : m pid = none)
    (hsome : (limitMapObject.call (.registry call, a) m).1 pid ≠ none) :
    (∃ limit, call = .add pid limit) ∧ (a.findTaskByVpid pid).isSome = true ∧
      (limitMapObject.call (.registry call, a) m).2 = .code 0 := by
  -- only a call that puts something at a number that was free can make the entry
  have hother {q : PidT} {x : Option ULong} (hq : (m q).isSome = true) :
      Function.update m q x pid = none := by
    have hpq : pid ≠ q := by
      rintro rfl
      simp [hnone] at hq
    rw [Function.update_of_ne hpq, hnone]
  rcases limitMapObject.call_cases (.registry call, a) m with ⟨o, _, hcall⟩ | ⟨henter, hcall⟩
  · exact absurd (hcall ▸ hnone) hsome
  rw [hcall] at hsome ⊢
  cases call with
  | add q limit =>
    have htask : (a.findTaskByVpid q).isSome = true := by
      simp only [limitMapObject] at henter
      split_ifs at henter with _ _ htask
      simpa [Option.isSome_iff_ne_none] using htask
    simp only [limitMapObject] at hsome ⊢
    cases hq : (m q).isSome with
    | true => exact absurd hnone (by simpa [hq] using hsome)
    | false =>
      cases hk : a.kmalloc with
      | false => exact absurd hnone (by simpa [hq, hk] using hsome)
      | true =>
        by_cases hpq : pid = q
        · subst hpq
          exact ⟨⟨limit, rfl⟩, htask, rfl⟩
        · exact absurd hnone (by simpa [hq, hk, Function.update_of_ne hpq] using hsome)
  | get maxEntries => exact absurd hnone hsome
  | update q limit =>
    simp only [limitMapObject] at hsome
    split_ifs at hsome with hq
    · exact absurd (hother hq) hsome
    · exact absurd hnone hsome
  | remove q =>
    simp only [limitMapObject] at hsome
    split_ifs at hsome with hq
    · exact absurd (hother hq) hsome
    · exact absurd hnone hsome

/-- INTERNAL: in the map, a successful `remove` takes the entry out.
SOURCE: crudmemlimit.c:213-241 -/
theorem limitMap_remove (pid : PidT) (a : Answers) (m : LimitMap)
    (h : (limitMapObject.call (.registry (.remove pid), a) m).2 = .code 0) :
    (limitMapObject.call (.registry (.remove pid), a) m).1 pid = none := by
  rcases limitMapObject.call_cases (.registry (.remove pid), a) m with
    ⟨o, henter, hcall⟩ | ⟨_, hcall⟩
  · rw [hcall] at h
    subst h
    simp only [limitMapObject] at henter
    split_ifs at henter <;> cases henter
  · rw [hcall] at h ⊢
    simp only [limitMapObject] at h ⊢
    split_ifs at h ⊢ with hm
    · exact Function.update_self ..
    · cases h

/-- INTERNAL: the same in the code: an entry appears by a successful `add` while some
instance has the number. -/
theorem entry_appears (s : LifeState) (huniq : UniquePids s.list) (e : LifeEvent) (pid : PidT)
    (hnone : limitAt s.list pid = none)
    (hsome : limitAt (processLife.step s e).1.list pid ≠ none) :
    ∃ limit a, e = .registry (.add pid limit) a ∧ (s.holder pid).isSome = true ∧
      Succeeds s e := by
  cases e with
  | create q =>
    simp only [processLife] at hsome
    split at hsome <;> exact absurd hnone hsome
  | exit q => exact absurd hnone hsome
  | request q mm requested =>
    -- a request reads the list, also when it gets as far as the lock
    have hkept : (processLife.step s (.request q mm requested)).1.list = s.list := by
      simp only [processLife]
      rcases limiterObject.call_cases (.request q requested, s.requestAnswers mm) s.list with
        ⟨o, _, hcall⟩ | ⟨_, hcall⟩
      · rw [hcall]
      · rw [hcall]
        rfl
    rw [hkept] at hsome
    exact absurd hnone hsome
  | registry call a =>
    obtain ⟨hlimits, hreply⟩ := registry_call_eq s huniq call a
    rw [hlimits] at hsome
    obtain ⟨⟨limit, rfl⟩, htask, hcode⟩ :=
      limitMap_entry_appears call (s.answers a) (limitAt s.list) pid hnone hsome
    refine ⟨limit, a, rfl, ?_, ?_⟩
    · simpa [LifeState.answers, LifeState.find] using htask
    · rw [Succeeds, hreply, hcode]

/-- INTERNAL: an event after which a pid has an entry has not removed it. -/
theorem notRemoved_of_entry (s : LifeState) (e : LifeEvent) (pid : PidT)
    (huniq : UniquePids s.list) (hentry : limitAt (processLife.step s e).1.list pid ≠ none) :
    NotRemoved pid s e := by
  rintro a rfl hsucceeds
  obtain ⟨hlimits, hreply⟩ := registry_call_eq s huniq (.remove pid) a
  rw [Succeeds, hreply, Option.some.injEq] at hsucceeds
  rw [hlimits] at hentry
  exact hentry (limitMap_remove pid (s.answers a) (limitAt s.list) hsucceeds)

/-- INTERNAL: a request is refused because of an entry only if the list has it.
SOURCE: crudmemlimit.c:49-66 -/
theorem limitAt_of_refusal (s : LifeState) (pid : PidT) (mm : MmStruct) (requested limit : ULong)
    (h : (processLife.step s (.request pid mm requested)).2 =
      some (.decision false (some limit))) : limitAt s.list pid = some limit := by
  simp only [processLife, Option.some.injEq] at h
  rcases limiterObject.call_cases (.request pid requested, s.requestAnswers mm) s.list with
    ⟨o, henter, hcall⟩ | ⟨_, hcall⟩
  · rw [hcall] at h
    subst h
    simp only [limiterObject] at henter
    split at henter <;> simp at henter
  · rw [hcall] at h
    simp only [limiterObject, acceptLoop_eq, LimiterReply.decision.injEq] at h
    exact h.2

/-- MAIN: **a limit lasts until it is removed.** In every run of process creations, exits
and registry calls: when a request is refused because of an entry, some `add` for the
number had succeeded, while some process instance had the number, and no `remove` for it
has succeeded since. The instance need not be the one that is refused now.
SOURCE: crudmemlimit.c:32-117, 213-241 -/
theorem refusal_traces_to_add (events : List LifeEvent) (pid : PidT) (mm : MmStruct)
    (requested limit : ULong)
    (h : (processLife.step (processLife.final .initial events) (.request pid mm requested)).2 =
      some (.decision false (some limit))) :
    LimitSet (fun call => ∃ limit₀, call = .add pid limit₀) (fun holder => holder.isSome = true)
      pid events := by
  have hentry := limitAt_of_refusal _ pid mm requested limit h
  have huniq (es : List LifeEvent) : UniquePids (processLife.final .initial es).list :=
    processLife.final_inv (fun s => UniquePids s.list) processLife_step_unique .initial
      List.nodup_nil es
  obtain ⟨before, e, after, rfl, hno, hyes, hafter⟩ :=
    processLife.exists_cause (fun s => limitAt s.list pid ≠ none) .initial
      (by simp [LifeState.initial]) events (by rw [hentry]; exact Option.some_ne_none limit)
  obtain ⟨limit₀, a, rfl, hholder, hsucceeds⟩ :=
    entry_appears _ (huniq before) e pid (not_not.mp hno) hyes
  refine ⟨before, _, a, after, rfl, ⟨limit₀, rfl⟩, hholder, hsucceeds, ?_⟩
  exact hafter.imp_inv (fun s => UniquePids s.list) processLife_step_unique
    (fun s e hs hQ => notRemoved_of_entry s e pid hs hQ) (processLife_step_unique _ _ (huniq before))

/-- A process is created with the number 5 and limited to one page; it exits, and the
number goes to a second process. -/
def recycledRun : List LifeEvent :=
  [.create 5, .registry (.add 5 4096) (plainAnswers true), .exit 5, .create 5]

/-- INTERNAL: the second process, which has one page, is refused another one because of
the entry, and no limit was set while it was alive. -/
theorem recycled_pid_refused :
    let s := processLife.final .initial recycledRun
    s.holder 5 = some 1 ∧
      (processLife.step s (.request 5 (heapMm 1) 4096)).2 = some (.decision false (some 4096)) ∧
      ¬ LimitSet (SetsLimit 5) (fun holder => holder = some 1) 5 recycledRun := by
  refine ⟨rfl, by decide, ?_⟩
  rintro ⟨before, call, a, after, heq, _, hholder, _, _⟩
  -- the only system call of the run comes when the first process has the number
  rcases before with _ | ⟨e₁, _ | ⟨e₂, _ | ⟨e₃, _ | ⟨e₄, rest⟩⟩⟩⟩ <;>
    simp only [recycledRun, List.nil_append, List.cons_append, List.cons.injEq, reduceCtorEq,
      false_and, and_false] at heq
  · obtain ⟨rfl, _⟩ := heq
    exact absurd hholder (by decide)
  · simp at heq

/-- INTERNAL: the run in which a pid is used again meets the assumptions. -/
theorem recycled_pid_traces_to_add :
    LimitSet (fun call => ∃ limit₀, call = .add 5 limit₀) (fun holder => holder.isSome = true) 5
      recycledRun :=
  refusal_traces_to_add recycledRun 5 (heapMm 1) 4096 4096 (by decide)

end UsacKernel.Analysis
