import UsacKernel.Analysis.RegistryErasure
import UsacKernel.Analysis.RegistryRefinement

/-!
# Negative arguments of the registry calls

`add` and `update` are meant to refuse negative arguments. A pid is a signed number and a
negative one is refused. A limit is a `size_t`: what user space passes as a negative number
arrives as one of the upper half of the range, the comparison with zero is one of unsigned
numbers, and the call stores the limit. So a run of calls keeps negative numbers out of
`memory_list` exactly as long as no call with a negative limit has a pid, a caller and a list
that let it through (`StoresNegative`), and every schedule does whose limits are below `2^63`.
-/

set_option autoImplicit false

namespace UsacKernel.Analysis

open UsacKernel.Computation UsacKernel.Model

/-- No entry has a number that is negative when it is read as the signed number of its width. -/
def NonNegative (l : MemoryList) : Prop :=
  ∀ entry ∈ l, 0 ≤ entry.pid.toInt ∧ 0 ≤ entry.memoryLimit.toInt

instance (l : MemoryList) : Decidable (NonNegative l) :=
  inferInstanceAs (Decidable (∀ entry ∈ l, _ ∧ _))

/-- INTERNAL: a list is free of negative values when its first entry and the rest are. -/
theorem nonNegative_cons (entry : MemoryLimitation) (l : MemoryList) :
    NonNegative (entry :: l) ↔
      (0 ≤ entry.pid.toInt ∧ 0 ≤ entry.memoryLimit.toInt) ∧ NonNegative l := by
  simp only [NonNegative, List.forall_mem_cons]

/-- The limit that a call brings. -/
def RegistryCall.limit : RegistryCall → Option ULong
  | .add _ limit | .update _ limit => some limit
  | .get _ | .remove _ => none

/-- The call brings a negative limit, and nothing else stands against storing it: the pid is not
negative, the caller has the capability, and `add` finds the task, no entry and memory for a new
one, `update` an entry. Arguments, answers and the list before the call decide it. -/
def StoresNegative (l : MemoryList) : RegistryCall × Answers → Prop
  | (.add pid limit, a) => limit.toInt < 0 ∧ 0 ≤ pid.toInt ∧ a.capable = true ∧
      (a.findTaskByVpid pid).isSome = true ∧ limitAt l pid = none ∧ a.kmalloc = true
  | (.update pid limit, a) => limit.toInt < 0 ∧ 0 ≤ pid.toInt ∧ a.capable = true ∧
      (limitAt l pid).isSome = true
  | (.get _, _) | (.remove _, _) => False

/-! ## One call -/

/-- INTERNAL: the checks of `add` before the lock; the limit is not among what they look at.
SOURCE: crudmemlimit.c:79-92 -/
theorem addChecks_eq_none_iff (a : Answers) (pid : PidT) (limit : ULong) :
    addChecks a pid limit = none ↔
      0 ≤ pid.toInt ∧ a.capable = true ∧ (a.findTaskByVpid pid).isSome = true := by
  unfold addChecks
  rw [invalidArguments_eq]
  by_cases hpid : pid.toInt < 0
  · simp [hpid]
  · cases a.capable <;> cases a.findTaskByVpid pid <;> simp [hpid, not_lt.mp hpid]

/-- INTERNAL: the checks of `update` before the lock.
SOURCE: crudmemlimit.c:183-191 -/
theorem updateChecks_eq_none_iff (a : Answers) (pid : PidT) (limit : ULong) :
    updateChecks a pid limit = none ↔ 0 ≤ pid.toInt ∧ a.capable = true := by
  unfold updateChecks
  rw [invalidArguments_eq]
  by_cases hpid : pid.toInt < 0
  · simp [hpid]
  · cases a.capable <;> simp [hpid, not_lt.mp hpid]

/-- INTERNAL: the critical section of `add`.
SOURCE: crudmemlimit.c:95-116 -/
theorem addLocked_nonNegative_iff (a : Answers) {pid : PidT} (limit : ULong) {l : MemoryList}
    (hpid : 0 ≤ pid.toInt) (hl : NonNegative l) :
    NonNegative (addLocked a pid limit l).2 ↔
      ¬ (limit.toInt < 0 ∧ limitAt l pid = none ∧ a.kmalloc = true) := by
  unfold addLocked
  rw [listed_eq]
  cases limitAt l pid with
  | some limit' => simp [hl]
  | none =>
    cases a.kmalloc with
    | false => simp [hl]
    | true => simp [nonNegative_cons, hpid, hl]

/-- INTERNAL: the critical section of `update`, by the loop over the list.
SOURCE: crudmemlimit.c:194-205 -/
theorem updateLocked_nonNegative_iff (pid : PidT) (limit : ULong) {l : MemoryList}
    (hl : NonNegative l) :
    NonNegative (updateLocked pid limit l).2 ↔
      ¬ (limit.toInt < 0 ∧ (limitAt l pid).isSome = true) := by
  induction l with
  | nil => simp [updateLocked, hl]
  | cons entry rest ih =>
    obtain ⟨hentry, hrest⟩ := (nonNegative_cons entry rest).mp hl
    rw [updateLocked, limitAt_cons]
    split_ifs
    · simp [nonNegative_cons, hentry.1, hrest]
    · rw [nonNegative_cons, ← ih hrest]
      exact and_iff_right hentry

/-- INTERNAL: `remove` takes entries out only.
SOURCE: crudmemlimit.c:228-240 -/
theorem removeLocked_nonNegative (pid : PidT) {l : MemoryList} (hl : NonNegative l) :
    NonNegative (removeLocked pid l).2 := by
  rw [removeLocked_eq]
  split_ifs
  · exact fun entry hentry => hl entry (List.mem_of_mem_eraseP hentry)
  · exact hl

/-- INTERNAL: what a critical section does to a list without negative numbers, for a call that
has come past its checks. -/
theorem critical_nonNegative_iff (i : RegistryCall × Answers) {l : MemoryList}
    (henter : registryObject.enter i = none) (hl : NonNegative l) :
    NonNegative (registryObject.critical i l).2 ↔ ¬ StoresNegative l i := by
  obtain ⟨call, a⟩ := i
  cases call with
  | add pid limit =>
    simp only [registryObject, Option.map_eq_none_iff] at henter
    obtain ⟨hpid, hcapable, hfound⟩ := (addChecks_eq_none_iff a pid limit).mp henter
    refine (addLocked_nonNegative_iff a limit hpid hl).trans (not_congr ?_)
    simp [StoresNegative, hpid, hcapable, hfound]
  | update pid limit =>
    simp only [registryObject, Option.map_eq_none_iff] at henter
    obtain ⟨hpid, hcapable⟩ := (updateChecks_eq_none_iff a pid limit).mp henter
    refine (updateLocked_nonNegative_iff pid limit hl).trans (not_congr ?_)
    simp [StoresNegative, hpid, hcapable]
  | remove pid => exact iff_of_true (removeLocked_nonNegative pid hl) id
  | get maxEntries => exact iff_of_true hl id

/-- INTERNAL: a call that returns before the lock would not have stored its limit. -/
theorem not_storesNegative_of_enter {i : RegistryCall × Answers} {reply : RegistryReply}
    (henter : registryObject.enter i = some reply) (l : MemoryList) : ¬ StoresNegative l i := by
  obtain ⟨call, a⟩ := i
  cases call with
  | add pid limit =>
    rintro ⟨-, hpid, hcapable, hfound, -, -⟩
    have hnone := (addChecks_eq_none_iff a pid limit).mpr ⟨hpid, hcapable, hfound⟩
    simp [registryObject, hnone] at henter
  | update pid limit =>
    rintro ⟨-, hpid, hcapable, -⟩
    have hnone := (updateChecks_eq_none_iff a pid limit).mpr ⟨hpid, hcapable⟩
    simp [registryObject, hnone] at henter
  | remove pid => exact id
  | get maxEntries => exact id

/-- INTERNAL: what a whole call does to a list without negative numbers. -/
theorem call_nonNegative_iff (i : RegistryCall × Answers) {l : MemoryList} (hl : NonNegative l) :
    NonNegative (registryObject.calls.step l i).1 ↔ ¬ StoresNegative l i := by
  change NonNegative (registryObject.call i l).1 ↔ _
  rcases registryObject.call_cases i l with ⟨reply, henter, hcall⟩ | ⟨henter, hcall⟩
  · rw [hcall]
    exact iff_of_true hl (not_storesNegative_of_enter henter l)
  · rw [hcall]
    exact critical_nonNegative_iff i henter hl

/-! ## Runs -/

section Schedules

variable {κ : Type} [DecidableEq κ]

/-- The call brings no limit that is negative as a signed number. -/
def BringsNonNegative (i : RegistryCall × Answers) : Prop :=
  ∀ limit, RegistryCall.limit i.1 = some limit → limit.toNat < 2 ^ 63

/-- INTERNAL: a call with such a limit stores no negative one. -/
theorem BringsNonNegative.not_storesNegative {i : RegistryCall × Answers}
    (h : BringsNonNegative i) (l : MemoryList) : ¬ StoresNegative l i := by
  have hnonneg : ∀ limit : ULong, limit.toNat < 2 ^ 63 → ¬ limit.toInt < 0 := by
    intro limit hlt
    rw [BitVec.toInt_eq_toNat_of_lt (by omega)]
    omega
  obtain ⟨call, a⟩ := i
  cases call with
  | add pid limit => exact fun hstores => hnonneg limit (h limit rfl) hstores.1
  | update pid limit => exact fun hstores => hnonneg limit (h limit rfl) hstores.1
  | remove pid => exact id
  | get maxEntries => exact id

/-- INTERNAL: pids come into the list by `add` alone, which has checked them. -/
theorem critical_pids_nonneg (call : RegistryCall) (a : Answers) (l : MemoryList)
    (henter : registryObject.enter (call, a) = none)
    (hl : ∀ pid ∈ l.map MemoryLimitation.pid, 0 ≤ pid.toInt) :
    ∀ pid ∈ (registryObject.critical (call, a) l).2.map MemoryLimitation.pid, 0 ≤ pid.toInt := by
  have hsame : (registryObject.critical (call, a) l).2 =
      (limiterObject.critical (.registry call, a) l).2 := rfl
  rw [hsame]
  rcases critical_pids (.registry call, a) l with ⟨pid, limit, hcall, hcons, -⟩ | hpids
  · cases hcall
    simp only [registryObject, Option.map_eq_none_iff] at henter
    rw [hcons, List.map_cons, List.forall_mem_cons]
    exact ⟨addChecks_nonneg henter, hl⟩
  · exact fun pid hpid => hl pid (hpids.subset hpid)

/-- INTERNAL: the argument check, for `add` and `update`. Neither looks at the limit.
SOURCE: crudmemlimit.c:79-92, 183-205 -/
theorem add_update_einval_iff (a : Answers) (pid : PidT) (limit : ULong) (l : MemoryList) :
    (juliozAddMemoryLimit a pid limit l = (EINVAL.neg, l) ↔ pid.toInt < 0) ∧
      (juliozUpdateMemoryLimit a pid limit l = (EINVAL.neg, l) ↔ pid.toInt < 0) := by
  by_cases hpid : pid.toInt < 0
  · have hinvalid : invalidArguments pid limit = true := by
      rw [invalidArguments_eq]
      exact decide_eq_true hpid
    simp [juliozAddMemoryLimit, addChecks, juliozUpdateMemoryLimit, updateChecks, hinvalid, hpid]
  · have hvalid : invalidArguments pid limit = false := by
      rw [invalidArguments_eq]
      exact decide_eq_false hpid
    -- every other way out has a code of its own
    have hcodes : EPERM.neg ≠ EINVAL.neg ∧ ESRCH.neg ≠ EINVAL.neg ∧ ENOMEM.neg ≠ EINVAL.neg ∧
        (-101 : ℤ) ≠ EINVAL.neg ∧ (0 : ℤ) ≠ EINVAL.neg := by decide
    obtain ⟨hperm, hsrch, hnomem, hlisted, hok⟩ := hcodes
    have hadd : (juliozAddMemoryLimit a pid limit l).1 ≠ EINVAL.neg := by
      simp only [juliozAddMemoryLimit, addChecks, hvalid, addLocked]
      split_ifs <;> simp_all
    have hupdate : (juliozUpdateMemoryLimit a pid limit l).1 ≠ EINVAL.neg := by
      simp only [juliozUpdateMemoryLimit, updateChecks, hvalid, updateLocked_eq]
      split_ifs <;> simp_all
    refine ⟨iff_of_false ?_ hpid, iff_of_false ?_ hpid⟩
    · intro h
      exact hadd (congrArg Prod.fst h)
    · intro h
      exact hupdate (congrArg Prod.fst h)

/-- MAIN: **when negative numbers stay out of the registry.** In every run of `add`, `get`,
`update` and `remove` calls from the empty list, every state has only non-negative numbers
exactly when no call is made that brings a negative limit with a non-negative pid, by a caller
with the capability, to a list and with answers that let it be stored. In every schedule of such
calls by any number of tasks, all of whose limits are below `2^63`, every state has only
non-negative numbers; pids are never negative. The argument check of the two calls, with
whatever limit, fires for negative pids only.
SOURCE: crudmemlimit.c:72-117, 178-206 -/
theorem memoryList_nonNegative_iff (run : List (RegistryCall × Answers))
    (events : List (Event κ (RegistryCall × Answers))) :
    (registryObject.calls.Along (fun l i => NonNegative (registryObject.calls.step l i).1) [] run ↔
        registryObject.calls.Along (fun l i => ¬ StoresNegative l i) [] run) ∧
      ((∀ t i, Event.call t i ∈ events → BringsNonNegative i) →
        NonNegative (registryObject.schedule.final (LockedObject.start []) events).shared) ∧
      (∀ pid ∈ (registryObject.schedule.final (LockedObject.start []) events).shared.map
        MemoryLimitation.pid, 0 ≤ pid.toInt) ∧
      ∀ a pid limit l,
        (juliozAddMemoryLimit a pid limit l = (EINVAL.neg, l) ↔ pid.toInt < 0) ∧
          (juliozUpdateMemoryLimit a pid limit l = (EINVAL.neg, l) ↔ pid.toInt < 0) := by
  have hempty : NonNegative [] := by simp [NonNegative]
  refine ⟨?_, ?_, ?_, add_update_einval_iff⟩
  · -- as long as the list is free of negative numbers, the two conditions on a call agree
    apply registryObject.calls.along_iff NonNegative
    · exact fun l i _ hnext => hnext
    · exact fun l i hl => call_nonNegative_iff i hl
    · exact hempty
  · intro hcalls
    apply LockedObject.schedule_inv registryObject NonNegative BringsNonNegative
      (fun i l hbrings henter hl =>
        (critical_nonNegative_iff i henter hl).mpr (hbrings.not_storesNegative l)) events hcalls
    · exact hempty
    · exact LockedObject.Entered.start _ _ []
  · apply LockedObject.schedule_inv registryObject
      (fun l => ∀ pid ∈ l.map MemoryLimitation.pid, 0 ≤ pid.toInt) (fun _ => True)
      (fun i l _ henter hl => critical_pids_nonneg i.1 i.2 l henter hl) events
      (fun _ _ _ => trivial)
    · simp [LockedObject.start]
    · exact LockedObject.Entered.start _ _ []

end Schedules

/-- INTERNAL: a caller with the capability adds the limit -1 and updates an entry to -4096. -/
theorem negative_limit_stored :
    let a := plainAnswers true
    juliozAddMemoryLimit a 5 (-1) [] = (0, [⟨5, -1⟩]) ∧
      juliozUpdateMemoryLimit a 5 (-4096) [⟨5, 100⟩] = (0, [⟨5, -4096⟩]) ∧
      (-1 : ULong).toInt = -1 ∧ (-4096 : ULong).toInt = -4096 ∧
      ¬ NonNegative (registryObject.calls.final [] [(.add 5 (-1), a)]) := by
  decide

end UsacKernel.Analysis
