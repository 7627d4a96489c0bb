import UsacKernel.Interface.LimitMap

/-!
# The registry is the map

`memory_list` refines the partial map of `UsacKernel.Interface.LimitMap`. The relation
between the two is that the pids of the list are unique and that the first entry for
each pid has the map's limit. Only `add` puts a pid in, and it does so under the lock
and only when its own search has found none; update and remove stop at the first match,
which under uniqueness is the only one.

The simulation is proved for one critical section of each call and lifted to schedules
of any number of tasks by `LockedObject.schedule_simulation`.
-/

set_option autoImplicit false

namespace UsacKernel.Analysis

open UsacKernel.Computation UsacKernel.Model UsacKernel.Interface

structure Represents (l : MemoryList) (m : LimitMap) : Prop where
  unique : UniquePids l
  limits : limitAt l = m

/-- INTERNAL: the empty list represents the empty map. -/
theorem represents_nil : Represents [] LimitMap.empty := ⟨List.nodup_nil, rfl⟩

/-- INTERNAL: the entries of the list are the points of the map. -/
theorem Represents.mem_iff {l : MemoryList} {m : LimitMap} (h : Represents l m)
    (pid : PidT) (limit : ULong) : ⟨pid, limit⟩ ∈ l ↔ m pid = some limit := by
  rw [← h.limits, limitAt, KeyedList.valueAt_eq_some_iff _ _ l h.unique]
  constructor
  · intro hmem
    exact ⟨_, hmem, rfl, rfl⟩
  · rintro ⟨⟨p, q⟩, hmem, rfl, rfl⟩
    exact hmem

/-- INTERNAL: the usage that the code reads is the size of the mapped pages.
SOURCE: crudmemlimit.c:38-49 -/
theorem currentUsage_eq_mappedPages (a : Answers) (pid : PidT) :
    currentUsage a.findTaskByVpid pid = (mappedPages a pid).map (fun pages => pages * 4096) := by
  have hbytes (pages : ULong) : pagesToBytes pages = pages * 4096 := by
    apply BitVec.eq_of_toNat_eq
    rw [pagesToBytes_toNat, BitVec.toNat_mul]
    rfl
  unfold currentUsage mappedPages
  cases a.findTaskByVpid pid with
  | none => rfl
  | some task =>
    rw [Option.bind_some]
    cases hmm : task.mm with
    | none => simp only [hmm, Option.map_none]
    | some mm => simp only [hmm, Option.map_some, hbytes]

/-- INTERNAL: before the lock, code and specification agree: the check for a negative
limit never fires.
SOURCE: crudmemlimit.c:38-47, 79-92, 140-143, 183-191, 218-225 -/
theorem enter_eq (i : LimiterCall × Answers) :
    (limiterObject.enter i).map observe = limitMapObject.enter i := by
  obtain ⟨call, a⟩ := i
  cases call with
  | registry call =>
    cases call <;>
      simp only [limiterObject, registryObject, limitMapObject, addChecks, getChecks,
        updateChecks, removeChecks, invalidArguments_eq, decide_eq_true_eq] <;>
      split_ifs <;> rfl
  | request pid requested =>
    have husage := currentUsage_eq_mappedPages a pid
    cases h : mappedPages a pid <;> simp [limiterObject, limitMapObject, observe, husage, h]

/-- INTERNAL: the critical section of `add`.
SOURCE: crudmemlimit.c:95-116 -/
theorem addLocked_represents (a : Answers) (pid : PidT) (limit : ULong) {l : MemoryList}
    {m : LimitMap} (h : Represents l m) :
    Represents (addLocked a pid limit l).2
        (limitMapObject.critical (.registry (.add pid limit), a) m).2 ∧
      MapReply.code (addLocked a pid limit l).1 =
        (limitMapObject.critical (.registry (.add pid limit), a) m).1 := by
  have hl : limitAt l pid = m pid := congrFun h.limits pid
  simp only [addLocked, limitMapObject, listed_eq, hl]
  cases hm : m pid with
  | some old => exact ⟨h, rfl⟩
  | none =>
    cases hk : a.kmalloc with
    | false => exact ⟨h, rfl⟩
    | true =>
      have hfresh : limitAt l pid = none := hl.trans hm
      refine ⟨⟨?_, ?_⟩, rfl⟩
      · exact KeyedList.UniqueKeys.cons MemoryLimitation.pid MemoryLimitation.memoryLimit
          (e := ⟨pid, limit⟩) h.unique hfresh
      · rw [← h.limits]
        exact KeyedList.valueAt_cons_eq_update MemoryLimitation.pid MemoryLimitation.memoryLimit
          ⟨pid, limit⟩ l

/-- INTERNAL: the critical section of `update`.
SOURCE: crudmemlimit.c:194-205 -/
theorem updateLocked_represents (a : Answers) (pid : PidT) (limit : ULong) {l : MemoryList}
    {m : LimitMap} (h : Represents l m) :
    Represents (updateLocked pid limit l).2
        (limitMapObject.critical (.registry (.update pid limit), a) m).2 ∧
      MapReply.code (updateLocked pid limit l).1 =
        (limitMapObject.critical (.registry (.update pid limit), a) m).1 := by
  have hl : limitAt l pid = m pid := congrFun h.limits pid
  simp only [limitMapObject, updateLocked_eq, hl]
  split_ifs with hm
  · refine ⟨⟨?_, ?_⟩, rfl⟩
    · have hkeys := KeyedList.map_key_modifyFirst MemoryLimitation.pid pid
        (fun entry => { entry with memoryLimit := limit }) (fun _ => rfl) l
      unfold UniquePids KeyedList.UniqueKeys
      rw [hkeys]
      exact h.unique
    · rw [← h.limits]
      refine KeyedList.valueAt_modifyFirst MemoryLimitation.pid MemoryLimitation.memoryLimit pid
        (fun entry => { entry with memoryLimit := limit }) limit (fun _ => rfl) (fun _ => rfl) l ?_
      change limitAt l pid ≠ none
      rw [hl]
      exact Option.isSome_iff_ne_none.mp hm
  · exact ⟨h, rfl⟩

/-- INTERNAL: the critical section of `remove`.
SOURCE: crudmemlimit.c:228-240 -/
theorem removeLocked_represents (a : Answers) (pid : PidT) {l : MemoryList}
    {m : LimitMap} (h : Represents l m) :
    Represents (removeLocked pid l).2
        (limitMapObject.critical (.registry (.remove pid), a) m).2 ∧
      MapReply.code (removeLocked pid l).1 =
        (limitMapObject.critical (.registry (.remove pid), a) m).1 := by
  have hl : limitAt l pid = m pid := congrFun h.limits pid
  simp only [limitMapObject, removeLocked_eq, hl]
  split_ifs with hm
  · refine ⟨⟨KeyedList.UniqueKeys.eraseP _ h.unique _, ?_⟩, rfl⟩
    rw [← h.limits]
    exact KeyedList.valueAt_eraseP _ _ pid l h.unique
  · exact ⟨h, rfl⟩

/-- INTERNAL: every critical section of the code is the one of the specification. -/
theorem critical_represents (i : LimiterCall × Answers) (l : MemoryList) (m : LimitMap)
    (henter : limiterObject.enter i = none) (h : Represents l m) :
    Represents (limiterObject.critical i l).2 (limitMapObject.critical i m).2 ∧
      observe (limiterObject.leave i (limiterObject.critical i l).1) =
        limitMapObject.leave i (limitMapObject.critical i m).1 := by
  obtain ⟨call, a⟩ := i
  cases call with
  | registry call =>
    cases call with
    | add pid limit => exact addLocked_represents a pid limit h
    | update pid limit => exact updateLocked_represents a pid limit h
    | remove pid => exact removeLocked_represents a pid h
    | get maxEntries =>
      refine ⟨h, ?_⟩
      simp only [limiterObject, registryObject, limitMapObject, getCopies, Prod.map_apply]
      by_cases hc : a.copyToUser = 0 <;> by_cases hp : a.putUser <;>
        simp [hc, hp, observe, RegistryReply.ret]
  | request pid requested =>
    have hl : limitAt l pid = m pid := congrFun h.limits pid
    have husage : (currentUsage a.findTaskByVpid pid).getD 0 =
        (mappedPages a pid).getD 0 * 4096 := by
      rw [currentUsage_eq_mappedPages]
      cases mappedPages a pid <;> rfl
    simp only [limiterObject, limitMapObject, acceptLoop_eq, hl, husage]
    cases hm : m pid with
    | none => exact ⟨h, rfl⟩
    | some limit => exact ⟨h, rfl⟩

/-- INTERNAL: a whole call of the code is the whole call of the specification. -/
theorem call_represents (i : LimiterCall × Answers) (l : MemoryList) (m : LimitMap)
    (h : Represents l m) :
    Represents (limiterObject.call i l).1 (limitMapObject.call i m).1 ∧
      observe (limiterObject.call i l).2 = (limitMapObject.call i m).2 := by
  have henter := enter_eq i
  unfold LockedObject.call
  cases hA : limiterObject.enter i with
  | some o =>
    rw [hA] at henter
    rw [← henter]
    exact ⟨h, rfl⟩
  | none =>
    rw [hA] at henter
    rw [← henter]
    exact critical_represents i l m hA h

/-- INTERNAL: the list and the map after the same schedule, and the replies on the
way. -/
theorem schedule_represents {κ : Type} [DecidableEq κ]
    (events : List (Event κ (LimiterCall × Answers))) :
    Represents (limiterObject.schedule.final (LockedObject.start []) events).shared
        (limitMapObject.schedule.final (LockedObject.start LimitMap.empty) events).shared ∧
      (limiterObject.schedule.outputs (LockedObject.start []) events).map
          (Option.map (Prod.map id observe)) =
        limitMapObject.schedule.outputs (LockedObject.start LimitMap.empty) events :=
  LockedObject.schedule_simulation limiterObject limitMapObject observe
    Represents enter_eq critical_represents [] LimitMap.empty represents_nil events

/-- MAIN: **the registry refines a finite map.** In every schedule, by any number of
tasks, of critical sections of the five functions, from the empty list: no pid has two
entries, the entries are exactly the pairs of the map that the specification has after
the same critical sections in the same order, and every reply (every return code, every
decision and the limit it was compared with) is the specification's.
SOURCE: crudmemlimit.c:32-241 -/
theorem memoryList_refines_limitMap {κ : Type} [DecidableEq κ]
    (events : List (Event κ (LimiterCall × Answers))) :
    let list := (limiterObject.schedule.final (LockedObject.start []) events).shared
    let map := (limitMapObject.schedule.final (LockedObject.start LimitMap.empty) events).shared
    (list.map MemoryLimitation.pid).Nodup ∧
      (∀ pid limit, ⟨pid, limit⟩ ∈ list ↔ map pid = some limit) ∧
      (limiterObject.schedule.outputs (LockedObject.start []) events).map
          (Option.map (Prod.map id observe)) =
        limitMapObject.schedule.outputs (LockedObject.start LimitMap.empty) events := by
  obtain ⟨hrep, hout⟩ := schedule_represents events
  exact ⟨hrep.unique, hrep.mem_iff, hout⟩

/-! ## The pids of the list -/

/-- INTERNAL: past the checks of `add` the pid is not negative.
SOURCE: crudmemlimit.c:79-92 -/
theorem addChecks_nonneg {a : Answers} {pid : PidT} {limit : ULong}
    (hchecks : addChecks a pid limit = none) : 0 ≤ pid.toInt := by
  unfold addChecks at hchecks
  rw [invalidArguments_eq] at hchecks
  split_ifs at hchecks with hneg
  simp only [decide_eq_true_eq] at hneg
  omega

/-- INTERNAL: what a critical section does to the list: `add` puts an entry with a new pid
in front, and otherwise some of the pids are left, in their order. -/
theorem critical_pids (i : LimiterCall × Answers) (l : MemoryList) :
    (∃ pid limit, i.1 = .registry (.add pid limit) ∧
        (limiterObject.critical i l).2 = ⟨pid, limit⟩ :: l ∧ limitAt l pid = none) ∨
      ((limiterObject.critical i l).2.map MemoryLimitation.pid).Sublist
        (l.map MemoryLimitation.pid) := by
  obtain ⟨call, a⟩ := i
  cases call with
  | request pid requested => exact Or.inr (List.Sublist.refl _)
  | registry call =>
    cases call with
    | get maxEntries => exact Or.inr (List.Sublist.refl _)
    | add pid limit =>
      simp only [limiterObject, registryObject, Prod.map, id_eq, addLocked, listed_eq]
      cases hl : limitAt l pid with
      | some old => exact Or.inr (List.Sublist.refl _)
      | none =>
        cases a.kmalloc with
        | false => exact Or.inr (List.Sublist.refl _)
        | true => exact Or.inl ⟨pid, limit, rfl, rfl, hl⟩
    | update pid limit =>
      refine Or.inr ?_
      simp only [limiterObject, registryObject, Prod.map, id_eq, updateLocked_eq]
      split
      · have hkeys := KeyedList.map_key_modifyFirst MemoryLimitation.pid pid
          (fun entry => { entry with memoryLimit := limit }) (fun _ => rfl) l
        rw [hkeys]
      · exact List.Sublist.refl _
    | remove pid =>
      refine Or.inr ?_
      simp only [limiterObject, registryObject, Prod.map, id_eq, removeLocked_eq]
      split
      · exact List.eraseP_sublist.map _
      · exact List.Sublist.refl _

/-! ## Reachable lists -/

/-- The lists that schedules of the five functions lead to from the empty list. Tasks
are numbered. -/
def ReachableList (l : MemoryList) : Prop :=
  ∃ events : List (Event ℕ (LimiterCall × Answers)),
    l = (limiterObject.schedule.final (LockedObject.start []) events).shared

/-- INTERNAL: in a reachable list the loops find every entry. -/
theorem ReachableList.limitAt_eq_some {l : MemoryList} (h : ReachableList l) (pid : PidT)
    (limit : ULong) : limitAt l pid = some limit ↔ ⟨pid, limit⟩ ∈ l := by
  obtain ⟨events, rfl⟩ := h
  have hrep := (schedule_represents events).1
  rw [hrep.mem_iff, ← hrep.limits]

end UsacKernel.Analysis
