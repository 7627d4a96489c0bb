import UsacKernel.Analysis.LimitEnforcement
import UsacKernel.Interface.InsertionTimes
import UsacKernel.Model.LimitRecords

/-!
# What `julioz_get_memory_limits` delivers

The call copies the front of `memory_list` to the user. The front of the list is what was
added last: `Ordered` relates the list to the map with insertion times and is kept by
every critical section. The loop counts in an `int` and compares it with a `size_t`; it
stays exact because the pids of the entries are different positive numbers, so the list is
shorter than an `int` counts.
-/

set_option autoImplicit false

namespace UsacKernel.Analysis

open UsacKernel.Computation UsacKernel.Model UsacKernel.Interface

/-! ## Records in memory -/

/-- INTERNAL: a record has the pid at 0, padding from 4, the limit at 8, and 16 bytes. -/
theorem memoryLimitation_offsets :
    memoryLimitation.offset 0 = 0 ∧ memoryLimitation.offset 1 = 8 ∧ memoryLimitation.sizeof = 16 := by
  decide

/-- INTERNAL: a struct whose members have been assigned holds their values.
SOURCE: crudmemlimit.c:16-19, 153-154 -/
theorem MemoryLimitation.read_assignAll (entry : MemoryLimitation) (m : Bytes) (a : ℤ) :
    MemoryLimitation.read (assignAll a entry.assignments m) a = entry := by
  obtain ⟨h0, h1, -⟩ := memoryLimitation_offsets
  have hload := load_assignAll a entry.assignments m
    (by simp [MemoryLimitation.assignments, Assignment.Apart, h0, h1])
    (by simp [MemoryLimitation.assignments])
  simp only [MemoryLimitation.assignments, List.forall_mem_cons] at hload
  obtain ⟨hpid, hlimit, -⟩ := hload
  simp only [MemoryLimitation.read, MemoryLimitation.assignments, hpid, hlimit]

/-- INTERNAL: a struct is what its 16 bytes are. -/
theorem MemoryLimitation.read_congr {m m' : Bytes} {a a' : ℤ}
    (h : ∀ i : ℕ, i < memoryLimitation.sizeof → m (a + i) = m' (a' + i)) :
    MemoryLimitation.read m a = MemoryLimitation.read m' a' := by
  obtain ⟨h0, h1, hsize⟩ := memoryLimitation_offsets
  have hword (k w : ℕ) (hw : w % 8 = 0) (hk : k + w / 8 ≤ 16) :
      m.load (a + k) w = m'.load (a' + k) w := by
    apply Bytes.load_congr hw
    intro j hj
    rw [add_assoc, add_assoc]
    exact_mod_cast h (k + j) (by omega)
  unfold MemoryLimitation.read
  rw [hword _ 32 (by decide) (by omega), hword _ 64 (by decide) (by omega)]

/-- INTERNAL: assignments to a struct reach no byte outside it. -/
theorem MemoryLimitation.assignAll_outside (entry : MemoryLimitation) (m : Bytes) (base i : ℤ)
    (hi : i < base ∨ base + memoryLimitation.sizeof ≤ i) :
    assignAll base entry.assignments m i = m i := by
  obtain ⟨h0, h1, hsize⟩ := memoryLimitation_offsets
  apply (assignAll_eq base entry.assignments m m i).1
  simp only [MemoryLimitation.assignments, List.forall_mem_cons, Assignment.Covers, h0, h1]
  rw [hsize] at hi
  exact ⟨by omega, by omega, by simp⟩

/-! ## The loop -/

/-- INTERNAL: the counter as a signed number and as a `size_t`; at 2^31 it has turned
negative, which is more than any buffer holds. -/
theorem count_ge_iff (maxEntries : ULong) (hmax : maxEntries.toNat * 16 < 2 ^ 64) (c : ℕ)
    (hc : c ≤ 2 ^ 31) :
    (BitVec.ofNat 32 c).signExtend 64 ≥ maxEntries ↔ min maxEntries.toNat (2 ^ 31) ≤ c := by
  rw [ge_iff_le, BitVec.le_def]
  rcases Nat.lt_or_eq_of_le hc with hlt | rfl
  · have hmsb : (BitVec.ofNat 32 c).msb = false := by
      rw [BitVec.msb_eq_false_iff_two_mul_lt, BitVec.toNat_ofNat]
      omega
    rw [BitVec.signExtend_eq_setWidth_of_msb_false hmsb, BitVec.toNat_setWidth, BitVec.toNat_ofNat]
    omega
  · have hturned : ((BitVec.ofNat 32 (2 ^ 31)).signExtend 64).toNat = 2 ^ 64 - 2 ^ 31 := by decide
    rw [hturned]
    omega

/-- INTERNAL: a count below `2^31` is copied out as it is. -/
theorem count_toInt (c : ℕ) (hc : c < 2 ^ 31) : (BitVec.ofNat 32 c).toInt = c := by
  rw [BitVec.toInt_eq_toNat_of_lt (by rw [BitVec.toNat_ofNat]; omega), BitVec.toNat_ofNat,
    Nat.mod_eq_of_lt (by omega)]

/-- INTERNAL: the loop from index `c` on. It stops at the end of the list, at `max_entries`
and in any case when the counter turns negative; it writes the structs from `c` up to where
it stops and nothing else; and struct `c + k` is the `k`-th entry.
SOURCE: crudmemlimit.c:148-156 -/
theorem fillBuffer_records (maxEntries : ULong) (hmax : maxEntries.toNat * 16 < 2 ^ 64)
    (l : MemoryList) (c : ℕ) (hc : c ≤ min maxEntries.toNat (2 ^ 31)) (heap : Bytes) :
    let r := Bytewise.fillBuffer maxEntries l (BitVec.ofNat 32 c) heap
    let n := min (c + l.length) (min maxEntries.toNat (2 ^ 31))
    r.1 = BitVec.ofNat 32 n ∧
      (∀ a : ℤ, a < memoryLimitation.sizeof * (c : ℤ) ∨ memoryLimitation.sizeof * (n : ℤ) ≤ a →
        r.2 a = heap a) ∧
      ∀ k entry, l[k]? = some entry → c + k < n →
        MemoryLimitation.read r.2 (memoryLimitation.sizeof * ((c + k : ℕ) : ℤ)) = entry := by
  obtain ⟨-, -, hsize⟩ := memoryLimitation_offsets
  simp only [hsize]
  induction l generalizing c heap with
  | nil =>
    have hn : min (c + 0) (min maxEntries.toNat (2 ^ 31)) = c := Nat.min_eq_left hc
    simp only [Bytewise.fillBuffer, List.length_nil, hn]
    exact ⟨trivial, fun _ _ => trivial, fun k t ht => by simp at ht⟩
  | cons entry rest ih =>
    by_cases hfull : (BitVec.ofNat 32 c).signExtend 64 ≥ maxEntries
    · have hge := (count_ge_iff maxEntries hmax c (by omega)).mp hfull
      have hn : min (c + (entry :: rest).length) (min maxEntries.toNat (2 ^ 31)) = c := by omega
      simp only [Bytewise.fillBuffer, if_pos hfull, hn]
      exact ⟨trivial, fun _ _ => trivial, fun k t _ hk => absurd hk (by omega)⟩
    · have hlt : c < min maxEntries.toNat (2 ^ 31) := by
        rw [count_ge_iff maxEntries hmax c (by omega)] at hfull
        omega
      have hnext : BitVec.ofNat 32 c + 1 = BitVec.ofNat 32 (c + 1) := by
        rw [BitVec.ofNat_add]
        rfl
      simp only [Bytewise.fillBuffer, if_neg hfull, hnext, count_toInt c (by omega), hsize]
      set heap' := assignAll ((16 : ℕ) * (c : ℤ)) entry.assignments heap with hheap'
      obtain ⟨hcount, hframe, hrecords⟩ := ih (c + 1) (by omega) heap'
      have hn : c + 1 + rest.length = c + (entry :: rest).length := by
        rw [List.length_cons]
        omega
      rw [hn] at hcount hframe hrecords
      refine ⟨hcount, ?_, ?_⟩
      · intro a ha
        rw [List.length_cons] at ha
        rw [hframe a (by rw [List.length_cons]; omega), hheap']
        exact MemoryLimitation.assignAll_outside entry heap _ a (by rw [hsize]; omega)
      · intro k e he hk
        cases k with
        | zero =>
          -- the struct just written is left alone by the later rounds
          have hrest : MemoryLimitation.read (Bytewise.fillBuffer maxEntries rest
              (BitVec.ofNat 32 (c + 1)) heap').2 ((16 : ℕ) * (c : ℤ)) =
              MemoryLimitation.read heap' ((16 : ℕ) * (c : ℤ)) := by
            apply MemoryLimitation.read_congr
            intro i hi
            exact hframe _ (Or.inl (by omega))
          rw [show c + 0 = c from rfl, hrest, hheap', MemoryLimitation.read_assignAll]
          simpa using he
        | succ k =>
          have hrecord := hrecords k e (by simpa using he) (by omega)
          rw [show c + (k + 1) = c + 1 + k by omega]
          exact hrecord

/-- INTERNAL: the loop on bytes does what the loop on records does: it counts the same, and
where a record was put, the bytes hold it.
SOURCE: crudmemlimit.c:148-156 -/
theorem fillBuffer_simulates (maxEntries : ULong) (l : MemoryList) (count : CInt) (heap : Bytes)
    (buffer : ProcessesBuffer)
    (hbuffer : ∀ i entry, buffer i = some entry →
      MemoryLimitation.read heap (memoryLimitation.sizeof * i) = entry) :
    (Bytewise.fillBuffer maxEntries l count heap).1 = (fillBuffer maxEntries l count buffer).1 ∧
      ∀ i entry, (fillBuffer maxEntries l count buffer).2 i = some entry →
        MemoryLimitation.read (Bytewise.fillBuffer maxEntries l count heap).2
          (memoryLimitation.sizeof * i) = entry := by
  obtain ⟨-, -, hsize⟩ := memoryLimitation_offsets
  induction l generalizing count heap buffer with
  | nil => exact ⟨rfl, hbuffer⟩
  | cons entry rest ih =>
    unfold Bytewise.fillBuffer fillBuffer
    split
    · exact ⟨rfl, hbuffer⟩
    · apply ih
      intro i e hi
      by_cases hcount : i = count.toInt
      · subst hcount
        rw [Function.update_self, Option.some.injEq] at hi
        rw [MemoryLimitation.read_assignAll, hi]
      · rw [Function.update_of_ne hcount] at hi
        rw [← hbuffer i e hi]
        apply MemoryLimitation.read_congr
        intro j hj
        apply MemoryLimitation.assignAll_outside
        rw [hsize] at hj ⊢
        omega

/-! ## The order of the list -/

/-- The list has the entries of the map, the newest first. -/
structure Ordered (l : MemoryList) (s : TimedMap) : Prop where
  represents : Represents l s.limits
  newest : (l.map MemoryLimitation.pid).Pairwise (fun newer older => s.since older < s.since newer)
  past : ∀ pid ∈ l.map MemoryLimitation.pid, s.since pid < s.clock

/-- INTERNAL: an entry keeps its age when time goes on. -/
theorem Ordered.since_next {l : MemoryList} {s : TimedMap} (h : Ordered l s) (limits : LimitMap)
    {pid : PidT} (hpid : pid ∈ l.map MemoryLimitation.pid) :
    (s.next limits).since pid = s.since pid := by
  obtain ⟨entry, hentry, rfl⟩ := List.mem_map.mp hpid
  have hsome : s.limits entry.pid = some entry.memoryLimit :=
    (h.represents.mem_iff entry.pid entry.memoryLimit).mp hentry
  simp [TimedMap.next, hsome]

/-- INTERNAL: a critical section that puts no new pid in keeps the order of those that
stay. -/
theorem Ordered.next {l l' : MemoryList} {s : TimedMap} (h : Ordered l s) {limits : LimitMap}
    (hrep : Represents l' limits)
    (hpids : (l'.map MemoryLimitation.pid).Sublist (l.map MemoryLimitation.pid)) :
    Ordered l' (s.next limits) := by
  refine ⟨hrep, ?_, ?_⟩
  · refine (h.newest.sublist hpids).imp_of_mem ?_
    intro newer older hnewer holder hlt
    rw [h.since_next limits (hpids.subset hnewer), h.since_next limits (hpids.subset holder)]
    exact hlt
  · intro pid hpid
    rw [h.since_next limits (hpids.subset hpid)]
    exact (h.past pid (hpids.subset hpid)).trans (Nat.lt_succ_self _)

/-- INTERNAL: a new entry is put in front, and it is the newest. -/
theorem Ordered.cons {l : MemoryList} {s : TimedMap} (h : Ordered l s) {limits : LimitMap}
    {entry : MemoryLimitation} (hrep : Represents (entry :: l) limits)
    (hfresh : s.limits entry.pid = none) : Ordered (entry :: l) (s.next limits) := by
  have hnow : (s.next limits).since entry.pid = s.clock := by simp [TimedMap.next, hfresh]
  refine ⟨hrep, ?_, ?_⟩
  · rw [List.map_cons, List.pairwise_cons]
    refine ⟨?_, h.newest.imp_of_mem ?_⟩
    · intro pid hpid
      rw [hnow, h.since_next limits hpid]
      exact h.past pid hpid
    · intro newer older hnewer holder hlt
      rw [h.since_next limits hnewer, h.since_next limits holder]
      exact hlt
  · intro pid hpid
    rw [List.map_cons, List.mem_cons] at hpid
    rcases hpid with rfl | hpid
    · rw [hnow]
      exact Nat.lt_succ_self _
    · rw [h.since_next limits hpid]
      exact (h.past pid hpid).trans (Nat.lt_succ_self _)

/-- INTERNAL: every critical section keeps the list in order and answers as the map does. -/
theorem critical_ordered (i : LimiterCall × Answers) (l : MemoryList) (s : TimedMap)
    (henter : limiterObject.enter i = none) (h : Ordered l s) :
    Ordered (limiterObject.critical i l).2 (timedMapObject.critical i s).2 ∧
      observe (limiterObject.leave i (limiterObject.critical i l).1) =
        timedMapObject.leave i (timedMapObject.critical i s).1 := by
  obtain ⟨hrep, hreply⟩ := critical_represents i l s.limits henter h.represents
  refine ⟨?_, hreply⟩
  rcases critical_pids i l with ⟨pid, limit, -, hcons, hfresh⟩ | hpids
  · rw [hcons] at hrep ⊢
    rw [h.represents.limits] at hfresh
    exact h.cons hrep hfresh
  · exact h.next hrep hpids

/-- INTERNAL: after every schedule the list is ordered by age, newest first. -/
theorem schedule_ordered {κ : Type} [DecidableEq κ]
    (events : List (Event κ (LimiterCall × Answers))) :
    Ordered (limiterObject.schedule.final (LockedObject.start []) events).shared
      (timedMapObject.schedule.final (LockedObject.start TimedMap.empty) events).shared :=
  (LockedObject.schedule_simulation limiterObject timedMapObject observe Ordered enter_eq
    critical_ordered [] TimedMap.empty
    ⟨represents_nil, List.Pairwise.nil, by simp⟩ events).1

/-! ## The length of the list -/

/-- In every call of the schedule `find_task_by_vpid(0)` finds no task: number 0 is that of
the idle task, which no pid namespace lists. -/
def NoTaskZero {κ : Type} (events : List (Event κ (LimiterCall × Answers))) : Prop :=
  ∀ t i, Event.call t i ∈ events → i.2.findTaskByVpid 0 = none

/-- INTERNAL: `add` has looked up the pid it puts in, so it is not zero either.
SOURCE: crudmemlimit.c:79-92 -/
theorem addChecks_positive (a : Answers) (pid : PidT) (limit : ULong)
    (hzero : a.findTaskByVpid 0 = none) (hchecks : addChecks a pid limit = none) :
    0 < pid.toInt := by
  have hnonneg := addChecks_nonneg hchecks
  have hne : pid ≠ 0 := by
    rintro rfl
    unfold addChecks at hchecks
    split_ifs at hchecks with hneg hcap hfind
    exact hfind (by rw [hzero]; rfl)
  have hne' : pid.toInt ≠ 0 := by
    intro h0
    exact hne (BitVec.eq_of_toInt_eq h0)
  omega

/-- INTERNAL: after every schedule in which no task has pid 0, all pids of the list are
positive. -/
theorem schedule_positive {κ : Type} [DecidableEq κ]
    (events : List (Event κ (LimiterCall × Answers))) (hzero : NoTaskZero events) :
    ∀ pid ∈ (limiterObject.schedule.final (LockedObject.start []) events).shared.map
      MemoryLimitation.pid, 0 < pid.toInt := by
  apply LockedObject.schedule_inv limiterObject
    (fun l => ∀ pid ∈ l.map MemoryLimitation.pid, 0 < pid.toInt)
    (fun i => i.2.findTaskByVpid 0 = none) ?_ events hzero
  · intro pid hpid
    simp [LockedObject.start] at hpid
  · exact LockedObject.Entered.start limiterObject _ []
  · rintro ⟨call, a⟩ l hfind henter hl
    rcases critical_pids (call, a) l with ⟨pid, limit, hcall, hcons, -⟩ | hpids
    · have hadd : call = .registry (.add pid limit) := hcall
      subst hadd
      simp only [limiterObject, registryObject, Option.map_eq_none_iff] at henter
      rw [hcons, List.map_cons, List.forall_mem_cons]
      exact ⟨addChecks_positive a pid limit hfind henter, hl⟩
    · intro pid hpid
      exact hl pid (hpids.subset hpid)

/-- INTERNAL: different positive pids are fewer than an `int` counts. -/
theorem length_lt_of_positive {l : MemoryList} (hunique : UniquePids l)
    (hpositive : ∀ pid ∈ l.map MemoryLimitation.pid, 0 < pid.toInt) : l.length < 2 ^ 31 := by
  have hlength := KeyedList.UniqueKeys.length_le MemoryLimitation.pid hunique BitVec.toNat
    (fun _ _ h => BitVec.eq_of_toNat_eq h) 1 (2 ^ 31) (by
      intro entry hentry
      have hpos := hpositive entry.pid (List.mem_map_of_mem hentry)
      have hlt := entry.pid.isLt
      rw [BitVec.toInt_eq_toNat_cond] at hpos
      split at hpos <;> omega)
  omega

/-! ## The call -/

/-- INTERNAL: the size of the buffer in bytes does not overflow when the checks of `get` pass.
-/
theorem getChecks_size {a : Answers} {maxEntries : ULong} (h : getChecks a maxEntries = none) :
    maxEntries.toNat * 16 < 2 ^ 64 := by
  unfold getChecks at h
  split at h
  · cases h
  · rename_i hsize
    rw [not_or, not_le] at hsize
    exact hsize.1

/-- INTERNAL: a struct that was copied as a whole is the struct of the source. -/
theorem MemoryLimitation.read_copyToUser (user src : Bytes) (dst : ℤ) (n left k : ℕ)
    (hk : memoryLimitation.sizeof * (k + 1) ≤ n - left) :
    MemoryLimitation.read (copyToUser user dst src n left) (dst + memoryLimitation.sizeof * (k : ℤ)) =
      MemoryLimitation.read src (memoryLimitation.sizeof * (k : ℤ)) := by
  obtain ⟨-, -, hsize⟩ := memoryLimitation_offsets
  rw [hsize] at hk ⊢
  apply MemoryLimitation.read_congr
  intro i hi
  rw [copyToUser, Bytes.copy_inside _ _ _ _ _ (by omega)]
  congr 1
  omega

/-- INTERNAL: a record that reaches the user is the buffer's record at its index, and all of
its bytes are copied.
SOURCE: crudmemlimit.c:160-163 -/
theorem userRecords_getElem? {count : CInt} {buffer : ℤ → Option MemoryLimitation} {left k : ℕ}
    {entry : MemoryLimitation} (h : (userRecords count buffer left)[k]? = some (some entry)) :
    buffer k = some entry ∧
      memoryLimitation.sizeof * (k + 1) ≤
        (count.signExtend 64 * BitVec.ofNat 64 memoryLimitation.sizeof).toNat - left := by
  obtain ⟨-, -, hsize⟩ := memoryLimitation_offsets
  have hrecords : userRecords count buffer left =
      (List.range (((count.signExtend 64 * BitVec.ofNat 64 16).toNat - left) / 16)).map
        (fun k : ℕ => buffer k) := by
    simp [userRecords, sizeofMemoryLimitation, ← List.map_eq_flatMap, Function.comp_def]
  rw [hrecords] at h
  simp only [List.getElem?_map, Option.map_eq_some_iff, List.getElem?_eq_some_iff,
    List.getElem_range, List.length_range] at h
  obtain ⟨j, ⟨hlt, rfl⟩, hentry⟩ := h
  rw [hsize]
  exact ⟨hentry, by omega⟩

/-- INTERNAL: the call on bytes refines the call on records: it returns the same, and the
bytes of every record that reaches the user are that record.
SOURCE: crudmemlimit.c:127-174 -/
theorem bytewise_get_refines (a : Answers) (dst maxEntries : ULong) (l : MemoryList)
    (heap user : Bytes) :
    let r := Bytewise.juliozGetMemoryLimits a dst maxEntries l heap user
    let s := juliozGetMemoryLimits a maxEntries l
    r.ret = s.ret ∧ r.processesReturned = s.processesReturned ∧
      ∀ (k : ℕ) entry, s.records[k]? = some (some entry) →
        MemoryLimitation.read r.user (dst.toNat + memoryLimitation.sizeof * (k : ℤ)) = entry := by
  obtain ⟨-, -, hsize⟩ := memoryLimitation_offsets
  intro r s
  cases hchecks : getChecks a maxEntries with
  | some e =>
    have hr : r = ⟨e, user, none⟩ := by
      simp only [r, Bytewise.juliozGetMemoryLimits, hchecks]
    have hs : s = ⟨e, [], none⟩ := by simp only [s, juliozGetMemoryLimits, hchecks]
    rw [hr, hs]
    exact ⟨rfl, rfl, fun k entry h => by simp at h⟩
  | none =>
    obtain ⟨hcount, hrecords⟩ := fillBuffer_simulates maxEntries l 0 heap (fun _ => none)
      (fun i entry h => by simp at h)
    have hr : r = Bytewise.getCopies a dst (Bytewise.fillBuffer maxEntries l 0 heap).1
        (Bytewise.fillBuffer maxEntries l 0 heap).2 user := by
      simp only [r, Bytewise.juliozGetMemoryLimits, hchecks]
    have hs : s = getCopies a (fillBuffer maxEntries l 0 (fun _ => none)).1
        (fillBuffer maxEntries l 0 (fun _ => none)).2 := by
      simp only [s, juliozGetMemoryLimits, hchecks]
    rw [hr, hs, hcount]
    generalize (fillBuffer maxEntries l 0 (fun _ => none)).1 = count at *
    have hcopied : ∀ (k : ℕ) entry, (userRecords count (fillBuffer maxEntries l 0 (fun _ => none)).2
        a.copyToUser)[k]? = some (some entry) →
        MemoryLimitation.read (copyToUser user dst.toNat (Bytewise.fillBuffer maxEntries l 0 heap).2
          (count.signExtend 64 * BitVec.ofNat 64 memoryLimitation.sizeof).toNat a.copyToUser)
          (dst.toNat + memoryLimitation.sizeof * (k : ℤ)) = entry := by
      intro k entry hk
      obtain ⟨hentry, hwhole⟩ := userRecords_getElem? hk
      rw [MemoryLimitation.read_copyToUser _ _ _ _ _ _ hwhole]
      exact hrecords k entry hentry
    unfold Bytewise.getCopies getCopies
    simp only
    split_ifs <;> exact ⟨rfl, rfl, hcopied⟩

/-- INTERNAL: the counter after the loop, for a list that an `int` can count.
SOURCE: crudmemlimit.c:148-156 -/
theorem fillBuffer_count (maxEntries : ULong) (hmax : maxEntries.toNat * 16 < 2 ^ 64)
    (l : MemoryList) (heap : Bytes) (hlength : l.length < 2 ^ 31) :
    (Bytewise.fillBuffer maxEntries l 0 heap).1 =
      BitVec.ofNat 32 (min l.length maxEntries.toNat) := by
  obtain ⟨hcount, -, -⟩ := fillBuffer_records maxEntries hmax l 0 (Nat.zero_le _) heap
  rwa [show min (0 + l.length) (min maxEntries.toNat (2 ^ 31)) = min l.length maxEntries.toNat by
    omega] at hcount

/-- INTERNAL: the call when the buffer was allocated and both user copies succeed.
SOURCE: crudmemlimit.c:127-174 -/
theorem get_eq (a : Answers) (dst maxEntries : ULong) (l : MemoryList) (heap user : Bytes)
    (halloc : getChecks a maxEntries = none) (hcopy : a.copyToUser = 0) (hput : a.putUser = false)
    (hlength : l.length < 2 ^ 31) :
    let n := min l.length maxEntries.toNat
    Bytewise.juliozGetMemoryLimits a dst maxEntries l heap user =
      ⟨0, copyToUser user dst.toNat (Bytewise.fillBuffer maxEntries l 0 heap).2
        (memoryLimitation.sizeof * n) 0, some (BitVec.ofNat 32 n)⟩ := by
  intro n
  obtain ⟨-, -, hsize⟩ := memoryLimitation_offsets
  have hmax := getChecks_size halloc
  have hfill : (Bytewise.fillBuffer maxEntries l 0 heap).1 = BitVec.ofNat 32 n :=
    fillBuffer_count maxEntries hmax l heap hlength
  have hmsb : (BitVec.ofNat 32 n).msb = false := by
    rw [BitVec.msb_eq_false_iff_two_mul_lt, BitVec.toNat_ofNat]
    omega
  have hbytes : ((BitVec.ofNat 32 n).signExtend 64 *
      BitVec.ofNat 64 memoryLimitation.sizeof).toNat = memoryLimitation.sizeof * n := by
    rw [BitVec.signExtend_eq_setWidth_of_msb_false hmsb, BitVec.toNat_mul, BitVec.toNat_setWidth,
      BitVec.toNat_ofNat, BitVec.toNat_ofNat, hsize]
    omega
  simp only [Bytewise.juliozGetMemoryLimits, halloc, Bytewise.getCopies, hcopy, hput, hfill, hbytes,
    ne_eq, not_true_eq_false, if_false, Bool.false_eq_true]

/-- INTERNAL: the records in user memory are the entries of the list.
SOURCE: crudmemlimit.c:127-174 -/
theorem get_record (a : Answers) (dst maxEntries : ULong) (l : MemoryList) (heap user : Bytes)
    (halloc : getChecks a maxEntries = none) (hcopy : a.copyToUser = 0) (hput : a.putUser = false)
    (hlength : l.length < 2 ^ 31) (k : ℕ) (hk : k < min l.length maxEntries.toNat) :
    l[k]? = some (MemoryLimitation.read
      (Bytewise.juliozGetMemoryLimits a dst maxEntries l heap user).user
      (dst.toNat + memoryLimitation.sizeof * (k : ℤ))) := by
  obtain ⟨-, -, hsize⟩ := memoryLimitation_offsets
  have hk' : k < l.length := by omega
  obtain ⟨-, -, hrecords⟩ := fillBuffer_records maxEntries (getChecks_size halloc) l 0
    (Nat.zero_le _) heap
  have hentry := hrecords k l[k] (List.getElem?_eq_getElem hk') (by omega)
  rw [Nat.zero_add] at hentry
  rw [get_eq a dst maxEntries l heap user halloc hcopy hput hlength,
    MemoryLimitation.read_copyToUser _ _ _ _ _ _ (by rw [hsize]; omega),
    List.getElem?_eq_getElem hk', ← hentry]
  rfl

/-- MAIN: **`julioz_get_memory_limits` returns the newest entries.** After any schedule of
the five functions, for any `max_entries` for which the kernel buffer can be allocated,
when both user copies succeed: the call returns 0 and stores the number of entries or
`max_entries`, whichever is less; that many records are the entries in the order of their
insertion, from the newest on, and no other user byte is written; no byte outside the
`max_entries` structs of the kernel buffer is written; the counter is exact after every
round; and with room for all entries, each limited pid appears once, with its limit.
SOURCE: crudmemlimit.c:72-241 -/
theorem getMemoryLimits_newest {κ : Type} [DecidableEq κ]
    (events : List (Event κ (LimiterCall × Answers))) (hzero : NoTaskZero events) (a : Answers)
    (dst maxEntries : ULong) (heap user : Bytes) (halloc : getChecks a maxEntries = none)
    (hcopy : a.copyToUser = 0) (hput : a.putUser = false) :
    let l := (limiterObject.schedule.final (LockedObject.start []) events).shared
    let map := (timedMapObject.schedule.final (LockedObject.start TimedMap.empty) events).shared
    let r := Bytewise.juliozGetMemoryLimits a dst maxEntries l heap user
    let n := min l.length maxEntries.toNat
    let record (k : ℕ) := MemoryLimitation.read r.user
      (dst.toNat + memoryLimitation.sizeof * (k : ℤ))
    (r.ret = 0 ∧ ∃ count, r.processesReturned = some count ∧ count.toInt = n) ∧
      (∀ k < n, l[k]? = some (record k)) ∧
      l.Pairwise (fun newer older => map.since older.pid < map.since newer.pid) ∧
      (∀ pid limit, ⟨pid, limit⟩ ∈ l ↔ map.limits pid = some limit) ∧
      (∀ b : ℤ, b < dst.toNat ∨ dst.toNat + memoryLimitation.sizeof * (n : ℤ) ≤ b →
        r.user b = user b) ∧
      (∀ b : ℤ, b < 0 ∨ memoryLimitation.sizeof * (maxEntries.toNat : ℤ) ≤ b →
        (Bytewise.fillBuffer maxEntries l 0 heap).2 b = heap b) ∧
      (∀ j ≤ l.length, (Bytewise.fillBuffer maxEntries (l.take j) 0 heap).1.toInt =
        (min j maxEntries.toNat : ℕ)) ∧
      (l.length ≤ maxEntries.toNat → ∀ pid limit, map.limits pid = some limit →
        ∃ k < n, record k = ⟨pid, limit⟩ ∧ ∀ j < n, (record j).pid = pid → j = k) := by
  intro l map r n record
  obtain ⟨-, -, hsize⟩ := memoryLimitation_offsets
  have hordered : Ordered l map := schedule_ordered events
  have hlength : l.length < 2 ^ 31 :=
    length_lt_of_positive hordered.represents.unique (schedule_positive events hzero)
  have hmax := getChecks_size halloc
  have hr : r = ⟨0, copyToUser user dst.toNat (Bytewise.fillBuffer maxEntries l 0 heap).2
      (memoryLimitation.sizeof * n) 0, some (BitVec.ofNat 32 n)⟩ :=
    get_eq a dst maxEntries l heap user halloc hcopy hput hlength
  have hrecord : ∀ k < n, l[k]? = some (record k) :=
    get_record a dst maxEntries l heap user halloc hcopy hput hlength
  refine ⟨⟨by rw [hr], BitVec.ofNat 32 n, by rw [hr], count_toInt n (by omega)⟩, hrecord,
    List.pairwise_map.mp hordered.newest, hordered.represents.mem_iff, ?_, ?_, ?_, ?_⟩
  · intro b hb
    rw [hr]
    rw [hsize] at hb ⊢
    exact Bytes.copy_outside _ _ _ _ _ (by omega)
  · intro b hb
    obtain ⟨-, hframe, -⟩ := fillBuffer_records maxEntries hmax l 0 (Nat.zero_le _) heap
    rw [hsize] at hb hframe
    exact hframe b (by omega)
  · -- a shorter list is what the loop has seen after `j` rounds
    intro j hj
    have htake : (l.take j).length = j := by
      rw [List.length_take]
      omega
    rw [fillBuffer_count maxEntries hmax (l.take j) heap (by omega), htake]
    exact count_toInt _ (by omega)
  · intro hroom pid limit hlimit
    have hmem := (hordered.represents.mem_iff pid limit).mpr hlimit
    obtain ⟨k, hentry⟩ := List.mem_iff_getElem?.mp hmem
    have hk : k < l.length := (List.getElem?_eq_some_iff.mp hentry).1
    have hkn : k < n := by omega
    have hrecord_k : record k = ⟨pid, limit⟩ :=
      Option.some.inj ((hrecord k hkn).symm.trans hentry)
    refine ⟨k, hkn, hrecord_k, ?_⟩
    intro j hj hpid
    -- two indices with one pid are one index: no pid has two entries
    have hunique : (l.map MemoryLimitation.pid).Nodup := hordered.represents.unique
    apply (List.getElem?_inj (by rw [List.length_map]; omega) hunique).mp
    rw [List.getElem?_map, List.getElem?_map, hrecord j hj, hrecord k hkn, Option.map_some,
      Option.map_some, hpid, hrecord_k]

/-- Answers in which every pid but 0 is that of a task, and nothing fails. -/
def readyAnswers : Answers :=
  ⟨true, fun pid => if pid = 0 then none else some (processOf pid (heapMm 1)), true, 0, false⟩

/-- A limit for 5, then one for 9. -/
def twoAdds : List (Event ℕ (LimiterCall × Answers)) :=
  [.call 0 (.registry (.add 5 100), readyAnswers), .critical 0, .finish 0,
    .call 0 (.registry (.add 9 200), readyAnswers), .critical 0]

/-- INTERNAL: the two calls of the example name no task with pid 0. -/
theorem noTaskZero_twoAdds : NoTaskZero twoAdds := by
  intro t i hi
  simp only [twoAdds, List.mem_cons, List.not_mem_nil, Event.call.injEq, reduceCtorEq, or_false,
    false_or] at hi
  rcases hi with ⟨-, rfl⟩ | ⟨-, rfl⟩ <;> rfl

/-- INTERNAL: the entry added last comes first. -/
theorem twoAdds_shared :
    (limiterObject.schedule.final (LockedObject.start []) twoAdds).shared =
      [⟨9, 200⟩, ⟨5, 100⟩] := by
  decide +kernel

/-- INTERNAL: after two calls of `add`, a buffer for one record gets the second. -/
theorem getMemoryLimits_newest_two_adds :
    getChecks readyAnswers 1 = none ∧
      MemoryLimitation.read (Bytewise.juliozGetMemoryLimits readyAnswers 4096 1
        (limiterObject.schedule.final (LockedObject.start []) twoAdds).shared (fun _ => 0)
        (fun _ => 0)).user 4096 = ⟨9, 200⟩ := by
  refine ⟨by decide, ?_⟩
  obtain ⟨-, hrecord, -⟩ := getMemoryLimits_newest twoAdds noTaskZero_twoAdds readyAnswers 4096 1
    (fun _ => 0) (fun _ => 0) (by decide) rfl rfl
  have hfirst := hrecord 0 (by rw [twoAdds_shared]; decide)
  rw [twoAdds_shared, List.getElem?_cons_zero] at hfirst
  rw [twoAdds_shared]
  exact (Option.some.inj hfirst).symm

end UsacKernel.Analysis
