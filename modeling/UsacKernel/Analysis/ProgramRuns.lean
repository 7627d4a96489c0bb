import UsacKernel.Analysis.LockDiscipline
import UsacKernel.Computation.LockTriple

/-!
# The programs with locks and the functional model are the same calls

`Model.LockPrograms` writes the calls step by step, `Model.MemoryLimit` and
`Model.SystemCalls` as functions of the list and the address space. A call that runs while
nobody else holds a lock comes to its end, and returns and leaves behind what the function
says.

The loops are compared through the position of the first entry for a pid: `searchEntry`
stops there, and each recursive loop of the functional model is rewritten in its terms.
-/

set_option autoImplicit false

namespace UsacKernel.Analysis

open UsacKernel.Computation UsacKernel.Computation.LockProgram UsacKernel.Model

/-! ## The loops of the functional model -/

/-- The position of the first entry for a pid. -/
def firstIndex (pid : PidT) (l : MemoryList) : Option ℕ :=
  l.findIdx? (fun entry => decide (entry.pid = pid))

/-- INTERNAL: the first entry is the one, or the position in the rest moves up by one. -/
theorem firstIndex_cons (pid : PidT) (entry : MemoryLimitation) (l : MemoryList) :
    firstIndex pid (entry :: l) =
      if entry.pid = pid then some 0 else (firstIndex pid l).map (· + 1) := by
  simp [firstIndex, List.findIdx?_cons]

/-- INTERNAL: the loop of `add` that looks for a duplicate finds one when the pid has a
position. -/
theorem listed_eq_firstIndex (pid : PidT) (l : MemoryList) :
    listed pid l = (firstIndex pid l).isSome := by
  induction l with
  | nil => rfl
  | cons entry rest ih =>
    rw [listed, firstIndex_cons]
    split
    · rfl
    · rw [ih, Option.isSome_map]

/-- INTERNAL: the loop of `is_request_accepted` decides by the first entry for the pid. -/
theorem acceptLoop_of_firstIndex {pid : PidT} (usage requested : ULong) {l : MemoryList}
    {i : ℕ} (h : firstIndex pid l = some i) :
    ∃ entry, l[i]? = some entry ∧
      (acceptLoop pid usage requested l).2 =
        !decide (usage + requested > entry.memoryLimit) := by
  induction l generalizing i with
  | nil => cases h
  | cons entry rest ih =>
    rw [firstIndex_cons] at h
    rw [acceptLoop]
    split at h
    · cases h
      refine ⟨entry, rfl, ?_⟩
      rename_i hpid
      rw [if_pos hpid]
      split <;> simp_all
    · rename_i hpid
      obtain ⟨j, hj, rfl⟩ := Option.map_eq_some_iff.mp h
      obtain ⟨e, he, haccept⟩ := ih hj
      exact ⟨e, he, by rw [if_neg hpid, haccept]⟩

/-- INTERNAL: the loop of `is_request_accepted` accepts when no entry is for the pid. -/
theorem acceptLoop_of_firstIndex_eq_none {pid : PidT} (usage requested : ULong) {l : MemoryList}
    (h : firstIndex pid l = none) : (acceptLoop pid usage requested l).2 = true := by
  induction l with
  | nil => rfl
  | cons entry rest ih =>
    rw [firstIndex_cons] at h
    split at h
    · cases h
    · rename_i hpid
      rw [acceptLoop, if_neg hpid]
      exact ih (Option.map_eq_none_iff.mp h)

/-- INTERNAL: the loop of `update` changes the limit at the first position of the pid, and only
there. -/
theorem updateLocked_eq_modify (pid : PidT) (limit : ULong) (l : MemoryList) :
    updateLocked pid limit l =
      (firstIndex pid l).elim (ESRCH.neg, l)
        (fun i => (0, l.modify i (fun entry => { entry with memoryLimit := limit }))) := by
  induction l with
  | nil => rfl
  | cons entry rest ih =>
    rw [updateLocked, firstIndex_cons]
    split
    · rfl
    · simp only [ih]
      cases firstIndex pid rest <;> rfl

/-- INTERNAL: the loop of `remove` takes out the first position of the pid, and only that. -/
theorem removeLocked_eq_eraseIdx (pid : PidT) (l : MemoryList) :
    removeLocked pid l =
      (firstIndex pid l).elim (ESRCH.neg, l) (fun i => (0, l.eraseIdx i)) := by
  induction l with
  | nil => rfl
  | cons entry rest ih =>
    rw [removeLocked, firstIndex_cons]
    split
    · rfl
    · simp only [ih]
      cases firstIndex pid rest <;> rfl

/-! ## The steps of the programs -/

section Steps

variable {μ : Type} [DecidableEq μ]

abbrev CallState (μ : Type) := Solo (KernelLock μ) (Guarded μ) Regs

def memoryList (d : ∀ l, Guarded μ l) : MemoryList := d .memoryListMutex

def addressSpace (d : ∀ l, Guarded μ l) (mm : μ) : MmStruct := d (.mmapLock mm)

def setList (d : ∀ l, Guarded μ l) (l : MemoryList) : ∀ l, Guarded μ l :=
  Function.update d .memoryListMutex l

def setMm (d : ∀ l, Guarded μ l) (mm : μ) (m : MmStruct) : ∀ l, Guarded μ l :=
  Function.update d (.mmapLock mm) m

variable {Q R : CallState μ → Prop} {s : CallState μ}

/-- INTERNAL: a return of a code writes `ret` and ends the function. -/
theorem wp_returnCode (code : ℤ) :
    wp (returnCode code) Q R s ↔ R { s with locals := { s.locals with ret := code } } := Iff.rfl

/-- INTERNAL: a return of a word writes `retval` and ends the function. -/
theorem wp_returnValue (value : Regs → ULong) :
    wp (returnValue value) Q R s ↔
      R { s with locals := { s.locals with retval := value s.locals } } := Iff.rfl

/-- INTERNAL: a return of a verdict writes `accepted` and ends the function. -/
theorem wp_returnAccepted (accepted : Bool) :
    wp (returnAccepted accepted) Q R s ↔
      R { s with locals := { s.locals with accepted := accepted } } := Iff.rfl

/-- INTERNAL: releasing the mutex, as the last lock taken, drops it from the held ones. -/
theorem wp_mutexUnlock {held : List (KernelLock μ × LockMode)}
    (h : s.held = (.memoryListMutex, .write) :: held) :
    wp mutexUnlock Q R s ↔ Q { s with held := held } := by
  simp [mutexUnlock, wp, release, h]

/-- INTERNAL: a step on the list replaces the list and the local variables together. -/
theorem wp_onList (f : Regs → MemoryList → Regs × MemoryList) :
    wp (onList f) Q R s ↔
      Q { s with
        data := setList s.data (f s.locals (memoryList s.data)).2
        locals := (f s.locals (memoryList s.data)).1 } := Iff.rfl

/-- INTERNAL: a step on the current entry changes only local variables, and none at the end of
the list. -/
theorem wp_onEntry (f : Regs → MemoryLimitation → Regs) :
    wp (onEntry f) Q R s ↔
      Q { s with
        locals := ((memoryList s.data)[s.locals.index]?).elim s.locals (f s.locals) } := by
  rw [onEntry, wp_onList, setList, memoryList, Function.update_eq_self]

/-- INTERNAL: a test of the current entry, when there is one, chooses the branch and is kept in
`test`. -/
theorem wp_ifEntry {test : Regs → MemoryLimitation → Bool} {p q : Code μ}
    (entry : MemoryLimitation) (h : (memoryList s.data)[s.locals.index]? = some entry) :
    wp (ifEntry test p q) Q R s ↔
      if test s.locals entry then
        wp p Q R { s with locals := { s.locals with test := true } }
      else wp q Q R { s with locals := { s.locals with test := false } } := by
  rw [ifEntry, wp, wp_onEntry, h]
  cases htest : test s.locals entry <;> simp [wp, htest]

/-- INTERNAL: moving the cursor leaves the list as it is. -/
theorem wp_moveTo (i : Regs → ℕ) :
    wp (onList (fun r l => (r.moveTo (i r) l, l))) Q R s ↔
      Q { s with locals := s.locals.moveTo (i s.locals) (memoryList s.data) } := by
  rw [wp_onList, setList, memoryList, Function.update_eq_self]

/-! ## The loops of the programs -/

/-- Nothing but the variables of the loop differs. -/
def LoopFrame (r r' : Regs) : Prop :=
  r' = { r with index := r'.index, more := r'.more, test := r'.test }

/-- INTERNAL: what two steps of a loop leave alone, both together leave alone. -/
theorem LoopFrame.trans {r r' r'' : Regs} (h : LoopFrame r r') (h' : LoopFrame r' r'') :
    LoopFrame r r'' := by
  unfold LoopFrame at *
  rw [h', h]

/-- What a loop over the list keeps: `inv` is about the entries that are left and the local
variables. A round that goes on changes neither the data nor the position. -/
structure ForEachInv (stop : Regs → Bool) (body : Code μ) (Q R : CallState μ → Prop)
    (s : CallState μ) (inv : MemoryList → Regs → Prop) : Prop where
  finish : ∀ r, inv [] r → Q { s with locals := r }
  stopped : ∀ entry rest r, inv (entry :: rest) r → stop r = true → Q { s with locals := r }
  round : ∀ entry rest r, inv (entry :: rest) r → stop r = false →
    (memoryList s.data)[r.index]? = some entry → ∀ Q' : CallState μ → Prop,
    (∀ r', r'.index = r.index → inv rest (r'.moveTo (r.index + 1) (memoryList s.data)) →
      Q' { s with locals := r' }) → wp body Q' R { s with locals := r }

/-- INTERNAL: the loop from position `pre.length` on; the induction is on what is left of
the list. -/
theorem ForEachInv.rounds {stop : Regs → Bool} {body : Code μ} {inv : MemoryList → Regs → Prop}
    (h : ForEachInv stop body Q R s inv) (rest pre : MemoryList) (r : Regs)
    (hl : memoryList s.data = pre ++ rest) (hindex : r.index = pre.length)
    (hmore : r.more = decide (0 < rest.length)) (hinv : inv rest r) :
    LockProgram.rounds (fun r => r.more && !stop r)
      (fun Q' => wp (.seq body (onList (fun r l => (r.moveTo (r.index + 1) l, l)))) Q' R) Q
      (rest.length + 1) { s with locals := r } := by
  induction rest generalizing pre r with
  | nil =>
    have hend : r.more = false := by simpa using hmore
    simp only [LockProgram.rounds, hend, Bool.false_and, Bool.false_eq_true, if_false]
    exact h.finish r hinv
  | cons entry rest ih =>
    have hgo : r.more = true := by simpa using hmore
    have hentry : (memoryList s.data)[r.index]? = some entry := by simp [hl, hindex]
    rw [LockProgram.rounds]
    -- the `break` is the second half of the loop condition
    cases hstop : stop r with
    | true =>
      simp only [hgo, Bool.not_true, Bool.and_false, Bool.false_eq_true, if_false]
      exact h.stopped entry rest r hinv hstop
    | false =>
      simp only [hgo, Bool.not_false, Bool.and_true, if_true]
      rw [wp]
      apply h.round entry rest r hinv hstop hentry
      intro r' hindex' hinv'
      rw [wp_moveTo, hindex']
      refine ih (pre ++ [entry]) _ (by simp [hl]) ?_ ?_ hinv'
      · simp [Regs.moveTo, hindex]
      · simp [Regs.moveTo, hindex, hl]

/-- INTERNAL: the rule for `list_for_each_entry`. -/
theorem wp_listForEachEntry {stop : Regs → Bool} {body : Code μ}
    {inv : MemoryList → Regs → Prop} (h : ForEachInv stop body Q R s inv)
    (hstart : inv (memoryList s.data) (s.locals.moveTo 0 (memoryList s.data))) :
    wp (listForEachEntry stop body) Q R s := by
  rw [listForEachEntry, wp, wp_moveTo (fun _ => 0)]
  exact ⟨_, h.rounds (memoryList s.data) [] _ rfl rfl rfl hstart⟩

/-- INTERNAL: the search stops at the first entry for the pid, or comes to the end. -/
theorem wp_searchEntry {pid : PidT} {found : Code μ}
    (hfound : ∀ i r', firstIndex pid (memoryList s.data) = some i → LoopFrame s.locals r' →
      r'.index = i → ∀ Q', wp found Q' R { s with locals := r' })
    (hnone : ∀ r', firstIndex pid (memoryList s.data) = none → LoopFrame s.locals r' →
      Q { s with locals := r' }) : wp (searchEntry pid found) Q R s := by
  -- the first entry for the pid is the first one among those that are left
  let inv (rest : MemoryList) (r : Regs) : Prop := LoopFrame s.locals r ∧
    firstIndex pid (memoryList s.data) = (firstIndex pid rest).map (fun j => r.index + j)
  have hinv : ForEachInv (fun _ => false)
      (ifEntry (fun _ entry => decide (entry.pid = pid)) found .skip) Q R s inv := by
    constructor
    · rintro r ⟨hframe, hfirst⟩
      exact hnone r hfirst hframe
    · rintro entry rest r - hstop
      exact absurd hstop Bool.false_ne_true
    · rintro entry rest r ⟨hframe, hfirst⟩ - hentry Q' hnext
      rw [wp_ifEntry entry hentry]
      rw [firstIndex_cons] at hfirst
      -- a match ends the loop, so only the other branch goes on with the rest
      by_cases hpid : entry.pid = pid
      · rw [if_pos (decide_eq_true hpid)]
        rw [if_pos hpid] at hfirst
        exact hfound r.index { r with test := true } hfirst (hframe.trans (by exact rfl)) rfl Q'
      · rw [if_neg (by simp [hpid]), wp]
        rw [if_neg hpid, Option.map_map] at hfirst
        refine hnext _ rfl ⟨hframe.trans (by exact rfl), hfirst.trans ?_⟩
        congr 1
        funext j
        simp only [Function.comp_apply, Regs.moveTo]
        omega
  refine wp_listForEachEntry hinv ⟨by exact rfl, ?_⟩
  simp [Regs.moveTo]

/-- INTERNAL: the loop of `get` fills the buffer as `fillBuffer` does. -/
theorem wp_fillBuffer (maxEntries : ULong)
    (hQ : ∀ r', r'.processesReturned = s.locals.processesReturned →
      (r'.count, r'.buffer) =
        fillBuffer maxEntries (memoryList s.data) s.locals.count s.locals.buffer →
      Q { s with locals := r' }) :
    wp (listForEachEntry (fun r => decide (r.count.signExtend 64 ≥ maxEntries))
      (onEntry Regs.store)) Q R s := by
  -- filling from here on gives what filling from the beginning gives
  let inv (rest : MemoryList) (r : Regs) : Prop :=
    r.processesReturned = s.locals.processesReturned ∧
      fillBuffer maxEntries rest r.count r.buffer =
        fillBuffer maxEntries (memoryList s.data) s.locals.count s.locals.buffer
  have hinv : ForEachInv (fun r => decide (r.count.signExtend 64 ≥ maxEntries))
      (onEntry Regs.store) Q R s inv := by
    constructor
    · rintro r ⟨hreturned, hfill⟩
      exact hQ r hreturned hfill
    · rintro entry rest r ⟨hreturned, hfill⟩ hstop
      rw [fillBuffer, if_pos (of_decide_eq_true hstop)] at hfill
      exact hQ r hreturned hfill
    · rintro entry rest r ⟨hreturned, hfill⟩ hstop hentry Q' hnext
      rw [fillBuffer, if_neg (of_decide_eq_false hstop)] at hfill
      rw [wp_onEntry, hentry]
      exact hnext _ rfl ⟨hreturned, hfill⟩
  exact wp_listForEachEntry hinv ⟨rfl, rfl⟩

/-- INTERNAL: taking the mutex adds it to the held locks; that it is free is no concern of one
thread. -/
theorem wp_mutexLock :
    wp mutexLock Q R s ↔ Q { s with held := (.memoryListMutex, .write) :: s.held } := Iff.rfl

/-- INTERNAL: a read of an address space without its lock changes only local variables. -/
theorem wp_peekMm (mm : μ) (f : Regs → MmStruct → Regs) :
    wp (peekMm mm f) Q R s ↔ Q { s with locals := f s.locals (addressSpace s.data mm) } := Iff.rfl

/-- INTERNAL: a step on an address space replaces it and the local variables together. -/
theorem wp_onMm (mm : μ) (f : Regs → MmStruct → Regs × MmStruct) :
    wp (onMm mm f) Q R s ↔
      Q { s with
        data := setMm s.data mm (f s.locals (addressSpace s.data mm)).2
        locals := (f s.locals (addressSpace s.data mm)).1 } := Iff.rfl

/-- INTERNAL: page faults take and release a lock and leave the rest of the state alone. -/
theorem wp_handleFaults (mm : μ) (n : ℕ) : wp (handleFaults mm n) Q R s ↔ Q s := by
  induction n with
  | zero => rfl
  | succ n ih => simp [handleFaults, Stmt.block, wp, release, ih]

/-! ## `is_request_accepted` -/

/-- The lookups of `is_request_accepted` find `target`. -/
def FindsTarget (d : ∀ l, Guarded μ l) (find : PidT → Option TaskStruct) (pid : PidT)
    (target : Option (Option μ)) : Prop :=
  currentUsage find pid =
    target.bind (fun m => m.map (fun mm => pagesToBytes (addressSpace d mm).totalVm))

/-- Nothing but the variables of `is_request_accepted` differs. -/
def TestFrame (r r' : Regs) : Prop :=
  r' = { r with
    accepted := r'.accepted
    currentUsage := r'.currentUsage
    index := r'.index
    more := r'.more
    test := r'.test }

/-- INTERNAL: the loop of `is_request_accepted`, started with the usage filled in, changes only
variables that belong to the test. -/
theorem LoopFrame.testFrame {r r' : Regs} {usage : ULong}
    (h : LoopFrame { r with currentUsage := usage } r') (accepted test : Bool) :
    TestFrame r { r' with accepted := accepted, test := test } := by
  unfold LoopFrame at h
  unfold TestFrame
  rw [h]

/-- INTERNAL: the verdict inside the loop is returned after the mutex is released. -/
theorem wp_unlockAccepted {held : List (KernelLock μ × LockMode)}
    (h : s.held = (.memoryListMutex, .write) :: held) (accepted : Bool) :
    wp (.block [mutexUnlock, returnAccepted accepted]) Q R s ↔
      R { s with held := held, locals := { s.locals with accepted := accepted } } := by
  rw [wp_block_cons, wp_mutexUnlock h]
  rfl

/-- INTERNAL: the program of `is_request_accepted` returns what the function says, for the
amount as the caller computes it, and leaves the variables of the caller alone. -/
theorem wp_isRequestAcceptedCode (find : PidT → Option TaskStruct) {pid : PidT}
    {target : Option (Option μ)} (hfind : FindsTarget s.data find pid target)
    {requested : Regs → ULong}
    (hrequested : ∀ r', TestFrame s.locals r' → requested r' = requested s.locals)
    (hR : ∀ r', TestFrame s.locals r' →
      r'.accepted = isRequestAccepted find pid (requested s.locals) (memoryList s.data) →
      R { s with locals := r' }) :
    wp (isRequestAcceptedCode target pid requested) Q R s := by
  rcases target with _ | _ | mm
  · rw [isRequestAcceptedCode, wp_returnAccepted]
    have hnone : currentUsage find pid = none := hfind
    exact hR _ (by exact rfl) (by simp [isRequestAccepted, hnone])
  · rw [isRequestAcceptedCode, wp_returnAccepted]
    have hnone : currentUsage find pid = none := hfind
    exact hR _ (by exact rfl) (by simp [isRequestAccepted, hnone])
  · have husage : currentUsage find pid = some (pagesToBytes (addressSpace s.data mm).totalVm) :=
      hfind
    have haccepted : isRequestAccepted find pid (requested s.locals) (memoryList s.data) =
        (acceptLoop pid (pagesToBytes (addressSpace s.data mm).totalVm) (requested s.locals)
          (memoryList s.data)).2 := by
      rw [isRequestAccepted, husage]
    rw [isRequestAcceptedCode, wp_block_cons, wp_peekMm, wp_block_cons, wp_mutexLock, wp_block_cons]
    refine wp_searchEntry ?_ ?_
    · -- the first entry for the pid decides
      intro i r' hi hframe hr' Q'
      obtain ⟨entry, hentry, hdecision⟩ :=
        acceptLoop_of_firstIndex (pagesToBytes (addressSpace s.data mm).totalVm)
          (requested s.locals) hi
      have husage' : r'.currentUsage = pagesToBytes (addressSpace s.data mm).totalVm := by
        rw [hframe]
      have hrequested' : requested r' = requested s.locals :=
        hrequested r' (hframe.testFrame r'.accepted r'.test)
      have hanswer : isRequestAccepted find pid (requested s.locals) (memoryList s.data) =
          !decide (r'.currentUsage + requested r' > entry.memoryLimit) := by
        rw [haccepted, husage', hrequested']
        exact hdecision
      rw [wp_ifEntry entry (by simpa [hr'] using hentry), wp_unlockAccepted rfl,
        wp_unlockAccepted rfl]
      by_cases hexceeds : r'.currentUsage + requested r' > entry.memoryLimit
      · rw [decide_eq_true hexceeds] at hanswer
        rw [if_pos (decide_eq_true hexceeds)]
        exact hR _ (hframe.testFrame false true) hanswer.symm
      · rw [decide_eq_false hexceeds] at hanswer
        rw [if_neg (ne_true_of_eq_false (decide_eq_false hexceeds))]
        exact hR _ (hframe.testFrame true false) hanswer.symm
    · intro r' hrest hframe
      refine (wp_unlockAccepted rfl true).mpr (hR _ (hframe.testFrame true r'.test) ?_)
      exact (haccepted.trans (acceptLoop_of_firstIndex_eq_none _ _ hrest)).symm

/-! ## The registry calls -/

/-- INTERNAL: a code is returned from under the mutex after the mutex is released. -/
theorem wp_unlockReturn {held : List (KernelLock μ × LockMode)}
    (h : s.held = (.memoryListMutex, .write) :: held) (code : ℤ) :
    wp (.block [mutexUnlock, returnCode code]) Q R s ↔
      R { s with held := held, locals := { s.locals with ret := code } } := by
  rw [wp_block_cons, wp_mutexUnlock h]
  rfl

/-- INTERNAL: writing the list back as it was changes nothing. -/
theorem setList_self (d : ∀ l, Guarded μ l) : setList d (memoryList d) = d :=
  Function.update_eq_self _ _

/-- The postcondition of a registry call that began in `s` and returns a code, for a code
and the list it leaves behind. -/
def Replies (R : CallState μ → Prop) (s : CallState μ) (reply : ℤ × MemoryList) : Prop :=
  ∀ r', r'.ret = reply.1 → R ⟨setList s.data reply.2, r', s.held⟩

/-- INTERNAL: a call that has not touched the list replies with its code alone. -/
theorem Replies.unchanged {code : ℤ} (h : Replies R s (code, memoryList s.data)) (r' : Regs)
    (hr' : r'.ret = code) : R ⟨s.data, r', s.held⟩ := by
  have hR := h r' hr'
  rwa [setList_self] at hR

/-- INTERNAL: the two checks that open every registry call: a bad argument, then a missing
capability, each answered before the mutex is taken. -/
theorem wp_checks {invalid : Bool} {a : Answers} {rest : List (Code μ)}
    (hinvalid : invalid = true → Replies R s (EINVAL.neg, memoryList s.data))
    (hcapable : invalid = false → a.capable = false → Replies R s (EPERM.neg, memoryList s.data))
    (hpass : invalid = false → a.capable = true → wp (.block rest) Q R s) :
    wp (.block (.ifThen (fun _ => invalid) (returnCode EINVAL.neg) ::
      .ifThen (fun _ => !a.capable) (returnCode EPERM.neg) :: rest)) Q R s := by
  rw [wp_block_cons]
  refine wp_ifThen (fun h => (wp_returnCode _).mpr ((hinvalid h).unchanged _ rfl)) fun hvalid => ?_
  rw [wp_block_cons]
  refine wp_ifThen (fun h => ?_) fun h => ?_
  · exact (wp_returnCode _).mpr ((hcapable hvalid (by simpa using h)).unchanged _ rfl)
  · exact hpass hvalid (by simpa using h)

/-- INTERNAL: the program of `add` replies as `julioz_add_memory_limit` does. -/
theorem wp_addCode {a : Answers} {pid : PidT} {limit : ULong}
    (hR : Replies R s (juliozAddMemoryLimit a pid limit (memoryList s.data))) :
    wp (addCode a pid limit) Q R s := by
  unfold juliozAddMemoryLimit addChecks at hR
  refine wp_checks (fun h => by simpa [h] using hR) (fun h h' => by simpa [h, h'] using hR)
    fun hvalid hcapable => ?_
  rw [wp_block_cons]
  refine wp_ifThen (fun h => ?_) fun htask => ?_
  · have hR : Replies R s (ESRCH.neg, memoryList s.data) := by
      simpa [hvalid, hcapable, h] using hR
    exact (wp_returnCode _).mpr (hR.unchanged _ rfl)
  -- from here on the mutex is held, and each way out gives it back
  have hR : Replies R s (addLocked a pid limit (memoryList s.data)) := by
    simpa [hvalid, hcapable, htask] using hR
  unfold addLocked at hR
  rw [listed_eq_firstIndex] at hR
  rw [wp_block_cons, wp_mutexLock, wp_block_cons]
  refine wp_searchEntry (fun i r' hi _ _ Q' => ?_) fun r' hi _ => ?_
  · have hi : firstIndex pid (memoryList s.data) = some i := hi
    have hR : Replies R s (-101, memoryList s.data) := by simpa [hi] using hR
    exact (wp_unlockReturn rfl _).mpr (hR.unchanged _ rfl)
  · have hi : firstIndex pid (memoryList s.data) = none := hi
    rw [wp_block_cons]
    refine wp_ifThen (fun hkmalloc => ?_) fun hkmalloc => ?_
    · have hR : Replies R s (ENOMEM.neg, memoryList s.data) := by
        simpa [hi, (by simpa using hkmalloc : a.kmalloc = false)] using hR
      exact (wp_unlockReturn rfl _).mpr (hR.unchanged _ rfl)
    · have hR : Replies R s (0, ⟨pid, limit⟩ :: memoryList s.data) := by
        simpa [hi, (by simpa using hkmalloc : a.kmalloc = true)] using hR
      rw [wp_block_cons, wp_onList]
      exact (wp_unlockReturn rfl 0).mpr (hR _ rfl)

/-- INTERNAL: `update` and `remove` after their checks: the first entry for the pid is
changed, or there is none. -/
theorem wp_changeEntry {pid : PidT} (change : ℕ → MemoryList → MemoryList)
    (hR : Replies R s ((firstIndex pid (memoryList s.data)).elim (ESRCH.neg, memoryList s.data)
      (fun i => (0, change i (memoryList s.data))))) :
    wp (.block [
      mutexLock,
      searchEntry pid
        (.block [onList (fun r l => (r, change r.index l)), mutexUnlock, returnCode 0]),
      mutexUnlock,
      returnCode ESRCH.neg]) Q R s := by
  rw [wp_block_cons, wp_mutexLock, wp_block_cons]
  refine wp_searchEntry (fun i r' hi _ hr' Q' => ?_) fun r' hi _ => ?_
  · have hi : firstIndex pid (memoryList s.data) = some i := hi
    rw [hi, ← hr'] at hR
    rw [wp_block_cons, wp_onList]
    exact (wp_unlockReturn rfl 0).mpr (hR _ rfl)
  · have hi : firstIndex pid (memoryList s.data) = none := hi
    rw [hi] at hR
    exact (wp_unlockReturn rfl _).mpr (hR.unchanged _ rfl)

/-- INTERNAL: the program of `update` replies as `julioz_update_memory_limit` does. -/
theorem wp_updateCode {a : Answers} {pid : PidT} {limit : ULong}
    (hR : Replies R s (juliozUpdateMemoryLimit a pid limit (memoryList s.data))) :
    wp (updateCode a pid limit) Q R s := by
  unfold juliozUpdateMemoryLimit updateChecks at hR
  refine wp_checks (fun h => by simpa [h] using hR) (fun h h' => by simpa [h, h'] using hR)
    fun hvalid hcapable => ?_
  have hR : Replies R s (updateLocked pid limit (memoryList s.data)) := by
    simpa [hvalid, hcapable] using hR
  rw [updateLocked_eq_modify] at hR
  exact wp_changeEntry
    (fun i l => l.modify i (fun entry => { entry with memoryLimit := limit })) hR

/-- INTERNAL: the program of `remove` replies as `julioz_remove_memory_limit` does. -/
theorem wp_removeCode {a : Answers} {pid : PidT}
    (hR : Replies R s (juliozRemoveMemoryLimit a pid (memoryList s.data))) :
    wp (removeCode a pid) Q R s := by
  unfold juliozRemoveMemoryLimit removeChecks at hR
  refine wp_checks (fun h => ?_) (fun h h' => ?_) fun hvalid hcapable => ?_
  · simpa [of_decide_eq_true h] using hR
  · simpa [of_decide_eq_false h, h'] using hR
  have hR : Replies R s (removeLocked pid (memoryList s.data)) := by
    simpa [of_decide_eq_false hvalid, hcapable] using hR
  rw [removeLocked_eq_eraseIdx] at hR
  exact wp_changeEntry (fun i l => l.eraseIdx i) hR

/-- INTERNAL: the end of `get`, after the mutex. -/
theorem wp_getCopies {a : Answers} {mm : μ} {putFaults : ℕ}
    (hnone : s.locals.processesReturned = none)
    (hrecords : s.locals.records = userRecords s.locals.count s.locals.buffer a.copyToUser)
    (hR : ∀ r', ⟨r'.ret, r'.records, r'.processesReturned⟩ =
      getCopies a s.locals.count s.locals.buffer → R { s with locals := r' }) :
    wp (.block [
      .ifThen (fun _ => decide (a.copyToUser ≠ 0)) (returnCode EFAULT.neg),
      handleFaults mm putFaults,
      .ifThen (fun _ => a.putUser) (returnCode EFAULT.neg),
      .assign (fun r => { r with processesReturned := some r.count }),
      returnCode 0]) Q R s := by
  unfold getCopies at hR
  rw [wp_block_cons]
  refine wp_ifThen (fun h => ?_) fun hcopied => ?_
  · refine (wp_returnCode _).mpr (hR _ ?_)
    simp [of_decide_eq_true h, hrecords, hnone]
  rw [wp_block_cons, wp_handleFaults, wp_block_cons]
  refine wp_ifThen (fun h => ?_) fun hput => ?_
  · refine (wp_returnCode _).mpr (hR _ ?_)
    simp [h, hrecords, hnone]
  rw [wp_block_cons, wp_assign, wp_block_cons, wp_returnCode]
  refine hR _ ?_
  simp [of_decide_eq_false hcopied, hput, hrecords]

/-- INTERNAL: the program of `get` leaves the code, the records and the count that
`julioz_get_memory_limits` returns, and does not write the list. -/
theorem wp_getCode {a : Answers} {mm : μ} {maxEntries : ULong} {copyFaults putFaults : ℕ}
    (hR : ∀ r', ⟨r'.ret, r'.records, r'.processesReturned⟩ =
      juliozGetMemoryLimits a maxEntries (memoryList s.data) → R { s with locals := r' }) :
    wp (getCode a mm maxEntries copyFaults putFaults) Q R s := by
  unfold juliozGetMemoryLimits getChecks at hR
  rw [getCode, wp_block_cons, wp_assign, wp_block_cons]
  refine wp_ifThen (fun h => ?_) fun h => ?_
  · have hrefused : 2 ^ 64 ≤ maxEntries.toNat * sizeofMemoryLimitation ∨ ¬ a.kmalloc := by
      simpa using h
    rw [if_pos hrefused] at hR
    exact hR _ rfl
  have hroom : ¬ (2 ^ 64 ≤ maxEntries.toNat * sizeofMemoryLimitation ∨ ¬ a.kmalloc) := by
    simpa using h
  rw [if_neg hroom] at hR
  rw [wp_block_cons, wp_mutexLock, wp_block_cons]
  apply wp_fillBuffer
  intro r' hreturned hfill
  rw [wp_block_cons, wp_mutexUnlock rfl, wp_block_cons, wp_handleFaults, wp_block_cons, wp_assign]
  refine wp_getCopies hreturned rfl fun r'' hr'' => hR r'' (hr''.trans ?_)
  exact congrArg (fun filled : CInt × ProcessesBuffer => getCopies a filled.1 filled.2) hfill

/-! ## `brk` and `ksys_mmap_pgoff` -/

/-- INTERNAL: writing an address space back as it was changes nothing. -/
theorem setMm_self (d : ∀ l, Guarded μ l) (mm : μ) : setMm d mm (addressSpace d mm) = d :=
  Function.update_eq_self _ _

/-- The postcondition of a call on the address space `mm` that began in `s`, for what it
returns and the address space it leaves behind. -/
def MmReplies (R : CallState μ → Prop) (s : CallState μ) (mm : μ) (reply : ULong × MmStruct) :
    Prop :=
  ∀ r', r'.retval = reply.1 → R ⟨setMm s.data mm reply.2, r', s.held⟩

/-- INTERNAL: a call that has not touched its address space replies with its word alone. -/
theorem MmReplies.unchanged {mm : μ} {value : ULong}
    (h : MmReplies R s mm (value, addressSpace s.data mm)) (r' : Regs)
    (hr' : r'.retval = value) : R ⟨s.data, r', s.held⟩ := by
  have hR := h r' hr'
  rwa [setMm_self] at hR

/-- INTERNAL: taking an `mmap_lock` adds it to the held locks. -/
theorem wp_mmapLock (mm : μ) (m : LockMode) :
    wp (.lock (.mmapLock mm) m) Q R s ↔ Q { s with held := (.mmapLock mm, m) :: s.held } := Iff.rfl

/-- INTERNAL: releasing an `mmap_lock`, as the last lock taken, drops it in whichever mode it is
held. -/
theorem wp_mmapUnlock {mm : μ} {m : LockMode} {held : List (KernelLock μ × LockMode)}
    (h : s.held = (.mmapLock mm, m) :: held) :
    wp (.unlock (.mmapLock mm)) Q R s ↔ Q { s with held := held } := by
  simp [wp, release, h]

/-- INTERNAL: the `out` label of `brk` restores the break it started from, unlocks, and returns
that break. -/
theorem wp_brkOutCode {mm : μ} {held : List (KernelLock μ × LockMode)}
    (h : s.held = (.mmapLock mm, .write) :: held) :
    wp (brkOutCode mm) Q R s ↔
      R ⟨setMm s.data mm { addressSpace s.data mm with brk := s.locals.origbrk },
        { s.locals with retval := s.locals.origbrk }, held⟩ := by
  rw [brkOutCode, wp_block_cons, wp_onMm, wp_block_cons]
  exact wp_mmapUnlock (s := ⟨_, _, s.held⟩) h

/-- INTERNAL: `brk` unlocks by way of a downgrade after it has shrunk the heap and at once
otherwise, with the same result. -/
theorem wp_brkUnlock {mm : μ} {held : List (KernelLock μ × LockMode)}
    (h : s.held = (.mmapLock mm, .write) :: held) :
    wp (.ite (fun r => r.shrunk)
      (.block [.downgrade (.mmapLock mm), .unlock (.mmapLock mm)])
      (.unlock (.mmapLock mm))) Q R s ↔ Q { s with held := held } := by
  cases hshrunk : s.locals.shrunk <;> simp [wp, Stmt.block, release, demote, h, hshrunk]

/-- INTERNAL: the part of `brk` after the test. -/
theorem wp_brkTested {mm : μ} {env : MmEnv} {addr : ULong} {populateFaults : ℕ}
    {held : List (KernelLock μ × LockMode)} (hheld : s.held = (.mmapLock mm, .write) :: held)
    (horigbrk : s.locals.origbrk = (addressSpace s.data mm).brk)
    (hR : MmReplies R { s with held := held } mm
      (if ¬ s.locals.accepted then brkOut (addressSpace s.data mm).brk (addressSpace s.data mm)
      else brkApply env (addressSpace s.data mm) addr s.locals.newbrk s.locals.oldbrk)) :
    wp (.block [
      .ifThen (fun r => !r.accepted) (brkOutCode mm),
      onMm mm (fun r mm =>
        ({ r with
            retval := (brkApply env mm addr r.newbrk r.oldbrk).1
            shrunk := brkShrinks env mm addr r.newbrk r.oldbrk },
          (brkApply env mm addr r.newbrk r.oldbrk).2)),
      .ite (fun r => r.shrunk)
        (.block [.downgrade (.mmapLock mm), .unlock (.mmapLock mm)])
        (.unlock (.mmapLock mm)),
      handleFaults mm populateFaults,
      .ret]) Q R s := by
  rw [wp_block_cons]
  refine wp_ifThen (fun h => ?_) fun haccepted => ?_
  · rw [if_pos (by simpa using h), brkOut, ← horigbrk] at hR
    exact (wp_brkOutCode hheld).mpr (hR _ rfl)
  · rw [if_neg (by simpa using haccepted)] at hR
    rw [wp_block_cons, wp_onMm, wp_block_cons]
    refine (wp_brkUnlock (by exact hheld)).mpr ?_
    rw [wp_block_cons, wp_handleFaults]
    exact hR _ rfl

/-- INTERNAL: the program of `brk` returns and leaves behind what the function says. -/
theorem wp_brkCode {mm : μ} {env : MmEnv} {find : PidT → Option TaskStruct}
    {current : TaskStruct} {target : Option (Option μ)} {addr : ULong} {populateFaults : ℕ}
    (hfind : FindsTarget s.data find current.pid target)
    (hR : MmReplies R s mm
      (brk env find current (memoryList s.data) (addressSpace s.data mm) addr)) :
    wp (brkCode mm env target current.pid addr populateFaults) Q R s := by
  unfold brk at hR
  rw [brkCode, wp_block_cons]
  refine wp_ifThen (fun h => ?_) fun hlock => ?_
  · rw [if_pos h] at hR
    exact (wp_returnValue _).mpr (hR.unchanged _ rfl)
  rw [if_neg (ne_true_of_eq_false hlock)] at hR
  rw [wp_block_cons, wp_mmapLock, wp_block_cons, wp_onMm, setMm_self, wp_block_cons]
  refine wp_ifThen (fun h => ?_) fun hrefused => ?_
  · rw [if_pos h] at hR
    exact (wp_brkOutCode rfl).mpr (hR _ rfl)
  rw [if_neg (ne_true_of_eq_false hrefused)] at hR
  rw [wp_block_cons, wp_call]
  refine wp_isRequestAcceptedCode find (by exact hfind) ?_ fun r' hframe haccepted => ?_
  · intro r' hframe
    rw [hframe]
  · -- the test has left the breaks that were read before it
    have haccepted : r'.accepted = isRequestAccepted find current.pid
        (pageAlign addr - pageAlign (addressSpace s.data mm).brk) (memoryList s.data) := haccepted
    have hnewbrk : r'.newbrk = pageAlign addr := by rw [hframe]
    have holdbrk : r'.oldbrk = pageAlign (addressSpace s.data mm).brk := by rw [hframe]
    refine wp_brkTested rfl (by rw [hframe]) ?_
    simp only [haccepted, hnewbrk, holdbrk]
    exact hR

/-- INTERNAL: the program of `vm_mmap_pgoff` returns and leaves behind what the function says.
-/
theorem wp_vmMmapPgoffCode {mm : μ} {env : MmEnv} {file : Option File}
    {addr len prot flags pgoff : ULong} {populateFaults : ℕ}
    (hR : MmReplies R s mm
      (vmMmapPgoff env (addressSpace s.data mm) file addr len prot flags pgoff)) :
    wp (vmMmapPgoffCode mm env file addr len prot flags pgoff populateFaults) Q R s := by
  unfold vmMmapPgoff at hR
  unfold vmMmapPgoffCode
  cases hsecurity : env.securityMmapFile with
  | some e =>
    simp only [hsecurity] at hR
    exact (wp_returnValue _).mpr (hR.unchanged _ rfl)
  | none =>
    simp only [hsecurity] at hR
    rw [wp_block_cons]
    refine wp_ifThen (fun h => ?_) fun hlock => ?_
    · rw [if_pos h] at hR
      exact (wp_returnValue _).mpr (hR.unchanged _ rfl)
    · rw [if_neg (ne_true_of_eq_false hlock)] at hR
      rw [wp_block_cons, wp_mmapLock, wp_block_cons, wp_onMm, wp_block_cons, wp_mmapUnlock rfl,
        wp_block_cons, wp_handleFaults]
      exact hR _ rfl

/-- INTERNAL: the program of `ksys_mmap_pgoff` returns and leaves behind what the function says,
also where the request is refused. -/
theorem wp_ksysMmapPgoffCode {mm : μ} {env : MmEnv} {find : PidT → Option TaskStruct}
    {current : TaskStruct} {target : Option (Option μ)} {args : MmapArgs} {populateFaults : ℕ}
    (hfind : FindsTarget s.data find current.pid target)
    (hR : MmReplies R s mm
      (ksysMmapPgoff env find current (memoryList s.data) (addressSpace s.data mm) args)) :
    wp (ksysMmapPgoffCode mm env target current.pid args populateFaults) Q R s := by
  unfold ksysMmapPgoff at hR
  unfold ksysMmapPgoffCode
  cases hfile : mmapFile env args with
  | error e =>
    simp only [hfile] at hR
    exact (wp_returnValue _).mpr (hR.unchanged _ rfl)
  | ok p =>
    obtain ⟨file, len⟩ := p
    simp only [hfile] at hR ⊢
    rw [wp_block_cons, wp_call]
    refine wp_isRequestAcceptedCode find hfind (fun _ _ => rfl) fun r' hframe haccepted => ?_
    rw [wp_block_cons]
    refine wp_ifThen (fun h => ?_) fun h => ?_
    · have hno : isRequestAccepted find current.pid len (memoryList s.data) = false :=
        haccepted ▸ (by simpa using h)
      rw [if_pos (by simp [hno])] at hR
      exact (wp_returnValue _).mpr (hR.unchanged _ rfl)
    · have hyes : isRequestAccepted find current.pid len (memoryList s.data) = true :=
        haccepted ▸ (by simpa using h)
      rw [if_neg (by simp [hyes])] at hR
      rw [wp_block_cons, wp_call]
      exact wp_vmMmapPgoffCode fun r'' hr'' => hR r'' hr''

end Steps

/-! ## The calls in the whole system -/

/-- The task that makes the call, and the task lookup it makes. -/
def CallMadeBy {μ : Type} (d : ∀ l, Guarded μ l) (find : PidT → Option TaskStruct)
    (current : TaskStruct) : KernelCall μ → Prop
  | .brk _ _ target pid _ _ => pid = current.pid ∧ FindsTarget d find pid target
  | .mmap _ _ target pid _ _ => pid = current.pid ∧ FindsTarget d find pid target
  | _ => True

/-- What the functional model says that a call does: the data before it, what it returns,
the data after it. -/
def Computes {μ : Type} [DecidableEq μ] (find : PidT → Option TaskStruct)
    (current : TaskStruct) (d : ∀ l, Guarded μ l) (r : Regs) (d' : ∀ l, Guarded μ l) :
    KernelCall μ → Prop
  | .brk mm env _ _ addr _ =>
    r.retval = (brk env find current (memoryList d) (addressSpace d mm) addr).1 ∧
      d' = setMm d mm (brk env find current (memoryList d) (addressSpace d mm) addr).2
  | .mmap mm env _ _ args _ =>
    r.retval = (ksysMmapPgoff env find current (memoryList d) (addressSpace d mm) args).1 ∧
      d' = setMm d mm (ksysMmapPgoff env find current (memoryList d) (addressSpace d mm) args).2
  | .add a pid limit =>
    r.ret = (juliozAddMemoryLimit a pid limit (memoryList d)).1 ∧
      d' = setList d (juliozAddMemoryLimit a pid limit (memoryList d)).2
  | .get a _ maxEntries _ _ =>
    ⟨r.ret, r.records, r.processesReturned⟩ = juliozGetMemoryLimits a maxEntries (memoryList d) ∧
      d' = d
  | .update a pid limit =>
    r.ret = (juliozUpdateMemoryLimit a pid limit (memoryList d)).1 ∧
      d' = setList d (juliozUpdateMemoryLimit a pid limit (memoryList d)).2
  | .remove a pid =>
    r.ret = (juliozRemoveMemoryLimit a pid (memoryList d)).1 ∧
      d' = setList d (juliozRemoveMemoryLimit a pid (memoryList d)).2

/-- INTERNAL: every program comes to its end with what the functional model says. -/
theorem wp_code {μ : Type} [DecidableEq μ] (call : KernelCall μ) {s : CallState μ}
    {find : PidT → Option TaskStruct} {current : TaskStruct}
    (hcall : CallMadeBy s.data find current call) {Q : CallState μ → Prop} :
    wp call.code Q (fun s' => Computes find current s.data s'.locals s'.data call) s := by
  cases call with
  | brk mm env target pid addr faults =>
    obtain ⟨rfl, hfind⟩ := hcall
    exact wp_brkCode hfind fun r' hr' => ⟨hr', rfl⟩
  | mmap mm env target pid args faults =>
    obtain ⟨rfl, hfind⟩ := hcall
    exact wp_ksysMmapPgoffCode hfind fun r' hr' => ⟨hr', rfl⟩
  | add a pid limit => exact wp_addCode fun r' hr' => ⟨hr', rfl⟩
  | get a mm maxEntries copyFaults putFaults => exact wp_getCode fun r' hr' => ⟨hr', rfl⟩
  | update a pid limit => exact wp_updateCode fun r' hr' => ⟨hr', rfl⟩
  | remove a pid => exact wp_removeCode fun r' hr' => ⟨hr', rfl⟩

/-- MAIN: **The programs and the functions are the same calls.** A task that starts a call
while no other task holds a lock comes to the end of it, holding nothing, and returns and
leaves behind what the functional model says. -/
theorem ReachableState.call_runs {κ μ : Type} [DecidableEq κ] [DecidableEq μ]
    {c : KernelState κ μ} (hc : ReachableState c) {t : κ} (hidle : (c.thread t).control = [])
    (hothers : ∀ u, u ≠ t → (c.thread u).held = []) (call : KernelCall μ)
    {find : PidT → Option TaskStruct} {current : TaskStruct}
    (hcall : CallMadeBy c.data find current call) (r : Regs) :
    ∃ d' r', Computes find current c.data r' d' call ∧
      ReachableState (⟨d', Function.update c.thread t ⟨[], r', []⟩⟩ : KernelState κ μ) := by
  have hwp := wp_code call (s := ⟨c.data, r, []⟩) hcall
    (Q := fun s' => Computes find current c.data s'.locals s'.data call)
  obtain ⟨d', r', hcomputes, hmoves⟩ :=
    hc.sound.runs disciplined_programs hidle hothers (Set.mem_range_self call) r hwp
  obtain ⟨d, x, hreach⟩ := hc
  exact ⟨d', r', hcomputes, d, x, hreach.trans hmoves⟩

end UsacKernel.Analysis
