import UsacKernel.Analysis.ListMapping

/-!
# `brk` in both models

`brk` makes its tests on the marks and counters, which are the same in both models, and on the
areas next to the break. The list may have other pieces there than the tree has areas, but the
test for the guard gap does not depend on that (`Shows.guardGap_eq`).
-/

set_option autoImplicit false

namespace UsacKernel.Analysis

open UsacKernel.Computation UsacKernel.Model UsacKernel.Interface IndexedHeap

section Brk

variable {as : AddressSpace} {mm : MmStruct} {leak : ℤ}

/-- INTERNAL: the break, the data segment and the default flags are those of the tree. -/
theorem Shows.marks (hs : Shows as mm) :
    mm.brk = as.counters.brk ∧ mm.startBrk = as.counters.startBrk ∧
      mm.startData = as.counters.startData ∧ mm.endData = as.counters.endData ∧
      mm.defFlags = as.counters.defFlags := by
  have hlayout := hs.layout_eq
  unfold layout at hlayout
  simp only [Prod.mk.injEq] at hlayout
  exact hlayout

/-- INTERNAL: moving the break shows. -/
theorem Shows.setBrk (hs : Shows as mm) (brk : ULong) :
    Shows (as.setBrk brk) { mm with brk := brk } := by
  refine ⟨⟨hs.space.ok, fun k => ?_⟩, hs.meaning_eq, ?_⟩
  · rw [← hs.space.counters k]
    cases k <;> rfl
  · exact congrArg (fun l => (brk, l.2)) hs.layout_eq

/-- INTERNAL: the limits of `brk` are checked on the same values.
SOURCE: mm/mmap.c:168-178 -/
theorem Shows.checkBrkLimits_eq (hs : Shows as mm) (h : Consistent as leak) (env : MmEnv)
    (c : CoarseAnswers) (addr len : ULong) :
    checkBrkLimits (answering env c) mm addr len = checkBrkLimits env as.toMm addr len := by
  have hlocked : mm.lockedVm = as.toMm.lockedVm := hs.counter_eq h .locked
  have hdef : mm.defFlags = as.toMm.defFlags := hs.marks.2.2.2.2
  unfold checkBrkLimits mlockFutureOk
  rw [hlocked, hdef]
  rfl

/-- INTERNAL: the list refuses a heap when it is told so. -/
theorem doBrkFlags_refused (env : MmEnv) {c : CoarseAnswers} (hc : c.regionError = some ENOMEM)
    (mm : MmStruct) (addr len : ULong) :
    doBrkFlags (answering env c) mm addr len = (some ENOMEM, mm) := by
  have herror : (answering env c).regionError.isSome = true := by
    show c.regionError.isSome = true
    rw [hc]
    rfl
  unfold doBrkFlags
  dsimp only
  rw [if_pos herror]
  split_ifs <;> rfl

/-- INTERNAL: `do_brk_flags` in both models, over a free range.
SOURCE: mm/mmap.c:3149-3228 -/
theorem doBrkFlags_shows {A B : List Cell} {addr len : ULong} {vma : Option Ptr} (env : MmEnv)
    (ans : BrkAnswers) (hdef : DefFlagsOk as.counters) (hholds : Holds as (A ++ B))
    (hacc : Accounted as (A ++ B) leak) (hlock : LockOk (cellsMeaning (A ++ B)))
    (hr : PageRange addr (addr + len)) (hA : ∀ c ∈ A, c.2.vmEnd.toNat ≤ addr.toNat)
    (hB : ∀ c ∈ B, (addr + len).toNat ≤ c.2.vmStart.toNat)
    (hvma : ∀ p ∈ vma, A.getLast?.map Prod.fst = some p) (hs : Shows as mm) :
    ∃ regionError, ∀ c : CoarseAnswers, c.regionError = regionError →
      mm.mapCount < c.maxMapCount →
      SameOutcome (as.doBrkFlags env ans vma addr len 0)
          (doBrkFlags (answering env c) mm addr len) ∧
        (as.doBrkFlags env ans vma addr len 0).2.counters.brk = as.counters.brk := by
  have h : Consistent as leak := ⟨⟨A ++ B, hholds, hacc⟩, hholds.meaning_eq ▸ hlock⟩
  have hzero : (0 : ULong) &&& heapMask = 0 := by decide
  rcases doBrkFlags_outcome env ans hdef hzero hholds hacc hlock hr hA hB hvma with
    heq | ⟨as', heq, hb⟩
  · refine ⟨some ENOMEM, fun c hc _ => ?_⟩
    rw [heq, doBrkFlags_refused env hc]
    exact ⟨⟨rfl, hs⟩, rfl⟩
  refine ⟨none, fun c hc hmax => ?_⟩
  obtain ⟨hlimit, hallowed⟩ := doBrkFlags_tests as env ans vma addr len 0 (by rw [heq])
  have hfl : vmDataDefaultFlags (answering env c) ||| VM_ACCOUNT ||| mm.defFlags =
      brkFlags env as.counters 0 := by
    unfold brkFlags
    rw [hs.marks.2.2.2.2, BitVec.or_assoc, BitVec.or_assoc, BitVec.or_assoc]
    exact BitVec.zero_or.symm
  rw [← hs.mayExpandVm_eq h env c] at hlimit
  have hlist : doBrkFlags (answering env c) mm addr len = (none,
      { mm with
        vmas := insertVma mm ⟨addr, addr + len, brkFlags env as.counters 0⟩
        mapCount := if (answering env c).merges then mm.mapCount else mm.mapCount + 1
        totalVm := mm.totalVm + bytesToPages len
        dataVm := mm.dataVm + bytesToPages len
        lockedVm := if hasFlag (brkFlags env as.counters 0) VM_LOCKED then
          mm.lockedVm + bytesToPages len else mm.lockedVm }) := by
    have hcount : ¬ (answering env c).sysctlMaxMapCount < mm.mapCount := hmax.not_gt
    have hsec : ¬ (answering env c).securityVmEnoughMemory (bytesToPages len) = true :=
      Bool.eq_false_iff.mp hallowed
    have herror : ¬ (answering env c).regionError.isSome = true := by
      show ¬ c.regionError.isSome = true
      rw [hc]
      exact Bool.false_ne_true
    unfold doBrkFlags
    dsimp only
    rw [hfl, if_neg (not_not_intro hlimit), if_neg hcount, if_neg hsec, if_neg herror]
  rw [heq, hlist]
  refine ⟨⟨rfl, ?_⟩, congrArg (fun l => l.1) hb.layout_eq⟩
  rw [← hholds.meaning_eq] at hb
  refine hs.mapped (v := ⟨addr, addr + len, brkFlags env as.counters 0⟩) hb hr
    (hholds.meaning_eq ▸ free_between hA hB) (plainAttr_clear _).symm rfl (fun k => ?_) rfl
  refine congrArg k.counter ?_
  unfold countMapped
  rw [vmaPages_length, vmStatAccount_data (brkFlags_data env hdef hzero)]
  split_ifs <;> rfl

/-- INTERNAL: `brk` finds the next area too near in both models or in none.
SOURCE: mm/mmap.c:262-265 -/
theorem Shows.guardGap_eq (hs : Shows as mm) (h : Consistent as leak) (env : MmEnv)
    (start stop top : ULong) (hlt : start.toNat < stop.toNat) (htop : start.toNat < top.toNat) :
    (vmaFind mm start stop).any (fun next => decide (top > vmStartGap env next)) =
      (as.findVmaIntersection start stop).any (fun next =>
        decide (top > vmStartGap env (as.heap next).area)) := by
  have htree := h.shows_toMm
  rw [guardGap_congr env htree.space.ok hs.space.ok (hs.meaning_eq.trans htree.meaning_eq.symm) hlt
    htop, vmaFind_toMm h hlt, Option.any_map]

/-- INTERNAL: `brk` that takes pages away, in both models.
SOURCE: mm/mmap.c:236-253 -/
theorem brkShrink_shows (env : MmEnv) (ans : BrkAnswers) (h : Consistent as leak)
    (hs : Shows as mm) {brk newbrk oldbrk : ULong} (hr : PageRange newbrk oldbrk)
    (hne : ¬ oldbrk = newbrk) (hshrinks : brk ≤ as.counters.brk) :
    ∃ c, SameOutcome (as.brkApply env ans brk newbrk oldbrk)
      (brkApply (answering env c) mm brk newbrk oldbrk) := by
  obtain ⟨hbrk, -⟩ := hs.marks
  unfold AddressSpace.brkApply brkApply
  dsimp only
  simp only [if_neg hne, hbrk, if_pos hshrinks]
  cases hfind : as.findVmaIntersection newbrk oldbrk with
  | none =>
    rw [(hs.vmaFind_eq_none h hr.lt).mpr hfind]
    exact ⟨coarse 0 none false none 0 true, hbrk ▸ ⟨rfl, hs⟩⟩
  | some p =>
    cases hfound : vmaFind mm newbrk oldbrk with
    | none =>
      rw [(hs.vmaFind_eq_none h hr.lt).mp hfound] at hfind
      cases hfind
    | some vma =>
      -- what was found begins below the old break
      have hstart : ¬ (as.heap p).vmStart ≥ oldbrk := by
        have htree := vmaFind_toMm h hr.lt
        rw [hfind, Option.map_some] at htree
        have hlt := (vmaFind_first h.shows_toMm.space.ok htree).1
        exact fun hcon => absurd (BitVec.le_def.mp hcon) (Nat.not_le.mpr hlt)
      have hstart' : ¬ vma.vmStart ≥ oldbrk := fun hcon =>
        absurd (BitVec.le_def.mp hcon) (Nat.not_le.mpr (vmaFind_first hs.space.ok hfound).1)
      obtain ⟨error, hunmap⟩ := doVmiAlignMunmap_shows env ans.munmap (h.setBrk brk)
        (hs.setBrk brk) hr vma hfind
      have hsame := hunmap (coarse (mm.mapCount + 1) error false none 0 true) rfl (lt_add_one _)
      refine ⟨coarse (mm.mapCount + 1) error false none 0 true, ?_⟩
      dsimp only
      rw [if_neg hstart, if_neg hstart']
      cases hresult : (as.setBrk brk).doVmiAlignMunmap env ans.munmap p newbrk oldbrk with
      | mk r as' =>
        rw [hresult] at hsame
        obtain ⟨mm', hmm', hs'⟩ := hsame.eq_pair
        rw [hmm']
        cases r with
        | none => exact ⟨rfl, hs'⟩
        | some e => exact ⟨rfl, hs'.setBrk as.counters.brk⟩

section Growth

variable (env : MmEnv) {brk newbrk oldbrk : ULong}

/-- The next area is too near for a break at `newbrk`.
SOURCE: mm/mmap.c:262-265 -/
def tooNear (env : MmEnv) (mm : MmStruct) (newbrk oldbrk : ULong) : Bool :=
  (vmaFind mm oldbrk (newbrk + BitVec.ofNat 64 pageSize + env.stackGuardGap)).any
    (fun next => decide (newbrk + BitVec.ofNat 64 pageSize > vmStartGap env next))

/-- INTERNAL: a growing `brk` on the list that fails one of its tests. -/
theorem brkApply_refused (hne : ¬ oldbrk = newbrk) (hgrows : ¬ brk ≤ mm.brk)
    (h : checkBrkLimits env mm oldbrk (newbrk - oldbrk) = false ∨
      tooNear env mm newbrk oldbrk = true) :
    brkApply env mm brk newbrk oldbrk = brkOut mm.brk mm := by
  unfold brkApply
  rw [if_neg hne, if_neg hgrows]
  by_cases hlimits : checkBrkLimits env mm oldbrk (newbrk - oldbrk) = true
  · rw [if_neg (not_not_intro hlimits)]
    exact if_pos (h.resolve_left fun hcon => by rw [hlimits] at hcon; cases hcon)
  · exact if_pos hlimits

/-- INTERNAL: a growing `brk` on the list that passes its tests. -/
theorem brkApply_grows (hne : ¬ oldbrk = newbrk) (hgrows : ¬ brk ≤ mm.brk)
    (hlimits : checkBrkLimits env mm oldbrk (newbrk - oldbrk) = true)
    (hfar : ¬ tooNear env mm newbrk oldbrk = true) {r : Option Errno} {mm' : MmStruct}
    (hresult : doBrkFlags env mm oldbrk (newbrk - oldbrk) = (r, mm')) :
    brkApply env mm brk newbrk oldbrk =
      if r.isSome then brkOut mm.brk mm' else (brk, { mm' with brk := brk }) := by
  unfold brkApply
  rw [if_neg hne, if_neg hgrows, if_neg (not_not_intro hlimits)]
  refine (if_neg hfar).trans ?_
  rw [hresult]
  cases r <;> rfl

end Growth

/-- INTERNAL: `brk` that adds pages, in both models.
SOURCE: mm/mmap.c:255-287 -/
theorem brkGrow_shows (env : MmEnv) (ans : BrkAnswers) (hfixed : FixedStays env)
    (hgap : env.stackGuardGap.toNat ≤ 2 ^ 56) (h : Consistent as leak)
    (hdef : DefFlagsOk as.counters) (hs : Shows as mm) {brk : ULong}
    (hsame : ¬ pageAlign as.counters.brk = pageAlign brk) (hshrinks : ¬ brk ≤ as.counters.brk) :
    ∃ c, SameOutcome (as.brkApply env ans brk (pageAlign brk) (pageAlign as.counters.brk))
      (brkApply (answering env c) mm brk (pageAlign brk) (pageAlign as.counters.brk)) := by
  obtain ⟨cells, hholds, hacc⟩ := h.areas
  obtain ⟨hbrk, -⟩ := hs.marks
  have hkept : SameOutcome (as.counters.brk, as) (brkOut mm.brk mm) := ⟨hbrk, hs⟩
  have hne : (pageAlign as.counters.brk).toNat ≠ (pageAlign brk).toNat := fun heq =>
    hsame (BitVec.eq_of_toNat_eq heq)
  have hshrinks' : ¬ brk ≤ mm.brk := hbrk ▸ hshrinks
  have hlimitsEq : ∀ c : CoarseAnswers, checkBrkLimits (answering env c) mm
      (pageAlign as.counters.brk) (pageAlign brk - pageAlign as.counters.brk) =
        checkBrkLimits env as.toMm (pageAlign as.counters.brk)
          (pageAlign brk - pageAlign as.counters.brk) :=
    fun c => hs.checkBrkLimits_eq h env c _ _
  unfold AddressSpace.brkApply
  dsimp only
  rw [if_neg hsame, if_neg hshrinks]
  by_cases hlimits : checkBrkLimits env as.toMm (pageAlign as.counters.brk)
      (pageAlign brk - pageAlign as.counters.brk) = true
  · rw [if_neg (not_not_intro hlimits)]
    obtain ⟨hgrows, huser'⟩ := checkBrkLimits_range env hfixed hlimits
    obtain ⟨htop, hwindow⟩ := guardWindow_toNat env hgap huser'
    have hnear : ∀ c : CoarseAnswers,
        tooNear (answering env c) mm (pageAlign brk) (pageAlign as.counters.brk) =
          (as.findVmaIntersection (pageAlign as.counters.brk)
            (pageAlign brk + BitVec.ofNat 64 pageSize + env.stackGuardGap)).any (fun next =>
              decide (pageAlign brk + BitVec.ofNat 64 pageSize >
                vmStartGap env (as.heap next).area)) :=
      fun _ => hs.guardGap_eq h env (pageAlign as.counters.brk)
        (pageAlign brk + BitVec.ofNat 64 pageSize + env.stackGuardGap)
        (pageAlign brk + BitVec.ofNat 64 pageSize) (by omega) (by omega)
    by_cases hnext : (as.findVmaIntersection (pageAlign as.counters.brk)
        (pageAlign brk + BitVec.ofNat 64 pageSize + env.stackGuardGap)).any (fun next =>
          decide (pageAlign brk + BitVec.ofNat 64 pageSize >
            vmStartGap env (as.heap next).area)) = true
    · refine ⟨coarse 0 none false none 0 true, ?_⟩
      rw [if_pos hnext, brkApply_refused _ hsame hshrinks' (Or.inr ((hnear _).trans hnext))]
      exact hkept
    · rw [if_neg hnext]
      obtain ⟨hr, A, B, rfl, hA, hB, hbrkvma⟩ := brk_site env hfixed hgap hholds hne hlimits hnext
      have hstop : pageAlign as.counters.brk + (pageAlign brk - pageAlign as.counters.brk) =
          pageAlign brk := by ring
      have hlock : LockOk (cellsMeaning (A ++ B)) := hholds.meaning_eq ▸ h.lockOk
      have hr' : PageRange (pageAlign as.counters.brk) (pageAlign as.counters.brk +
          (pageAlign brk - pageAlign as.counters.brk)) := hstop.symm ▸ hr
      have hB' : ∀ c ∈ B, (pageAlign as.counters.brk +
          (pageAlign brk - pageAlign as.counters.brk)).toNat ≤ c.2.vmStart.toNat :=
        hstop.symm ▸ hB
      obtain ⟨error, hgrow⟩ := doBrkFlags_shows env ans hdef hholds hacc hlock hr' hA hB' hbrkvma hs
      obtain ⟨hgrown, hkeeps⟩ := hgrow (coarse (mm.mapCount + 1) none false error 0 true) rfl
        (lt_add_one _)
      refine ⟨coarse (mm.mapCount + 1) none false error 0 true, ?_⟩
      cases hresult : as.doBrkFlags env ans ((as.vmaPrev (pageAlign as.counters.brk)).filter
          (fun p => decide (as.counters.startBrk < (as.heap p).vmEnd))) (pageAlign as.counters.brk)
          (pageAlign brk - pageAlign as.counters.brk) 0 with
      | mk r as' =>
        rw [hresult] at hgrown hkeeps
        obtain ⟨mm', hmm', hs'⟩ := hgrown.eq_pair
        rw [brkApply_grows _ hsame hshrinks' ((hlimitsEq _).trans hlimits)
          (fun hcon => hnext ((hnear _).symm.trans hcon)) hmm']
        cases r with
        | none => exact ⟨rfl, hs'.setBrk brk⟩
        | some e =>
          have hbrk' : mm'.brk = mm.brk := hs'.marks.1.trans (hkeeps.trans hbrk.symm)
          have hout : brkOut mm.brk mm' = (mm.brk, mm') := by
            rw [← hbrk']
            rfl
          rw [Option.isSome_some, if_pos rfl, hout]
          exact ⟨hbrk, hs'⟩
  · refine ⟨coarse 0 none false none 0 true, ?_⟩
    rw [if_pos hlimits, brkApply_refused _ hsame hshrinks'
      (Or.inl ((hlimitsEq _).trans (Bool.eq_false_iff.mpr hlimits)))]
    exact hkept

/-- INTERNAL: `brk` after its tests, in both models.
SOURCE: mm/mmap.c:231-287 -/
theorem brkApply_shows (env : MmEnv) (ans : BrkAnswers) (hfixed : FixedStays env)
    (hgap : env.stackGuardGap.toNat ≤ 2 ^ 56) (h : Consistent as leak)
    (hdef : DefFlagsOk as.counters) (huser : as.counters.brk.toNat ≤ 2 ^ 56) (hs : Shows as mm)
    (brk : ULong) :
    ∃ c, SameOutcome (as.brkApply env ans brk (pageAlign brk) (pageAlign as.counters.brk))
      (brkApply (answering env c) mm brk (pageAlign brk) (pageAlign as.counters.brk)) := by
  by_cases hsame : pageAlign as.counters.brk = pageAlign brk
  · refine ⟨coarse 0 none false none 0 true, ?_⟩
    rw [AddressSpace.brkApply, brkApply, if_pos hsame, if_pos hsame]
    exact ⟨rfl, hs.setBrk brk⟩
  by_cases hshrinks : brk ≤ as.counters.brk
  · have hle := BitVec.le_def.mp hshrinks
    have holdAlign := pageAlign_toNat as.counters.brk
    have hnewAlign := pageAlign_toNat brk
    have hne : (pageAlign as.counters.brk).toNat ≠ (pageAlign brk).toNat := fun heq =>
      hsame (BitVec.eq_of_toNat_eq heq)
    exact brkShrink_shows env ans h hs
      ⟨by omega, pageAlign_mod brk, pageAlign_mod as.counters.brk, by omega⟩ hsame hshrinks
  · exact brkGrow_shows env ans hfixed hgap h hdef hs hsame hshrinks

/-- MAIN: **`brk`** in both models: for every outcome on the tree there are answers under which the
list model returns the same and shows the tree afterwards.
SOURCE: mm/mmap.c:181-288 -/
theorem brk_shows (env : MmEnv) (ans : BrkAnswers) (find : PidT → Option TaskStruct)
    (current : TaskStruct) (l : MemoryList) (hfixed : FixedStays env)
    (hgap : env.stackGuardGap.toNat ≤ 2 ^ 56) (h : Consistent as leak)
    (hdef : DefFlagsOk as.counters) (huser : as.counters.brk.toNat ≤ 2 ^ 56) (hs : Shows as mm)
    (value : ULong) :
    ∃ c, SameOutcome (as.brk env ans find current l value)
      (brk (answering env c) find current l mm value) := by
  obtain ⟨hbrk, hstartBrk, hstartData, hendData, -⟩ := hs.marks
  have hkept : SameOutcome (as.counters.brk, as) (brkOut mm.brk mm) := ⟨hbrk, hs⟩
  have hlist : ∀ c : CoarseAnswers, brk (answering env c) find current l mm value =
      if env.lockKilled then (EINTR.ptr, mm)
      else if brkRefused env as.toMm value then brkOut mm.brk mm
      else if ¬ isRequestAccepted find current.pid (pageAlign value - pageAlign mm.brk) l then
        brkOut mm.brk mm
      else brkApply (answering env c) mm value (pageAlign value) (pageAlign mm.brk) := by
    intro c
    have hrefused : brkRefused (answering env c) mm value = brkRefused env as.toMm value := by
      unfold brkRefused minBrk
      rw [hstartBrk, hstartData, hendData]
      rfl
    unfold brk
    rw [hrefused]
    rfl
  unfold AddressSpace.brk
  by_cases hkilled : env.lockKilled = true
  · refine ⟨coarse 0 none false none 0 true, ?_⟩
    rw [hlist, if_pos hkilled, if_pos hkilled]
    exact ⟨rfl, hs⟩
  by_cases hrefused : brkRefused env as.toMm value = true
  · refine ⟨coarse 0 none false none 0 true, ?_⟩
    rw [hlist, if_neg hkilled, if_neg hkilled, if_pos hrefused, if_pos hrefused]
    exact hkept
  by_cases haccepted : isRequestAccepted find current.pid
      (pageAlign value - pageAlign as.counters.brk) l = true
  · obtain ⟨c, hsame⟩ := brkApply_shows env ans hfixed hgap h hdef huser hs value
    refine ⟨c, ?_⟩
    rw [hlist, if_neg hkilled, if_neg hkilled, if_neg hrefused, if_neg hrefused, hbrk]
    dsimp only
    rw [if_neg (not_not_intro haccepted), if_neg (not_not_intro haccepted)]
    exact hsame
  · refine ⟨coarse 0 none false none 0 true, ?_⟩
    have haccepted' : ¬ isRequestAccepted find current.pid
        (pageAlign value - pageAlign mm.brk) l = true := hbrk ▸ haccepted
    rw [hlist, if_neg hkilled, if_neg hkilled, if_neg hrefused, if_neg hrefused,
      if_pos haccepted']
    dsimp only
    rw [if_pos haccepted]
    exact hkept

end Brk

end UsacKernel.Analysis
