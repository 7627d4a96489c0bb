import UsacKernel.Analysis.MmapRegion

/-!
# The growth of a stack area

`expand_stack` lets the area above an address grow down to it. The range in between is free
because `find_vma` found no other area (`findVma_divides`), so the growth is a mapping like any
other and the counters stay exact. `acct_stack_growth` charges the pages whatever the flags of the
area are; an area without `VM_ACCOUNT` does not give them back (`expandStack_outcome`).
-/

set_option autoImplicit false

namespace UsacKernel.Analysis

open UsacKernel.Computation UsacKernel.Model UsacKernel.Interface IndexedHeap

section Stack

variable {as as1 : AddressSpace} {cells A B : List Cell} {leak : ℤ} {p : Ptr} {v : VmAreaStruct}

/-- INTERNAL: `find_vma` divides the areas at its address. -/
theorem findVma_divides (h : Holds as cells) {addr : ULong} (hfind : as.findVma addr = some p) :
    ∃ A v B, cells = A ++ [(p, v)] ++ B ∧ ∀ c ∈ A, c.2.vmEnd.toNat ≤ addr.toNat := by
  unfold AddressSpace.findVma at hfind
  rw [h.rep.find, Option.map_eq_some_iff] at hfind
  obtain ⟨c, hc, rfl⟩ := hfind
  obtain ⟨-, A, B, rfl, hbefore⟩ := List.find?_eq_some_iff_append.mp hc
  refine ⟨A, c.2, B, by simp, ?_⟩
  intro d hd
  by_contra hlt
  have hmeets : (span d).meets addr.toNat (2 ^ 64) = true :=
    decide_eq_true ⟨addr.isLt, Nat.lt_of_not_le hlt, d.2.vmStart.isLt⟩
  have hnot := hbefore d hd
  rw [hmeets] at hnot
  cases hnot

/-- INTERNAL: `anon_vma_prepare` changes no meaning, and no page loses its `anon_vma`. -/
theorem anonVmaPrepare_spec (ans : StackAnswers) (h : Holds as (A ++ [(p, v)] ++ B))
    (heq : as.anonVmaPrepare ans p = some as1) :
    ∃ v1, SameMeaning as as1 (A ++ [(p, v)] ++ B) (A ++ [(p, v1)] ++ B) ∧
      v1.vmStart = v.vmStart ∧ v1.vmEnd = v.vmEnd ∧ v1.vmFlags = v.vmFlags ∧
      v1.vmPgoff = v.vmPgoff ∧ areaAttr v1 = areaAttr v := by
  have hread : as.heap p = v := h.read (c := (p, v)) (by simp)
  unfold AddressSpace.anonVmaPrepare at heq
  rw [hread] at heq
  split_ifs at heq with hsome
  · obtain rfl := Option.some.inj heq
    exact ⟨v, SameMeaning.refl h, rfl, rfl, rfl, rfl, rfl⟩
  · obtain ⟨x, -, rfl⟩ := Option.map_eq_some_iff.mp heq
    have hnone : v.anonVma = none := by
      cases hv : v.anonVma with
      | none => rfl
      | some y => simp [hv] at hsome
    have hok := h.ok (p, v) (by simp)
    have hrep := represents_modify (L := []) (R := [])
      (f := fun v => { v with anonVma := some x, anonVmaChain := x :: v.anonVmaChain }) h.rep rfl
      rfl
    have hholds := h.of_replace (M := [(p, v)]) hrep le_rfl
      (by
        intro c hc
        rw [List.mem_singleton.mp hc]
        exact h.fresh (p, v) (by simp))
      (by simp)
      (by
        intro c hc
        rw [List.mem_singleton.mp hc]
        exact ⟨hok.startPage, hok.endPage, hok.user,
          fun hcon => absurd hcon (Option.some_ne_none x),
          hok.attached⟩)
    refine ⟨_, ⟨hholds, ?_, ?_, rfl, rfl⟩, rfl, rfl, rfl, rfl, rfl⟩
    · refine cellsMeaning_congr fun a => ?_
      rw [cellsMeaning_cons, cellsMeaning_cons]
      rfl
    · refine cellsAnonVma_keep (M := [(p, v)]) hholds fun a y hy => ?_
      rw [cellsAnonVma_cons_of rfl rfl hnone] at hy
      split_ifs at hy
      cases hy

/-- What growing down to `address` asks for, as a request to merge. -/
def growMerge (v : VmAreaStruct) (address : ULong) : MergeRequest where
  addr := address
  stop := v.vmStart
  vmFlags := v.vmFlags
  anonVma := none
  file := v.vmFile
  pgoff := v.vmPgoff - bytesToPages (v.vmStart - address)
  policy := v.vmPolicy
  uffdCtx := v.vmUserfaultfdCtx
  anonName := v.anonName

/-- INTERNAL: the range below a stack has the attributes of the stack, with its page offset
moved down. -/
theorem growMerge_attr {address : ULong} (hle : address.toNat ≤ v.vmStart.toNat)
    (hpage : address.toNat % 4096 = 0) : areaAttr v = requestAttr (growMerge v address) := by
  unfold areaAttr requestAttr growMerge
  dsimp only
  rw [bytesToPages_sub hle hpage]
  congr 1
  ring

/-- INTERNAL: the counters of a growing stack area are those of a mapping. -/
theorem growDown_counters (c : Counters) (flags n : ULong) :
    (if hasFlag flags VM_LOCKED then c.addLockedVm n else c).vmStatAccount flags n =
      countMapped c (flags &&& ~~~ VM_SOFTDIRTY) n := by
  unfold countMapped
  rw [vmStatAccount_clear c flags n VM_SOFTDIRTY fun k _ => k.mask_softDirty,
    hasFlag_clear flags VM_SOFTDIRTY VM_LOCKED (by decide)]
  split_ifs
  · unfold Counters.vmStatAccount Counters.addLockedVm
    dsimp only
    split_ifs <;> rfl
  · rfl

/-- INTERNAL: an area that grows down by itself does what a merge would do with it. -/
theorem growDown_eq (as : AddressSpace) (p : Ptr) {address grow : ULong}
    (hlt : address < (as.heap p).vmStart) :
    as.growDown p address grow =
      (applyPlan (as.modify p (fun v => withAnonOf v (as.heap p)))
        ⟨p, p, address, (as.heap p).vmEnd, (as.heap p).vmPgoff - grow, none, 0, none,
          none⟩).modifyCounters (fun c => countMapped c
            ((as.heap p).vmFlags &&& ~~~ VM_SOFTDIRTY) grow) := by
  have hself : as.modify p (fun v => withAnonOf v (as.heap p)) = as :=
    as.modify_self p _ (withAnonOf_self _)
  rw [hself]
  unfold applyPlan
  simp only [Option.any_none, hlt, true_or, decide_true, if_true, adjustNeighbour, vmaComplete]
  rw [AddressSpace.warnOn_of_not as (by simp)]
  unfold AddressSpace.growDown
  dsimp only
  simp only [growDown_counters]
  rfl

/-- INTERNAL: the area grows down over the free range below it. -/
theorem growDown_spec (h : Holds as (A ++ [(p, v)] ++ B)) {address : ULong}
    (hlock : LockOk (cellsMeaning (A ++ [(p, v)] ++ B)))
    (hlt : address.toNat < v.vmStart.toNat) (hpage : address.toNat % 4096 = 0)
    (hA : ∀ c ∈ A, c.2.vmEnd.toNat ≤ address.toNat) :
    ∃ cells', MappedInto as (as.growDown p address (bytesToPages (v.vmStart - address)))
      (A ++ [(p, v)] ++ B) cells' address v.vmStart (areaAttr v)
      (bytesToPages (v.vmStart - address)) := by
  have hread : as.heap p = v := h.read (c := (p, v)) (by simp)
  have hok := h.ok (p, v) (by simp)
  have hv := h.lt (c := (p, v)) (by simp)
  have hr : PageRange address v.vmStart :=
    ⟨hlt, hpage, hok.startPage, hv.le.trans hok.user⟩
  have hattr := growMerge_attr hlt.le hpage
  have hm := mergedInto_down (growMerge v address) h hr hA rfl hattr
  rw [growDown_eq as p (by rw [hread]; exact BitVec.lt_def.mpr hlt)]
  have hpglen : (growMerge v address).pglen = bytesToPages (v.vmStart - address) := rfl
  rw [hpglen, hread] at hm
  rw [hread]
  refine ⟨_, hm.holds.modifyCounters _, ?_, hm.anon, ?_, hm.frame.warned, ?_⟩
  · rw [hm.meaning, ← hattr]
    rfl
  · exact congrArg (fun c => countMapped c (areaAttr v).flags (bytesToPages (v.vmStart - address)))
      hm.frame.counters
  · exact hlock v.vmStart.toNat _ (h.meaning_of_mem (c := (p, v)) (by simp) ⟨le_rfl, hv⟩)

/-- INTERNAL: the charged pages are those of the growth. -/
theorem grown_becomes (h : Holds as (A ++ [(p, v)] ++ B))
    (hacc : Accounted as (A ++ [(p, v)] ++ B) leak) (hlock : LockOk (meaning as))
    (address : ULong) (hlt : address.toNat < v.vmStart.toNat) (hpage : address.toNat % 4096 = 0)
    (hA : ∀ c ∈ A, c.2.vmEnd.toNat ≤ address.toNat) :
    Becomes as ((as.modifyCounters (fun c => c.addCommitted
        (bytesToPages (v.vmStart - address)).toNat)).growDown p address
          (bytesToPages (v.vmStart - address)))
      (leak + (if isAccounted v.vmFlags then 0
        else (bytesToPages (v.vmStart - address)).toNat : ℕ))
      ((meaning as).assign address.toNat v.vmStart.toNat (areaAttr v)) := by
  have hok := h.ok (p, v) (by simp)
  have hv := h.lt (c := (p, v)) (by simp)
  have hr : PageRange address v.vmStart := ⟨hlt, hpage, hok.startPage, hv.le.trans hok.user⟩
  rw [h.meaning_eq] at hlock ⊢
  have hcharged := hacc.addCommitted (bytesToPages (v.vmStart - address)).toNat
  have hholds := h.modifyCounters
    (fun c => c.addCommitted (bytesToPages (v.vmStart - address)).toNat)
  obtain ⟨cells', hm⟩ := growDown_spec hholds hlock hlt hpage hA
  have hfree : ∀ a, address.toNat ≤ a → a < v.vmStart.toNat →
      cellsMeaning (A ++ [(p, v)] ++ B) a = none := by
    rw [List.append_assoc]
    refine free_between hA fun c hc => ?_
    rcases List.mem_append.mp hc with hc | hc
    · rw [List.mem_singleton.mp hc]
    · exact hv.le.trans (h.le (c := (p, v)) (by simp) hc)
  have haccounted : isAccounted (areaAttr v).flags = isAccounted v.vmFlags :=
    isAccounted_ignoresSoftDirty v.vmFlags
  have hleak : leak + ((if isAccounted v.vmFlags then 0
      else (bytesToPages (v.vmStart - address)).toNat : ℕ) : ℤ) =
      leak + (bytesToPages (v.vmStart - address)).toNat -
        ((if isAccounted (areaAttr v).flags then (bytesToPages (v.vmStart - address)).toNat
        else 0 : ℕ) : ℤ) := by
    rw [haccounted]
    split_ifs
    · rw [Nat.cast_zero, add_zero, add_sub_cancel_right]
    · rw [Nat.cast_zero, sub_zero]
  have hb := hm.becomes hholds hcharged hlock hr hfree rfl hleak
  exact ⟨hb.consistent, hb.meaning_eq, hb.warned_eq, hb.layout_eq⟩

/-! ## `expand_downwards` and `expand_stack` -/

/-- INTERNAL: the area begins at the address afterwards. -/
theorem growDown_vmStart (as : AddressSpace) (p : Ptr) (address grow : ULong) :
    ((as.growDown p address grow).heap p).vmStart = address := by
  have hheap : (as.growDown p address grow).heap p =
      (as.heap p).setRange address (as.heap p).vmEnd ((as.heap p).vmPgoff - grow) := by
    unfold AddressSpace.growDown AddressSpace.vmaIterStore AddressSpace.modify
    simp [AddressSpace.modifyCounters]
  rw [hheap]
  rfl

/-- How the growth of the area `p` to `address` changes the area, what is mapped, and the leak:
pages that an area without `VM_ACCOUNT` was charged for are not given back. -/
structure GrownInto (as as' : AddressSpace) (leak : ℤ) (p : Ptr) (address : ULong) : Prop where
  growsDown : hasFlag (as.heap p).vmFlags VM_GROWSDOWN = true
  lt : address.toNat < (as.heap p).vmStart.toNat
  vmStart_eq : (as'.heap p).vmStart = address
  becomes : Becomes as as'
    (leak + (if isAccounted (as.heap p).vmFlags then 0
      else (bytesToPages ((as.heap p).vmStart - address)).toNat : ℕ))
    ((meaning as).assign address.toNat (as.heap p).vmStart.toNat (areaAttr (as.heap p)))

/-- INTERNAL: `expand_downwards` for an address above all the areas before the stack.
SOURCE: mm/mmap.c:2088-2175 -/
theorem expandDownwards_outcome (env : MmEnv) (ans : StackAnswers)
    (h : Holds as (A ++ [(p, v)] ++ B)) (hacc : Accounted as (A ++ [(p, v)] ++ B) leak)
    (hlock : LockOk (meaning as)) {addr : ULong}
    (hA : ∀ c ∈ A, c.2.vmEnd.toNat ≤ addr.toNat) :
    (∃ r as', as.expandDownwards env ans p addr = (r, as') ∧ Becomes as as' leak (meaning as)) ∨
      ∃ as', as.expandDownwards env ans p addr = (none, as') ∧
        GrownInto as as' leak p (alignDown pageShift addr) := by
  have hread : as.heap p = v := h.read (c := (p, v)) (by simp)
  have hself : Becomes as as leak (meaning as) := ⟨⟨⟨_, h, hacc⟩, hlock⟩, rfl, rfl, rfl⟩
  have hdown : (alignDown pageShift addr).toNat = addr.toNat / 4096 * 4096 :=
    alignDown_toNat 12 addr
  -- an area that ends at whole pages ends below the page of the address
  have hA' : ∀ c ∈ A, c.2.vmEnd.toNat ≤ (alignDown pageShift addr).toNat := by
    intro c hc
    have hle := hA c hc
    have hpage := (h.ok c (by simp [hc])).endPage
    omega
  unfold AddressSpace.expandDownwards
  dsimp only
  rw [hread]
  by_cases hdowns : hasFlag v.vmFlags VM_GROWSDOWN = true
  · rw [if_neg (not_not_intro hdowns)]
    by_cases hmin : alignDown pageShift addr < env.mmapMinAddr
    · rw [if_pos hmin]
      exact Or.inl ⟨some EPERM, as, rfl, hself⟩
    rw [if_neg hmin]
    by_cases hguard : (as.vmaPrev v.vmStart).any
        (as.guardGapHit env (alignDown pageShift addr)) = true
    · rw [if_pos hguard]
      exact Or.inl ⟨some ENOMEM, as, rfl, hself⟩
    rw [if_neg hguard]
    by_cases hprealloc : ans.preallocFails = true
    · rw [if_pos hprealloc]
      exact Or.inl ⟨some ENOMEM, as, rfl, hself⟩
    rw [if_neg hprealloc]
    cases hprepare : as.anonVmaPrepare ans p with
    | none => exact Or.inl ⟨some ENOMEM, as, rfl, hself⟩
    | some as1 =>
      obtain ⟨v1, hsame, hstart, hend, hflags, hpgoff, hattr⟩ := anonVmaPrepare_spec ans h hprepare
      have hb := hsame.becomes h hacc hlock
      have hacc1 := hacc.sameMeaning h hsame
      dsimp only
      by_cases hlt : alignDown pageShift addr < v.vmStart
      · rw [if_pos hlt]
        by_cases hroom : bytesToPages (v.vmStart - alignDown pageShift addr) ≤ v.vmPgoff
        · rw [if_neg (not_not_intro hroom)]
          cases hacct : as1.acctStackGrowth env ans v.vmFlags
              (v.vmEnd - alignDown pageShift addr)
              (bytesToPages (v.vmStart - alignDown pageShift addr)) with
          | some e => exact Or.inl ⟨some e, as1, rfl, hb⟩
          | none =>
            have hlt' := BitVec.lt_def.mp hlt
            have hgrown := grown_becomes hsame.holds hacc1 (hb.meaning_eq ▸ hlock)
              (alignDown pageShift addr) (by rw [hstart]; exact hlt') (by omega) hA'
            rw [hstart, hattr, hb.meaning_eq, hflags] at hgrown
            refine Or.inr ⟨_, rfl, ⟨?_, ?_, growDown_vmStart _ _ _ _, ?_⟩⟩
            · rw [hread]
              exact hdowns
            · rw [hread]
              exact hlt'
            · rw [hread]
              exact ⟨hgrown.consistent, hgrown.meaning_eq, hgrown.warned_eq.trans hb.warned_eq,
                hgrown.layout_eq.trans hb.layout_eq⟩
        · rw [if_pos hroom]
          exact Or.inl ⟨some ENOMEM, as1, rfl, hb⟩
      · rw [if_neg hlt]
        exact Or.inl ⟨none, as1, rfl, hb⟩
  · rw [if_pos hdowns]
    exact Or.inl ⟨some EFAULT, as, rfl, hself⟩

/-- INTERNAL: the same for the area that `find_vma` finds for the address.
SOURCE: mm/mmap.c:2088-2175 -/
theorem expandDownwards_found (env : MmEnv) (ans : StackAnswers) (h : Consistent as leak)
    {addr : ULong} {q : Ptr} (hfind : as.findVma addr = some q) :
    (∃ r as', as.expandDownwards env ans q addr = (r, as') ∧ Becomes as as' leak (meaning as)) ∨
      ∃ as', as.expandDownwards env ans q addr = (none, as') ∧
        GrownInto as as' leak q (alignDown pageShift addr) := by
  obtain ⟨cells, hholds, hacc⟩ := h.areas
  obtain ⟨A, v, B, rfl, hA⟩ := findVma_divides hholds hfind
  exact expandDownwards_outcome env ans hholds hacc h.lockOk hA

/-- INTERNAL: `expand_stack` changes nothing that is mapped, or lets the area above the address
grow down to the page of the address, over a range where nothing was mapped. The counters stay
exact. The charge stays that of the areas if the area has `VM_ACCOUNT`; otherwise the pages it grew
by stay charged for ever.
SOURCE: mm/mmap.c:2264-2290, 2088-2175 -/
theorem expandStack_outcome (env : MmEnv) (ans : StackAnswers) (h : Consistent as leak)
    (addr : ULong) :
    (∃ r as', as.expandStack env ans addr = (r, as') ∧ Becomes as as' leak (meaning as)) ∨
      ∃ q as', as.expandStack env ans addr = (some q, as') ∧ as.findVma addr = some q ∧
        GrownInto as as' leak q (alignDown pageShift addr) := by
  unfold AddressSpace.expandStack
  by_cases hkilled : env.lockKilled = true
  · rw [if_pos hkilled]
    exact Or.inl ⟨none, as, rfl, h.becomes⟩
  · rw [if_neg hkilled]
    cases hfind : as.findVma addr with
    | none => exact Or.inl ⟨none, as, rfl, h.becomes⟩
    | some q =>
      dsimp only
      by_cases hinside : (as.heap q).vmStart ≤ addr
      · rw [if_pos hinside]
        exact Or.inl ⟨some q, as, rfl, h.becomes⟩
      · rw [if_neg hinside]
        rcases expandDownwards_found env ans h hfind with
          ⟨r, as', heq, hb⟩ | ⟨as', heq, hgrown⟩
        · rw [heq]
          cases r with
          | none => exact Or.inl ⟨some q, as', rfl, hb⟩
          | some e => exact Or.inl ⟨none, as', rfl, hb⟩
        · rw [heq]
          exact Or.inr ⟨q, as', rfl, rfl, hgrown⟩

end Stack

end UsacKernel.Analysis
