import UsacKernel.Analysis.AreaInvariant

/-!
# The parts of a merge

What `vma_merge` and `vma_expand` are put together from, each with what it does to the list of
areas: the tests that two areas can become one (`joinsPrev_attr`, `joinsNext_attr`: they mean
the same), the duplication of an `anon_vma` that a failure takes back (`dupAnonVma_cases`), the
removal of areas that were joined (`vmaComplete_spec`), and the three ways in which bounds move:
an area grows over its neighbours, its end moves into the next one, or the next one grows down.
-/

set_option autoImplicit false

namespace UsacKernel.Analysis

open UsacKernel.Computation UsacKernel.Model UsacKernel.Interface IndexedHeap

/-! ## The tests -/

/-- INTERNAL: flags that differ in the masked bits only are the same otherwise. -/
theorem xor_and_eq_zero_iff (x y m : ULong) : (x ^^^ y) &&& m = 0 ↔ x &&& m = y &&& m := by
  have hdistrib : (x ^^^ y) &&& m = (x &&& m) ^^^ (y &&& m) := by
    ext i
    simp [Bool.and_xor_distrib_right]
  rw [hdistrib]
  exact BitVec.xor_eq_zero_iff

/-- INTERNAL: what `is_mergeable_vma` compares: flags but for the soft dirty bit, the file, the
`userfaultfd` context and the name, and that an area to be removed has no `close`. -/
theorem isMergeableVma_iff (v : VmAreaStruct) (file : Option OpenFile) (vmFlags : ULong)
    (uffdCtx anonName : Option Handle) (mayRemoveVma : Bool) :
    isMergeableVma v file vmFlags uffdCtx anonName mayRemoveVma = true ↔
      v.vmFlags &&& ~~~ VM_SOFTDIRTY = vmFlags &&& ~~~ VM_SOFTDIRTY ∧ v.vmFile = file ∧
        ¬ (mayRemoveVma = true ∧ v.hasClose = true) ∧ v.vmUserfaultfdCtx = uffdCtx ∧
        v.anonName = anonName := by
  unfold isMergeableVma
  rw [← xor_and_eq_zero_iff]
  split_ifs <;> tauto

/-- INTERNAL: `anon_vma`s that may be joined are the same, or one is missing. -/
theorem isMergeableAnonVma_cases {a b : Option Handle} {v : Option VmAreaStruct}
    (h : isMergeableAnonVma a b v = true) : a = none ∨ b = none ∨ a = b := by
  unfold isMergeableAnonVma at h
  split_ifs at h with hnone
  · rcases hnone.1 with ha | hb
    · exact Or.inl (Option.isNone_iff_eq_none.mp ha)
    · exact Or.inr (Or.inl (Option.isNone_iff_eq_none.mp hb))
  · exact Or.inr (Or.inr (of_decide_eq_true h))

section Joins

variable {as : AddressSpace} {req : MergeRequest} {p n : Ptr}

/-- INTERNAL: an area that the range can be joined to from above means what is requested. -/
theorem joinsPrev_attr (h : joinsPrev as req p = true) (hok : AreaOk (as.heap p))
    (hlt : (as.heap p).vmStart.toNat < (as.heap p).vmEnd.toNat) :
    (as.heap p).vmEnd = req.addr ∧ areaAttr (as.heap p) = requestAttr req ∧
      (req.anonVma = none ∨ (as.heap p).anonVma = none ∨ req.anonVma = (as.heap p).anonVma) := by
  simp only [joinsPrev, Bool.and_eq_true, decide_eq_true_eq] at h
  obtain ⟨⟨haddr, hpolicy⟩, hmerge⟩ := h
  unfold canVmaMergeAfter at hmerge
  split_ifs at hmerge with hcond
  obtain ⟨hflags, hfile, -, huffd, hname⟩ := (isMergeableVma_iff _ _ _ _ _ _).mp hcond.1
  have hpgoff := of_decide_eq_true hmerge
  refine ⟨haddr.symm, ?_, isMergeableAnonVma_cases hcond.2⟩
  have hbase : (as.heap p).vmPgoff - bytesToPages (as.heap p).vmStart =
      req.pgoff - bytesToPages req.addr := by
    rw [← hpgoff, haddr, vmaPages, VmAreaStruct.area, bytesToPages_sub hlt.le hok.startPage]
    ring
  simp only [areaAttr, requestAttr, hflags, hfile, hbase, hpolicy, huffd, hname]

/-- INTERNAL: an area that the range can be joined to from below means what is requested. -/
theorem joinsNext_attr (h : joinsNext as req n = true) (hstart : (as.heap n).vmStart = req.stop)
    (hpage : req.addr.toNat % 4096 = 0) (hle : req.addr.toNat ≤ req.stop.toNat) :
    areaAttr (as.heap n) = requestAttr req ∧
      (req.anonVma = none ∨ (as.heap n).anonVma = none ∨ req.anonVma = (as.heap n).anonVma) := by
  simp only [joinsNext, Bool.and_eq_true, decide_eq_true_eq] at h
  obtain ⟨hpolicy, hmerge⟩ := h
  unfold canVmaMergeBefore at hmerge
  split_ifs at hmerge with hcond
  obtain ⟨hflags, hfile, -, huffd, hname⟩ := (isMergeableVma_iff _ _ _ _ _ _).mp hcond.1
  have hpgoff := of_decide_eq_true hmerge
  refine ⟨?_, isMergeableAnonVma_cases hcond.2⟩
  have hbase : (as.heap n).vmPgoff - bytesToPages (as.heap n).vmStart =
      req.pgoff - bytesToPages req.addr := by
    rw [hpgoff, hstart, MergeRequest.pglen, bytesToPages_sub hle hpage]
    ring
  simp only [areaAttr, requestAttr, hflags, hfile, hbase, ← hpolicy, huffd, hname]

end Joins

/-! ## `anon_vma` -/

/-- An area that has taken over the `anon_vma` of another, if it had none. -/
def withAnonOf (v src : VmAreaStruct) : VmAreaStruct :=
  if src.anonVma.isSome ∧ v.anonVma.isNone then
    { v with anonVma := src.anonVma, anonVmaChain := src.anonVmaChain ++ v.anonVmaChain }
  else v

section WithAnonOf

variable (v src : VmAreaStruct)

/-- INTERNAL: taking over an `anon_vma` leaves the start alone. -/
@[simp] theorem withAnonOf_vmStart : (withAnonOf v src).vmStart = v.vmStart := by
  unfold withAnonOf
  split_ifs <;> rfl

/-- INTERNAL: taking over an `anon_vma` leaves the end alone. -/
@[simp] theorem withAnonOf_vmEnd : (withAnonOf v src).vmEnd = v.vmEnd := by
  unfold withAnonOf
  split_ifs <;> rfl

/-- INTERNAL: taking over an `anon_vma` leaves the attributes alone. -/
@[simp] theorem withAnonOf_attr : areaAttr (withAnonOf v src) = areaAttr v := by
  unfold withAnonOf
  split_ifs <;> rfl

/-- INTERNAL: taking over an `anon_vma` leaves the page offset alone. -/
@[simp] theorem withAnonOf_vmPgoff : (withAnonOf v src).vmPgoff = v.vmPgoff := by
  unfold withAnonOf
  split_ifs <;> rfl

/-- INTERNAL: an area keeps the `anon_vma` it has, and takes over one only when it has none. -/
theorem withAnonOf_anonVma : (withAnonOf v src).anonVma = v.anonVma.or src.anonVma := by
  unfold withAnonOf
  cases hv : v.anonVma with
  | none =>
    cases hs : src.anonVma with
    | none => simp [hv]
    | some x => simp
  | some x => simp [hv]

/-- INTERNAL: an area that takes over its own `anon_vma` does not change. -/
theorem withAnonOf_self : withAnonOf v v = v := by
  unfold withAnonOf
  rw [if_neg]
  rintro ⟨hsome, hnone⟩
  cases hv : v.anonVma with
  | none => rw [hv] at hsome; cases hsome
  | some x => rw [hv] at hnone; cases hnone

variable {v src}

/-- INTERNAL: an area that takes over an `anon_vma` stays well formed. -/
theorem AreaOk.withAnonOf (h : AreaOk v) : AreaOk (withAnonOf v src) := by
  unfold UsacKernel.Analysis.withAnonOf
  split_ifs with hcond
  · refine ⟨h.startPage, h.endPage, h.user, fun hnone => ?_, h.attached⟩
    rw [show src.anonVma = none from hnone] at hcond
    cases hcond.1
  · exact h

end WithAnonOf

/-- INTERNAL: `dup_anon_vma` changes nothing, or gives the destination the `anon_vma`; the
latter can be taken back. -/
theorem dupAnonVma_cases (cloneFails : Bool) (as : AddressSpace) (dst src : Ptr)
    (hchain : (as.heap dst).anonVma = none → (as.heap dst).anonVmaChain = []) :
    (∃ e, dupAnonVma cloneFails as dst src = (some e, as, none)) ∨
      ∃ dup, dupAnonVma cloneFails as dst src =
          (none, as.modify dst (fun v => withAnonOf v (as.heap src)), dup) ∧
        undoDup (as.modify dst (fun v => withAnonOf v (as.heap src))) dup = as := by
  unfold dupAnonVma
  by_cases hneed : (as.heap src).anonVma.isSome ∧ (as.heap dst).anonVma.isNone
  · have hnone := Option.isNone_iff_eq_none.mp hneed.2
    have hempty : (as.heap dst).dropAnonVmas = as.heap dst := by
      rw [VmAreaStruct.dropAnonVmas, ← hchain hnone, ← hnone]
    rw [if_pos hneed]
    split_ifs with hfails
    · refine Or.inl ⟨ENOMEM, ?_⟩
      rw [unlinkAnonVmas, as.modify_self dst _ hempty]
    · refine Or.inr ⟨some dst, ?_, ?_⟩
      · unfold AddressSpace.modify withAnonOf
        simp only [if_pos hneed]
      · rw [undoDup, unlinkAnonVmas, AddressSpace.modify_modify]
        refine as.modify_self dst _ (Eq.trans ?_ hempty)
        unfold withAnonOf
        rw [if_pos hneed]
        rfl
  · refine Or.inr ⟨none, ?_, ?_⟩
    · rw [if_neg hneed, as.modify_self dst _ (by rw [withAnonOf, if_neg hneed])]
    · rw [as.modify_self dst _ (by rw [withAnonOf, if_neg hneed])]
      rfl

/-! ## Removing areas that were joined -/

/-- The areas that `vma_complete` removes. -/
def removedAreas (remove remove2 : Option Ptr) : List Ptr :=
  match remove, remove2 with
  | none, _ => []
  | some r, none => [r]
  | some r, some r2 => [r, r2]

/-- What changes when areas are removed after a merge: these areas, and `map_count`. -/
structure RemovedFrom (as as' : AddressSpace) (removed : List Ptr) : Prop where
  heap : ∀ q, q ∉ removed → as'.heap q = as.heap q
  mt : as'.mt = as.mt
  fresh : as'.fresh = as.fresh
  counters : as'.counters = as.counters
  warned : as'.warned = as.warned
  mapCount : as'.mapCount = as.mapCount - removed.length

/-- INTERNAL: two removals one after the other are one of all the areas. -/
theorem RemovedFrom.trans {as as' as'' : AddressSpace} {l l' : List Ptr}
    (h : RemovedFrom as as' l) (h' : RemovedFrom as' as'' l') :
    RemovedFrom as as'' (l ++ l') where
  heap q hq := by
    rw [List.mem_append, not_or] at hq
    rw [h'.heap q hq.2, h.heap q hq.1]
  mt := h'.mt.trans h.mt
  fresh := h'.fresh.trans h.fresh
  counters := h'.counters.trans h.counters
  warned := h'.warned.trans h.warned
  mapCount := by
    rw [h'.mapCount, h.mapCount, List.length_append, Nat.cast_add]
    ring

/-- INTERNAL: nothing removed changes nothing. -/
theorem RemovedFrom.refl (as : AddressSpace) : RemovedFrom as as [] :=
  ⟨fun _ _ => rfl, rfl, rfl, rfl, rfl, by simp⟩

/-- INTERNAL: an area merged into another one is freed, and the two warnings of the kernel stay
silent: the `anon_vma`s agree, and the last area does not reach beyond the merged one. -/
theorem removeMerged_spec (as : AddressSpace) {vma r : Ptr} (isLast : Bool) (hne : r ≠ vma)
    (hanon : (as.heap r).anonVma.isSome → (as.heap vma).anonVma = (as.heap r).anonVma)
    (hend : isLast = true → (as.heap r).vmEnd.toNat ≤ (as.heap vma).vmEnd.toNat) :
    RemovedFrom as (removeMerged as vma r isLast) [r] := by
  -- the area once it is detached and has lost its `anon_vma`
  obtain ⟨as', hdef, hother, hself, hmt, hfresh, hcounters, hwarned, hcount⟩ :
      ∃ as' : AddressSpace,
        removeMerged as vma r isLast =
            (if isLast then as'.warnOn ((as'.heap vma).vmEnd < (as'.heap r).vmEnd) else as') ∧
          (∀ q, q ≠ r → as'.heap q = as.heap q) ∧ (as'.heap r).vmEnd = (as.heap r).vmEnd ∧
          as'.mt = as.mt ∧ as'.fresh = as.fresh ∧ as'.counters = as.counters ∧
          as'.warned = as.warned ∧ as'.mapCount = as.mapCount - 1 := by
    refine ⟨_, rfl, ?_⟩
    simp only [AddressSpace.modify_heap_self, VmAreaStruct.markDetached]
    split_ifs with hsome
    · rw [anonVmaMerge, AddressSpace.warnOn_of_not]
      · refine ⟨fun q hq => ?_, ?_, rfl, rfl, rfl, rfl, by simp [unlinkAnonVmas]; ring⟩
        · simp [unlinkAnonVmas, AddressSpace.modify_heap_of_ne _ _ _ hq]
        · simp [unlinkAnonVmas, VmAreaStruct.dropAnonVmas, VmAreaStruct.markDetached]
      · simp only [AddressSpace.modify_heap_self, AddressSpace.modify_heap_of_ne _ _ _ hne.symm]
        exact fun h => h (hanon hsome)
    · refine ⟨fun q hq => ?_, by simp [VmAreaStruct.markDetached], rfl, rfl, rfl, rfl,
        by simp; ring⟩
      simp [AddressSpace.modify_heap_of_ne _ _ _ hq]
  have hquiet : removeMerged as vma r isLast = as' := by
    rw [hdef]
    split_ifs with hlast
    · refine as'.warnOn_of_not ?_
      rw [hother vma hne.symm, hself, BitVec.lt_def]
      have := hend hlast
      omega
    · rfl
  rw [hquiet]
  refine ⟨fun q hq => hother q ?_, hmt, hfresh, hcounters, hwarned, by simp [hcount]⟩
  rintro rfl
  exact hq List.mem_cons_self

/-- INTERNAL: `vma_complete` removes areas that lie inside the grown one and share its
`anon_vma`, and warns about nothing. -/
theorem vmaComplete_spec (as : AddressSpace) (vma : Ptr) (remove remove2 : Option Ptr)
    (hne : ∀ r ∈ removedAreas remove remove2, r ≠ vma)
    (hnodup : (removedAreas remove remove2).Nodup)
    (hanon : ∀ r ∈ removedAreas remove remove2,
      (as.heap r).anonVma.isSome → (as.heap vma).anonVma = (as.heap r).anonVma)
    (hend : ∀ r ∈ removedAreas remove remove2,
      (as.heap r).vmEnd.toNat ≤ (as.heap vma).vmEnd.toNat) :
    RemovedFrom as (vmaComplete as vma remove remove2) (removedAreas remove remove2) := by
  unfold vmaComplete removedAreas at *
  cases remove with
  | none => exact RemovedFrom.refl as
  | some r =>
    cases remove2 with
    | none =>
      exact removeMerged_spec as true (hne r (by simp)) (hanon r (by simp))
        (fun _ => hend r (by simp))
    | some r2 =>
      have hfirst : RemovedFrom as (removeMerged as vma r false) [r] :=
        removeMerged_spec as false (hne r (by simp)) (hanon r (by simp)) (by simp)
      have hrr2 : r2 ≠ r := by
        rintro rfl
        simp at hnodup
      have hr2 : (removeMerged as vma r false).heap r2 = as.heap r2 :=
        hfirst.heap r2 (by simpa using hrr2)
      have hvma : (removeMerged as vma r false).heap vma = as.heap vma :=
        hfirst.heap vma (by simpa using (hne r (by simp)).symm)
      refine hfirst.trans (removeMerged_spec _ true (hne r2 (by simp)) ?_ ?_)
      · rw [hr2, hvma]
        exact hanon r2 (by simp)
      · rw [hr2, hvma]
        exact fun _ => hend r2 (by simp)

/-! ## Moving bounds -/

/-- The fields outside of the areas and the tree stay. -/
structure SameFrame (as as' : AddressSpace) : Prop where
  fresh : as'.fresh = as.fresh
  counters : as'.counters = as.counters
  warned : as'.warned = as.warned

section Moving

variable {as : AddressSpace} {plan : MergePlan} {A M B : List Cell}

/-- INTERNAL: the planned area grows over the areas that the plan removes. -/
theorem applyPlan_expand {v : VmAreaStruct} (h : Represents as.heap as.mt (A ++ M ++ B))
    (hv : (plan.vma, v) ∈ M) (hadjust : plan.adjust = none)
    (hexpanded : plan.vmaStart < v.vmStart ∨ v.vmEnd < plan.vmaEnd)
    (hA : ∀ c ∈ A, c.2.vmEnd.toNat ≤ plan.vmaStart.toNat)
    (hB : ∀ c ∈ B, plan.vmaEnd.toNat ≤ c.2.vmStart.toNat)
    (hM : ∀ c ∈ M, plan.vmaStart.toNat ≤ c.2.vmStart.toNat ∧
      c.2.vmEnd.toNat ≤ plan.vmaEnd.toNat)
    (hnodup : (removedAreas plan.remove plan.remove2).Nodup)
    (hremoved : ∀ r ∈ removedAreas plan.remove plan.remove2, ∃ w, (r, w) ∈ M ∧ r ≠ plan.vma ∧
      (w.anonVma.isSome → v.anonVma = w.anonVma)) :
    Represents (applyPlan as plan).heap (applyPlan as plan).mt
        (A ++ [(plan.vma, v.setRange plan.vmaStart plan.vmaEnd plan.vmaPgoff)] ++ B) ∧
      (applyPlan as plan).mapCount =
        as.mapCount - (removedAreas plan.remove plan.remove2).length ∧
      SameFrame as (applyPlan as plan) := by
  have hread : as.heap plan.vma = v := h.mem_middle hv
  have hlt : plan.vmaStart.toNat < plan.vmaEnd.toNat := by
    have hne : v.vmStart.toNat < v.vmEnd.toNat :=
      h.nonempty (List.mem_append_left B (List.mem_append_right A hv))
    have hin := hM _ hv
    dsimp only at hin
    omega
  -- the state in which the grown area has been stored
  obtain ⟨as', hdef, hheap, hmt, hframe, hcount⟩ : ∃ as' : AddressSpace,
      applyPlan as plan = vmaComplete as' plan.vma plan.remove plan.remove2 ∧
        as'.heap = Function.update as.heap plan.vma
          (v.setRange plan.vmaStart plan.vmaEnd plan.vmaPgoff) ∧
        as'.mt = as.mt.store plan.vmaStart.toNat plan.vmaEnd.toNat plan.vma ∧
        SameFrame as as' ∧ as'.mapCount = as.mapCount := by
    refine ⟨_, rfl, ?_⟩
    simp only [hadjust, Option.any_none, adjustNeighbour, hread, hexpanded, decide_true, if_true]
    rw [AddressSpace.warnOn_of_not as (by simp)]
    refine ⟨?_, ?_, ⟨rfl, rfl, rfl⟩, rfl⟩
    · simp [AddressSpace.modify, hread]
    · simp [VmAreaStruct.setRange]
  have hstored : Represents as'.heap as'.mt
      (A ++ [(plan.vma, v.setRange plan.vmaStart plan.vmaEnd plan.vmaPgoff)] ++ B) := by
    rw [hheap, hmt]
    exact h.storeOver hlt hA hB hM (Or.inl ⟨_, hv, rfl⟩)
  have hother : ∀ r ∈ removedAreas plan.remove plan.remove2, ∃ w, (r, w) ∈ M ∧
      r ≠ plan.vma ∧ (w.anonVma.isSome → v.anonVma = w.anonVma) ∧ as'.heap r = w := by
    intro r hr
    obtain ⟨w, hw, hne, hanon⟩ := hremoved r hr
    refine ⟨w, hw, hne, hanon, ?_⟩
    rw [hheap, Function.update_of_ne hne]
    exact h.mem_middle hw
  have hself : as'.heap plan.vma = v.setRange plan.vmaStart plan.vmaEnd plan.vmaPgoff := by
    rw [hheap, Function.update_self]
  have hcomplete := vmaComplete_spec as' plan.vma plan.remove plan.remove2
    (fun r hr => (hother r hr).choose_spec.2.1) hnodup
    (by
      intro r hr
      obtain ⟨w, _, _, hanon, hw⟩ := hother r hr
      rw [hself, hw]
      exact hanon)
    (by
      intro r hr
      obtain ⟨w, hmem, _, _, hw⟩ := hother r hr
      rw [hself, hw]
      exact (hM _ hmem).2)
  rw [hdef]
  refine ⟨?_, ?_, ?_⟩
  · rw [hcomplete.mt]
    refine hstored.frame fun c hc => hcomplete.heap c.1 fun hr => ?_
    -- a removed area is in the middle part, and it is not the grown one
    obtain ⟨w, hw, hne, _⟩ := hother c.1 hr
    rcases List.mem_append.mp hc with hc | hc
    · rcases List.mem_append.mp hc with hc | hc
      · exact (List.append_assoc A M B ▸ h).ne hc (List.mem_append_left B hw) rfl
      · rw [List.mem_singleton.mp hc] at hne
        exact hne rfl
    · exact h.ne (List.mem_append_right A hw) hc rfl
  · rw [hcomplete.mapCount, hcount]
  · exact ⟨hcomplete.fresh.trans hframe.fresh, hcomplete.counters.trans hframe.counters,
      hcomplete.warned.trans hframe.warned⟩

/-- INTERNAL: `adj_start >> PAGE_SHIFT` of a distance upwards. -/
theorem sshiftRight_pageShift {x : ULong} (h : x.toNat < 2 ^ 63) :
    x.sshiftRight pageShift = bytesToPages x := by
  rw [BitVec.sshiftRight_eq_of_msb_false, bytesToPages]
  rw [BitVec.msb_eq_decide]
  exact decide_eq_false (by omega)

/-- INTERNAL: `adj_start >> PAGE_SHIFT` of a distance downwards, in whole pages. -/
theorem sshiftRight_neg_pageShift {x : ULong} (hpos : 0 < x.toNat) (h : x.toNat < 2 ^ 63)
    (hpage : x.toNat % 4096 = 0) : (-x).sshiftRight pageShift = -bytesToPages x := by
  have hx : x.toInt = x.toNat := by
    rw [BitVec.toInt_eq_toNat_cond, if_pos (by omega)]
  have hpages : (bytesToPages x).toInt = (x.toNat / 4096 : ℕ) := by
    rw [BitVec.toInt_eq_toNat_cond, bytesToPages_toNat, if_pos (by omega)]
  have hneg : (-x).toInt = -(x.toNat : ℤ) := by
    rw [BitVec.toInt_neg, hx, Int.bmod_eq_of_le] <;> omega
  have hnegPages : (-bytesToPages x).toInt = -((x.toNat / 4096 : ℕ) : ℤ) := by
    rw [BitVec.toInt_neg, hpages, Int.bmod_eq_of_le] <;> omega
  apply BitVec.eq_of_toInt_eq
  rw [BitVec.toInt_sshiftRight, hneg, hnegPages, Int.shiftRight_eq_div_pow, pageShift]
  omega

/-- The warning of `vma_merge` about two different `anon_vma`s. -/
theorem adjust_not_warned {v w : VmAreaStruct}
    (hanon : v.anonVma = none ∨ w.anonVma = none ∨ v.anonVma = w.anonVma) :
    ¬ ((v.anonVma.or w.anonVma).isSome && w.anonVma.isSome &&
      decide (v.anonVma.or w.anonVma ≠ w.anonVma)) = true := by
  rcases hanon with h | h | h
  · simp [h]
  · simp [h]
  · rw [h]
    cases w.anonVma <;> simp

/-- INTERNAL: case 5: the end of an area moves into the next one. -/
theorem applyPlan_into (res : Ptr) {p c : Ptr} {v w : VmAreaStruct} {stop : ULong}
    (h : Represents as.heap as.mt (A ++ [(p, v), (c, w)] ++ B)) (hadjacent : v.vmEnd = w.vmStart)
    (hstart : w.vmStart.toNat < stop.toNat) (hstop : stop.toNat < w.vmEnd.toNat)
    (huser : w.vmEnd.toNat ≤ 2 ^ 56)
    (hanon : v.anonVma = none ∨ w.anonVma = none ∨ v.anonVma = w.anonVma)
    (hplan : plan =
      ⟨p, res, v.vmStart, stop, v.vmPgoff, some c, stop - w.vmStart, none, none⟩) :
    Represents (applyPlan as plan).heap (applyPlan as plan).mt
        (A ++ [(p, v.setRange v.vmStart stop v.vmPgoff),
          (c, w.setRange stop w.vmEnd (w.vmPgoff + bytesToPages (stop - w.vmStart)))] ++ B) ∧
      (applyPlan as plan).mapCount = as.mapCount ∧ SameFrame as (applyPlan as plan) := by
  have hv : as.heap p = v := h.mem_middle List.mem_cons_self
  have hw : as.heap c = w := h.mem_middle (List.mem_cons_of_mem _ List.mem_cons_self)
  have hcp : c ≠ p := h.pair_ne.symm
  have hdist : (stop - w.vmStart).toNat = stop.toNat - w.vmStart.toNat := by
    rw [BitVec.toNat_sub]
    omega
  have hnonzero : stop - w.vmStart ≠ 0 := by
    intro hzero
    have hdist' := congrArg BitVec.toNat hzero
    rw [hdist] at hdist'
    simp only [BitVec.reduceToNat] at hdist'
    omega
  have hmsb : (stop - w.vmStart).msb = false := by
    rw [BitVec.msb_eq_decide]
    exact decide_eq_false (by omega)
  have hexpanded : v.vmStart < v.vmStart ∨ v.vmEnd < stop := by
    rw [hadjacent]
    exact Or.inr (BitVec.lt_def.mpr hstart)
  have hupper : w.vmStart + (stop - w.vmStart) = stop := by ring
  have happly : applyPlan as plan =
      ((as.modify p (fun _ => v.setRange v.vmStart stop v.vmPgoff)).vmaIterStore p).modify c
        (fun _ => w.setRange stop w.vmEnd (w.vmPgoff + bytesToPages (stop - w.vmStart))) := by
    rw [hplan]
    unfold applyPlan
    simp only [hv, hw, Option.any_some, adjustNeighbour, hexpanded, decide_true, if_true,
      if_neg hnonzero, hmsb, Bool.false_eq_true, if_false]
    rw [AddressSpace.warnOn_of_not as (adjust_not_warned hanon)]
    unfold vmaComplete AddressSpace.modify
    simp only [AddressSpace.vmaIterStore_heap, Function.update_of_ne hcp, hv, hw, hupper,
      sshiftRight_pageShift (by omega : (stop - w.vmStart).toNat < 2 ^ 63)]
  rw [happly]
  refine ⟨?_, rfl, ⟨rfl, rfl, rfl⟩⟩
  rw [AddressSpace.modify_mt, AddressSpace.vmaIterStore_mt, AddressSpace.modify_heap_self]
  refine h.moveUp rfl rfl rfl rfl ?_ hstart.le hstop
  show v.vmEnd.toNat ≤ stop.toNat
  rw [hadjacent]
  exact hstart.le

/-- INTERNAL: case 4: an area grows down into the one before it. -/
theorem applyPlan_down (res : Ptr) {p n : Ptr} {v w : VmAreaStruct} {addr : ULong}
    (h : Represents as.heap as.mt (A ++ [(p, v), (n, w)] ++ B)) (hadjacent : v.vmEnd = w.vmStart)
    (hstart : v.vmStart.toNat < addr.toNat) (hend : addr.toNat < v.vmEnd.toNat)
    (huser : v.vmEnd.toNat ≤ 2 ^ 56) (hpage : addr.toNat % 4096 = 0)
    (hpage' : v.vmEnd.toNat % 4096 = 0)
    (hanon : v.anonVma = none ∨ w.anonVma = none ∨ v.anonVma = w.anonVma)
    (hplan : plan =
      ⟨p, res, v.vmStart, addr, v.vmPgoff, some n, -(v.vmEnd - addr), none, none⟩) :
    Represents (applyPlan as plan).heap (applyPlan as plan).mt
        (A ++ [(p, v.setRange v.vmStart addr v.vmPgoff),
          (n, w.setRange addr w.vmEnd (w.vmPgoff - bytesToPages (v.vmEnd - addr)))] ++ B) ∧
      (applyPlan as plan).mapCount = as.mapCount ∧ SameFrame as (applyPlan as plan) := by
  have hv : as.heap p = v := h.mem_middle List.mem_cons_self
  have hw : as.heap n = w := h.mem_middle (List.mem_cons_of_mem _ List.mem_cons_self)
  have hnp : n ≠ p := h.pair_ne.symm
  have hdist : (v.vmEnd - addr).toNat = v.vmEnd.toNat - addr.toNat := by
    rw [BitVec.toNat_sub]
    omega
  have hneg : (-(v.vmEnd - addr)).toNat = 2 ^ 64 - (v.vmEnd.toNat - addr.toNat) := by
    rw [BitVec.toNat_neg, hdist]
    omega
  have hnonzero : -(v.vmEnd - addr) ≠ 0 := by
    intro hzero
    have hneg' := congrArg BitVec.toNat hzero
    rw [hneg] at hneg'
    simp only [BitVec.reduceToNat] at hneg'
    omega
  have hmsb : (-(v.vmEnd - addr)).msb = true := by
    rw [BitVec.msb_eq_decide]
    exact decide_eq_true (by omega)
  have hexpanded : ¬ (v.vmStart < v.vmStart ∨ v.vmEnd < addr) := by
    simp only [BitVec.lt_def]
    omega
  have hlower : w.vmStart + -(v.vmEnd - addr) = addr := by
    rw [hadjacent]
    ring
  have hpgoff : w.vmPgoff + (-(v.vmEnd - addr)).sshiftRight pageShift =
      w.vmPgoff - bytesToPages (v.vmEnd - addr) := by
    rw [sshiftRight_neg_pageShift (by omega) (by omega) (by omega)]
    ring
  have happly : applyPlan as plan =
      ((as.modify p (fun _ => v.setRange v.vmStart addr v.vmPgoff)).modify n
        (fun _ => w.setRange addr w.vmEnd
          (w.vmPgoff - bytesToPages (v.vmEnd - addr)))).vmaIterStore n := by
    rw [hplan]
    unfold applyPlan
    simp only [hv, hw, Option.any_some, adjustNeighbour, hexpanded, decide_false,
      if_neg hnonzero, hmsb, Bool.false_eq_true, if_false, if_true]
    rw [AddressSpace.warnOn_of_not as (adjust_not_warned hanon), AddressSpace.warnOn_of_not]
    · unfold vmaComplete AddressSpace.modify
      simp only [Function.update_of_ne hnp, hv, hw, hlower, hpgoff]
    · exact not_false
  rw [happly]
  refine ⟨?_, rfl, ⟨rfl, rfl, rfl⟩⟩
  rw [AddressSpace.vmaIterStore_mt, AddressSpace.modify_heap_self]
  exact h.moveDown rfl rfl rfl rfl hstart hend.le

end Moving

end UsacKernel.Analysis
