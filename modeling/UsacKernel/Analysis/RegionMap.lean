import UsacKernel.Analysis.RegionExpand

/-!
# Mapping a free range

A range where nothing is mapped gets its meaning by an area that grows over it or by a new one
(`Placed`), and `mmap_region` then counts the pages and settles the flags of the area
(`finishRegion_spec`). The flags are written into the whole area, so clearing `VM_LOCKED` for
pages that cannot be locked must not reach pages of an area that was there before; this holds
because such an area is never locked (`LockOk`).
-/

set_option autoImplicit false

namespace UsacKernel.Analysis

open UsacKernel.Computation UsacKernel.Model UsacKernel.Interface IndexedHeap

section Neighbours

variable {as : AddressSpace} {A B : List Cell} {addr : ULong}

/-- INTERNAL: the area that the iterator finds before a free range is the last one below it. -/
theorem vmaPrev_eq (h : Holds as (A ++ B)) (hA : ∀ c ∈ A, c.2.vmEnd.toNat ≤ addr.toNat)
    (hB : ∀ c ∈ B, addr.toNat ≤ c.2.vmStart.toNat) :
    as.vmaPrev addr = A.getLast?.map Prod.fst := by
  have hnone : B.reverse.find? (fun c => decide (Ranged.lo c.2 < addr.toNat)) = none := by
    rw [List.find?_eq_none]
    intro c hc hlt
    have hle := hB c (List.mem_reverse.mp hc)
    have hlt' : c.2.vmStart.toNat < addr.toNat := of_decide_eq_true hlt
    omega
  unfold AddressSpace.vmaPrev
  rw [h.rep.prev, List.reverse_append, List.find?_append, hnone, Option.none_or,
    List.getLast?_eq_head?_reverse]
  cases hrev : A.reverse with
  | nil => rfl
  | cons d l =>
    have hd : d ∈ A := List.mem_reverse.mp (by rw [hrev]; exact List.mem_cons_self)
    have hlt : Ranged.lo d.2 < addr.toNat :=
      lt_of_lt_of_le (h.lt (List.mem_append_left B hd)) (hA d hd)
    rw [List.find?_cons, decide_eq_true hlt, List.head?_cons]

/-- INTERNAL: the area that the iterator finds behind a free range is the first one above it. -/
theorem vmaNext_eq (h : Holds as (A ++ B)) (hA : ∀ c ∈ A, c.2.vmEnd.toNat ≤ addr.toNat)
    (hB : ∀ c ∈ B, addr.toNat ≤ c.2.vmStart.toNat) :
    as.vmaNext addr = B.head?.map Prod.fst := by
  have hnone : A.find? (fun c => decide (addr.toNat ≤ Ranged.lo c.2)) = none := by
    rw [List.find?_eq_none]
    intro c hc hle
    have hlt := h.lt (List.mem_append_left B hc)
    have hend := hA c hc
    have hle' : addr.toNat ≤ c.2.vmStart.toNat := of_decide_eq_true hle
    omega
  unfold AddressSpace.vmaNext
  rw [h.rep.next, List.find?_append, hnone, Option.none_or]
  cases B with
  | nil => rfl
  | cons d l =>
    have hle : addr.toNat ≤ Ranged.lo d.2 := hB d List.mem_cons_self
    rw [List.find?_cons, decide_eq_true hle, List.head?_cons]

/-- INTERNAL: nothing is mapped between two parts of the list. -/
theorem free_between {lo hi : ULong} (hA : ∀ c ∈ A, c.2.vmEnd.toNat ≤ lo.toNat)
    (hB : ∀ c ∈ B, hi.toNat ≤ c.2.vmStart.toNat) :
    ∀ a, lo.toNat ≤ a → a < hi.toNat → cellsMeaning (A ++ B) a = none := by
  intro a hlo hhi
  refine cellsMeaning_eq_none fun c hc hcon => ?_
  rcases List.mem_append.mp hc with hc | hc
  · have := hA c hc
    omega
  · have := hB c hc
    omega

end Neighbours

/-! ## Areas that are put into the tree -/

/-- The range `[lo, hi)` means `attr` now, and the area `q` covers it; this area is new and
just the range, or an area with this meaning was there before. -/
structure Placed (as as' : AddressSpace) (cells cells' : List Cell) (lo hi : ULong)
    (attr : PageAttr) (q : Ptr) : Prop where
  holds : Holds as' cells'
  covers : ∃ v, (q, v) ∈ cells' ∧ areaAttr v = attr ∧
    ((v.vmStart = lo ∧ v.vmEnd = hi) ∨ ∃ c ∈ cells, areaAttr c.2 = attr)
  meaning : cellsMeaning cells' = (cellsMeaning cells).assign lo.toNat hi.toNat attr
  anon : ∀ a x, cellsAnonVma cells a = some x → cellsAnonVma cells' a = some x
  counters : as'.counters = as.counters
  warned : as'.warned = as.warned

section Placing

variable {as as' : AddressSpace} {cells cells' A B : List Cell} {v : VmAreaStruct}

/-- INTERNAL: a merged range is placed, in the area it was merged into. -/
theorem MergedInto.placed {req : MergeRequest} {q : Ptr} (h : MergedInto as as' cells req q cells')
    (hlt : req.addr.toNat < req.stop.toNat) :
    Placed as as' cells cells' req.addr req.stop (requestAttr req) q := by
  obtain ⟨v, hv, hstart, hstop⟩ := h.covers
  exact ⟨h.holds, ⟨v, hv, h.attr_eq hlt hv hstart hstop, Or.inr h.joined⟩, h.meaning, h.anon,
    h.frame.counters, h.frame.warned⟩

/-- INTERNAL: a new area in a free range. -/
theorem placed_link (h : Holds as (A ++ B)) (hok : AreaOk v)
    (hlt : v.vmStart.toNat < v.vmEnd.toNat)
    (hA : ∀ c ∈ A, c.2.vmEnd.toNat ≤ v.vmStart.toNat)
    (hB : ∀ c ∈ B, v.vmEnd.toNat ≤ c.2.vmStart.toNat) :
    Placed as (((as.vmAreaAlloc v).vmaIterStore as.fresh).addMapCount 1) (A ++ B)
      (A ++ [(as.fresh, v)] ++ B) v.vmStart v.vmEnd (areaAttr v) as.fresh := by
  have hcells : A ++ B = A ++ [] ++ B := by rw [List.append_nil]
  rw [hcells] at h ⊢
  have hrep := h.rep.storeOver (q := as.fresh) (w := v) hlt hA hB (by simp)
    (Or.inr fun d hd => by
      rw [← List.append_nil A] at hd
      exact Nat.ne_of_lt (h.fresh d hd))
  have hstored : IndexedHeap.Represents (((as.vmAreaAlloc v).vmaIterStore as.fresh).addMapCount 1).heap
      (((as.vmAreaAlloc v).vmaIterStore as.fresh).addMapCount 1).mt
      (A ++ [(as.fresh, v)] ++ B) := by
    rw [AddressSpace.addMapCount_heap, AddressSpace.addMapCount_mt,
      AddressSpace.vmaIterStore_heap, AddressSpace.vmaIterStore_mt,
      AddressSpace.vmAreaAlloc_heap_self, AddressSpace.vmAreaAlloc_mt]
    exact hrep
  have hholds : Holds (((as.vmAreaAlloc v).vmaIterStore as.fresh).addMapCount 1)
      (A ++ [(as.fresh, v)] ++ B) := by
    refine h.of_replace hstored (Nat.le_succ _) ?_ ?_ ?_
    · intro c hc
      rw [List.mem_singleton.mp hc]
      exact Nat.lt_succ_self _
    · simp
    · intro c hc
      rw [List.mem_singleton.mp hc]
      exact hok
  refine ⟨hholds, ⟨v, by simp, rfl, Or.inl ⟨rfl, rfl⟩⟩, ?_, ?_, rfl, rfl⟩
  · exact cellsMeaning_assign hA fun a => cellsMeaning_cons (as.fresh, v) [] a
  · exact cellsAnonVma_keep hholds fun a x hx => by cases hx

end Placing

/-! ## `mmap_region` from `expanded:` on -/

section Finish

variable {as : AddressSpace} {cells : List Cell}

/-- INTERNAL: the counters are not part of the tree. -/
theorem Holds.modifyCounters (h : Holds as cells) (f : Counters → Counters) :
    Holds (as.modifyCounters f) cells :=
  ⟨h.rep, h.fresh, h.count, h.ok⟩

/-- INTERNAL: the counters are not part of what an area write sees. -/
theorem modify_modifyCounters (as : AddressSpace) (q : Ptr) (f : VmAreaStruct → VmAreaStruct)
    (g : Counters → Counters) :
    (as.modifyCounters g).modify q f = (as.modify q f).modifyCounters g := rfl

/-- The flags with which an area is left behind. -/
def finished (unlock : Bool) (v : VmAreaStruct) : VmAreaStruct :=
  (if unlock then v.clearFlags VM_LOCKED_MASK else v).setFlags VM_SOFTDIRTY

/-- INTERNAL: the last changes to a new area, of its flags, leave it where it is. -/
theorem finished_samePlace (unlock : Bool) (v : VmAreaStruct) : SamePlace v (finished unlock v) := by
  cases unlock <;> exact ⟨rfl, rfl, rfl, rfl, rfl⟩

/-- INTERNAL: a flag that is masked out does not show that it was set. -/
theorem or_and_not (x m : ULong) : (x ||| m) &&& ~~~ m = x &&& ~~~ m := by
  apply BitVec.eq_of_getLsbD_eq
  intro i hi
  simp only [BitVec.getLsbD_and, BitVec.getLsbD_or, BitVec.getLsbD_not]
  cases x.getLsbD i <;> cases m.getLsbD i <;> simp

/-- INTERNAL: what is written at the end leaves the meaning, or clears the flags for locked
pages. -/
theorem areaAttr_finished (unlock : Bool) (v : VmAreaStruct) :
    areaAttr (finished unlock v) =
      if unlock then { areaAttr v with flags := (areaAttr v).flags &&& ~~~ VM_LOCKED_MASK }
      else areaAttr v := by
  cases unlock with
  | false =>
    simp only [finished, areaAttr, VmAreaStruct.setFlags, Bool.false_eq_true, if_false, or_and_not]
  | true =>
    have hswap : v.vmFlags &&& ~~~ VM_LOCKED_MASK &&& ~~~ VM_SOFTDIRTY =
        v.vmFlags &&& ~~~ VM_SOFTDIRTY &&& ~~~ VM_LOCKED_MASK := by
      rw [BitVec.and_assoc, BitVec.and_comm (~~~ VM_LOCKED_MASK), ← BitVec.and_assoc]
    simp only [finished, areaAttr, VmAreaStruct.setFlags, VmAreaStruct.clearFlags, if_true,
      or_and_not, hswap]

/-- INTERNAL: the steps from `expanded:` on, as one write to the area and one to the counters. -/
theorem finishRegion_eq (as : AddressSpace) (q : Ptr) (vmFlags pages : ULong) {unlock : Bool}
    (hunlock : unlock = (hasFlag vmFlags VM_LOCKED && (hasFlag vmFlags VM_SPECIAL ||
      (as.heap q).isDax || hasFlag (as.heap q).vmFlags VM_HUGETLB))) :
    as.finishRegion q vmFlags pages =
      (as.modify q (finished unlock)).modifyCounters (fun c =>
        if hasFlag vmFlags VM_LOCKED && !unlock then
          (c.vmStatAccount vmFlags pages).addLockedVm pages
        else c.vmStatAccount vmFlags pages) := by
  have hheap : ∀ g, (as.modifyCounters g).heap = as.heap := fun g => rfl
  unfold AddressSpace.finishRegion
  simp only [hheap]
  by_cases hlocked : hasFlag vmFlags VM_LOCKED = true
  · by_cases hcond : hasFlag vmFlags VM_SPECIAL = true ∨ (as.heap q).isDax = true ∨
        hasFlag (as.heap q).vmFlags VM_HUGETLB = true
    · have htrue : unlock = true := by
        rw [hunlock, hlocked, Bool.true_and, Bool.or_eq_true, Bool.or_eq_true, or_assoc]
        exact hcond
      rw [if_pos hlocked, if_pos hcond, modify_modifyCounters, modify_modifyCounters,
        AddressSpace.modify_modify, htrue]
      simp only [Bool.not_true, Bool.and_false, Bool.false_eq_true, if_false]
      rfl
    · have hfalse : unlock = false := by
        rw [hunlock, hlocked, Bool.true_and, Bool.eq_false_iff, ne_eq, Bool.or_eq_true,
          Bool.or_eq_true, or_assoc]
        exact hcond
      rw [if_pos hlocked, if_neg hcond, hfalse]
      simp only [hlocked, Bool.not_false, Bool.and_true, if_true]
      rfl
  · have hfalse : unlock = false := by
      rw [hunlock, Bool.eq_false_iff.mpr hlocked, Bool.false_and]
    rw [if_neg hlocked, hfalse]
    simp only [Bool.eq_false_iff.mpr hlocked, Bool.false_and, Bool.false_eq_true, if_false]
    rfl

end Finish

/-- What mapping `n` pages at `[lo, hi)` has done: the range means `attr` and is counted. -/
structure MappedInto (as as' : AddressSpace) (cells cells' : List Cell) (lo hi : ULong)
    (attr : PageAttr) (n : ULong) : Prop where
  holds : Holds as' cells'
  meaning : cellsMeaning cells' = (cellsMeaning cells).assign lo.toNat hi.toNat attr
  anon : ∀ a x, cellsAnonVma cells a = some x → cellsAnonVma cells' a = some x
  counters : as'.counters = countMapped as.counters attr.flags n
  warned : as'.warned = as.warned
  lockable : attr.unlockable = true → hasFlag attr.flags VM_LOCKED = false

section FinishSpec

variable {as as1 : AddressSpace} {cells cells1 : List Cell} {lo hi : ULong} {attr : PageAttr}
  {q : Ptr}

/-- INTERNAL: the counters after `expanded:` are those of the flags that the pages keep. -/
theorem countMapped_settled (c : Counters) (vmFlags n : ULong)
    (hflags : vmFlags &&& ~~~ VM_SOFTDIRTY = attr.flags) :
    (if hasFlag vmFlags VM_LOCKED && !(hasFlag vmFlags VM_LOCKED && attr.unlockable) then
      (c.vmStatAccount vmFlags n).addLockedVm n
    else c.vmStatAccount vmFlags n) = countMapped c attr.settled.flags n := by
  have hlocked : hasFlag vmFlags VM_LOCKED = hasFlag attr.flags VM_LOCKED := by
    rw [← hflags, hasFlag_clear vmFlags VM_SOFTDIRTY VM_LOCKED (by decide)]
  have hstat : c.vmStatAccount vmFlags n = c.vmStatAccount attr.flags n := by
    rw [← hflags, vmStatAccount_clear c vmFlags n VM_SOFTDIRTY fun k _ => k.mask_softDirty]
  rw [hlocked, hstat]
  unfold countMapped PageAttr.settled
  by_cases hboth : hasFlag attr.flags VM_LOCKED = true ∧ attr.unlockable = true
  · have hstat' : c.vmStatAccount (attr.flags &&& ~~~ VM_LOCKED_MASK) n =
        c.vmStatAccount attr.flags n :=
      vmStatAccount_clear c attr.flags n VM_LOCKED_MASK PageClass.mask_locked
    rw [if_pos hboth]
    simp only [hasFlag_clear_locked, hstat', hboth.1, hboth.2, Bool.and_self, Bool.not_true,
      Bool.and_false, Bool.false_eq_true, if_false]
  · have hnot : (hasFlag attr.flags VM_LOCKED && attr.unlockable) = false := by
      rw [Bool.eq_false_iff, ne_eq, Bool.and_eq_true]
      exact hboth
    rw [if_neg hboth, hnot, Bool.not_false, Bool.and_true]

/-- INTERNAL: `mmap_region` from `expanded:` on: the range that was placed is counted and its
flags are settled.
SOURCE: mm/mmap.c:2943-2968 -/
theorem finishRegion_spec (hplaced : Placed as as1 cells cells1 lo hi attr q)
    (hholds : Holds as cells) (hlock : LockOk (cellsMeaning cells)) (vmFlags n : ULong)
    (hflags : vmFlags &&& ~~~ VM_SOFTDIRTY = attr.flags) :
    ∃ cells', MappedInto as (as1.finishRegion q vmFlags n) cells cells' lo hi attr.settled n := by
  obtain ⟨v, hv, hattr, hwhole⟩ := hplaced.covers
  have hread : as1.heap q = v := hplaced.holds.read (c := (q, v)) hv
  have hsame : ∀ mask, ~~~ VM_SOFTDIRTY &&& mask = mask →
      hasFlag vmFlags mask = hasFlag attr.flags mask := by
    intro mask hmask
    rw [← hflags, hasFlag_clear vmFlags VM_SOFTDIRTY mask hmask]
  have hsamev : hasFlag v.vmFlags VM_HUGETLB = hasFlag attr.flags VM_HUGETLB := by
    rw [← hattr]
    exact (hasFlag_clear v.vmFlags VM_SOFTDIRTY VM_HUGETLB (by decide)).symm
  have hdax : v.isDax = attr.file.any OpenFile.isDax := by rw [← hattr]; rfl
  have hunlock : (hasFlag vmFlags VM_LOCKED && attr.unlockable) =
      (hasFlag vmFlags VM_LOCKED && (hasFlag vmFlags VM_SPECIAL || (as1.heap q).isDax ||
        hasFlag (as1.heap q).vmFlags VM_HUGETLB)) := by
    rw [hread, hsamev, hdax, hsame VM_SPECIAL (by decide)]
    rfl
  rw [finishRegion_eq as1 q vmFlags n hunlock]
  obtain ⟨cells', hholds', -, hmeaning, hanon⟩ := hplaced.holds.write hv
    (finished_samePlace (hasFlag vmFlags VM_LOCKED && attr.unlockable) v)
  refine ⟨cells', hholds'.modifyCounters _, ?_, fun a x hx => hanon a x (hplaced.anon a x hx), ?_,
    hplaced.warned, attr.settled_lockOk⟩
  · rw [hmeaning, areaAttr_finished, hattr, hsame VM_LOCKED (by decide)]
    unfold PageAttr.settled
    by_cases hboth : hasFlag attr.flags VM_LOCKED = true ∧ attr.unlockable = true
    · -- only a new area can be locked without being lockable
      rw [if_pos hboth, hboth.1, hboth.2]
      rcases hwhole with ⟨hstart, hend⟩ | ⟨c, hc, hcattr⟩
      · rw [hstart, hend, hplaced.meaning, AddressMap.assign_assign]
        rfl
      · exfalso
        have hat := hholds.meaning_of_mem hc ⟨le_rfl, hholds.lt hc⟩
        have hnot := hlock _ _ hat (hcattr ▸ hboth.2)
        rw [hcattr, hboth.1] at hnot
        cases hnot
    · have hnot : (hasFlag attr.flags VM_LOCKED && attr.unlockable) = false := by
        rw [Bool.eq_false_iff, ne_eq, Bool.and_eq_true]
        exact hboth
      rw [if_neg hboth, hnot]
      refine Eq.trans ?_ hplaced.meaning
      rw [← hattr]
      exact hplaced.holds.assign_self hv
  · show (if _ then _ else _) = _
    rw [AddressSpace.modify_counters, hplaced.counters]
    exact countMapped_settled as.counters vmFlags n hflags

end FinishSpec

end UsacKernel.Analysis
