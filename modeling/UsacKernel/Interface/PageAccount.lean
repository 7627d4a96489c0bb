import UsacKernel.Interface.AddressMap
import UsacKernel.Model.AreaUnmap

/-!
# Page counters and what they count

`total_vm`, `exec_vm`, `stack_vm`, `data_vm` and `locked_vm` each count the mapped pages of a
class, which the flags of a page decide. What they should be is a function of the meaning of the
address space (`pagesWhere`), so an operation that only cuts or joins areas cannot change it.
-/

set_option autoImplicit false

namespace UsacKernel.Interface

open UsacKernel.Computation UsacKernel.Model

/-- The classes of pages that have a counter. -/
inductive PageClass where
  | total
  | exec
  | stack
  | data
  | locked
  deriving DecidableEq

/-- The flags of a page of the class. -/
def PageClass.holds : PageClass → ULong → Bool
  | .total, _ => true
  | .exec, flags => isExecMapping flags
  | .stack, flags => isStackMapping flags
  | .data, flags => isDataMapping flags
  | .locked, flags => hasFlag flags VM_LOCKED

/-- The counter of a class. -/
def PageClass.counter : PageClass → Counters → ULong
  | .total, c => c.totalVm
  | .exec, c => c.execVm
  | .stack, c => c.stackVm
  | .data, c => c.dataVm
  | .locked, c => c.lockedVm

/-- The fields beside the counts: the break, the data segment and the default flags. -/
def layout (c : Counters) : ULong × ULong × ULong × ULong × ULong :=
  (c.brk, c.startBrk, c.startData, c.endData, c.defFlags)

/-- Pages that are charged against the commit limit. -/
def isAccounted (flags : ULong) : Bool := hasFlag flags VM_ACCOUNT

/-- The mapped pages with such flags. -/
def pagesWhere (m : AddressMap) (f : ULong → Bool) : ℕ :=
  ((Finset.range (2 ^ 44)).filter
    (fun k => (m (4096 * k)).any (fun attr => f attr.flags) = true)).card

/-- INTERNAL: an address space has at most `2^44` pages of any kind. -/
theorem pagesWhere_le (m : AddressMap) (f : ULong → Bool) : pagesWhere m f ≤ 2 ^ 44 := by
  unfold pagesWhere
  refine (Finset.card_filter_le _ _).trans ?_
  rw [Finset.card_range]

/-- MAIN: **mapping a free range** adds its pages to the classes of its flags. -/
theorem pagesWhere_assign {m : AddressMap} {lo hi : ℕ} (attr : PageAttr) (f : ULong → Bool)
    (hlo : lo % 4096 = 0) (hhi : hi % 4096 = 0) (huser : hi ≤ 2 ^ 56)
    (hfree : ∀ a, lo ≤ a → a < hi → m a = none) :
    pagesWhere (m.assign lo hi attr) f =
      pagesWhere m f + if f attr.flags then (hi - lo) / 4096 else 0 := by
  have hin : ∀ k, (lo ≤ 4096 * k ∧ 4096 * k < hi) ↔ (lo / 4096 ≤ k ∧ k < hi / 4096) := by
    intro k
    omega
  unfold pagesWhere
  split_ifs with hf
  · have hdisjoint : Disjoint
        ((Finset.range (2 ^ 44)).filter
          (fun k => (m (4096 * k)).any (fun attr => f attr.flags) = true))
        (Finset.Ico (lo / 4096) (hi / 4096)) := by
      rw [Finset.disjoint_left]
      intro k hk hk'
      rw [Finset.mem_filter] at hk
      rw [Finset.mem_Ico, ← hin] at hk'
      rw [hfree _ hk'.1 hk'.2] at hk
      exact absurd hk.2 (by simp)
    have hunion : (Finset.range (2 ^ 44)).filter
          (fun k => ((m.assign lo hi attr) (4096 * k)).any (fun attr => f attr.flags) = true) =
        (Finset.range (2 ^ 44)).filter
          (fun k => (m (4096 * k)).any (fun attr => f attr.flags) = true) ∪
        Finset.Ico (lo / 4096) (hi / 4096) := by
      ext k
      rw [Finset.mem_union, Finset.mem_filter, Finset.mem_filter, Finset.mem_range, Finset.mem_Ico,
        ← hin, AddressMap.assign]
      by_cases hk : lo ≤ 4096 * k ∧ 4096 * k < hi
      · rw [if_pos hk, Option.any_some]
        refine ⟨fun _ => Or.inr hk, fun _ => ⟨by omega, hf⟩⟩
      · rw [if_neg hk]
        tauto
    rw [hunion, Finset.card_union_of_disjoint hdisjoint, Nat.card_Ico]
    omega
  · rw [Nat.add_zero]
    refine congrArg Finset.card (Finset.filter_congr fun k _ => ?_)
    unfold AddressMap.assign
    split_ifs with hk
    · rw [hfree _ hk.1 hk.2]
      simp [hf]
    · rfl

/-- INTERNAL: a removal adds no pages of any kind. -/
theorem pagesWhere_remove_le (m : AddressMap) (lo hi : ℕ) (f : ULong → Bool) :
    pagesWhere (m.remove lo hi) f ≤ pagesWhere m f := by
  unfold pagesWhere
  refine Finset.card_le_card (Finset.monotone_filter_right _ fun k _ hk => ?_)
  unfold AddressMap.remove at hk
  split_ifs at hk with hin
  · simp at hk
  · exact hk

/-- INTERNAL: mapping a range adds at most its pages, whatever was mapped there. -/
theorem pagesWhere_assign_le (m : AddressMap) {lo hi : ℕ} (attr : PageAttr) (f : ULong → Bool)
    (hlo : lo % 4096 = 0) (hhi : hi % 4096 = 0) (huser : hi ≤ 2 ^ 56) :
    pagesWhere (m.assign lo hi attr) f ≤ pagesWhere m f + (hi - lo) / 4096 := by
  have hfree : ∀ a, lo ≤ a → a < hi → m.remove lo hi a = none := fun a hla hah =>
    if_pos ⟨hla, hah⟩
  have hremoved := pagesWhere_remove_le m lo hi f
  rw [← AddressMap.remove_assign, pagesWhere_assign attr f hlo hhi huser hfree]
  split_ifs
  · exact Nat.add_le_add_right hremoved _
  · rw [Nat.add_zero]
    exact Nat.le_add_right_of_le hremoved

/-! ## Flags that a class does not look at -/

/-- A condition on flags that does not look at `VM_SOFTDIRTY`. -/
def IgnoresSoftDirty (f : ULong → Bool) : Prop :=
  ∀ flags, f (flags &&& ~~~ VM_SOFTDIRTY) = f flags

/-- INTERNAL: clearing other bits does not change what a mask lets through. -/
theorem and_clear_and (flags bits mask : ULong) (h : ~~~ bits &&& mask = mask) :
    flags &&& ~~~ bits &&& mask = flags &&& mask := by
  rw [BitVec.and_assoc, h]

/-- INTERNAL: clearing bits outside a mask does not change what the mask sees. -/
theorem hasFlag_clear (flags bits mask : ULong) (h : ~~~ bits &&& mask = mask) :
    hasFlag (flags &&& ~~~ bits) mask = hasFlag flags mask := by
  unfold hasFlag
  rw [and_clear_and flags bits mask h]

/-- The bits that decide whether a page is of the class. -/
def PageClass.mask : PageClass → ULong
  | .total => 0
  | .exec => VM_EXEC ||| VM_WRITE ||| VM_GROWSDOWN
  | .stack => VM_GROWSDOWN
  | .data => VM_WRITE ||| VM_SHARED ||| VM_GROWSDOWN
  | .locked => VM_LOCKED

/-- INTERNAL: clearing bits outside the mask of a class leaves a page in its class. -/
theorem PageClass.holds_clear (k : PageClass) (flags bits : ULong)
    (h : ~~~ bits &&& k.mask = k.mask) : k.holds (flags &&& ~~~ bits) = k.holds flags := by
  have hmask := and_clear_and flags bits k.mask h
  cases k with
  | total => rfl
  | exec => simp only [PageClass.holds, isExecMapping, PageClass.mask] at hmask ⊢; rw [hmask]
  | stack => simp only [PageClass.holds, isStackMapping, PageClass.mask] at hmask ⊢; rw [hmask]
  | data => simp only [PageClass.holds, isDataMapping, PageClass.mask] at hmask ⊢; rw [hmask]
  | locked => exact hasFlag_clear flags bits VM_LOCKED h

/-- INTERNAL: no class looks at the soft dirty bit. -/
theorem PageClass.mask_softDirty (k : PageClass) : ~~~ VM_SOFTDIRTY &&& k.mask = k.mask := by
  cases k <;> decide

/-- INTERNAL: only the locked class looks at the bits of a lock. -/
theorem PageClass.mask_locked (k : PageClass) (h : k ≠ .locked) :
    ~~~ VM_LOCKED_MASK &&& k.mask = k.mask := by
  cases k with
  | locked => exact absurd rfl h
  | _ => decide

/-- INTERNAL: a page is in the same classes with and without the soft dirty bit. -/
theorem PageClass.ignoresSoftDirty (k : PageClass) : IgnoresSoftDirty k.holds := fun flags =>
  k.holds_clear flags VM_SOFTDIRTY k.mask_softDirty

/-- INTERNAL: a page is accounted with and without the soft dirty bit. -/
theorem isAccounted_ignoresSoftDirty : IgnoresSoftDirty isAccounted := fun flags =>
  hasFlag_clear flags VM_SOFTDIRTY VM_ACCOUNT (by decide)

/-! ## Locked pages -/

/-- Pages that `mlock` never locks. -/
def PageAttr.unlockable (attr : PageAttr) : Bool :=
  hasFlag attr.flags VM_SPECIAL || attr.file.any OpenFile.isDax || hasFlag attr.flags VM_HUGETLB

/-- What is left of a request to lock such pages. -/
def PageAttr.settled (attr : PageAttr) : PageAttr :=
  if hasFlag attr.flags VM_LOCKED ∧ attr.unlockable then
    { attr with flags := attr.flags &&& ~~~ VM_LOCKED_MASK }
  else attr

/-- No page is locked that cannot be. -/
def LockOk (m : AddressMap) : Prop :=
  ∀ a attr, m a = some attr → attr.unlockable = true → hasFlag attr.flags VM_LOCKED = false

/-- INTERNAL: the bits of a lock include `VM_LOCKED`. -/
theorem hasFlag_clear_locked (flags : ULong) :
    hasFlag (flags &&& ~~~ VM_LOCKED_MASK) VM_LOCKED = false := by
  have hzero : ~~~ VM_LOCKED_MASK &&& VM_LOCKED = 0 := by decide
  refine decide_eq_false (not_not_intro ?_)
  rw [BitVec.and_assoc, hzero]
  exact BitVec.and_zero

/-- INTERNAL: pages that cannot be locked are not, once the request is settled. -/
theorem PageAttr.settled_lockOk (attr : PageAttr) (h : attr.settled.unlockable = true) :
    hasFlag attr.settled.flags VM_LOCKED = false := by
  unfold PageAttr.settled at h ⊢
  split_ifs at h ⊢ with hboth
  · exact hasFlag_clear_locked attr.flags
  · exact Bool.eq_false_iff.mpr fun hlocked => hboth ⟨hlocked, h⟩

/-- INTERNAL: mapping pages that are locked only if they can be keeps it so for all pages. -/
theorem LockOk.assign {m : AddressMap} (h : LockOk m) (lo hi : ℕ) {attr : PageAttr}
    (hattr : attr.unlockable = true → hasFlag attr.flags VM_LOCKED = false) :
    LockOk (m.assign lo hi attr) := by
  intro a attr' ha
  unfold AddressMap.assign at ha
  split_ifs at ha
  · obtain rfl := Option.some.inj ha
    exact hattr
  · exact h a attr' ha

/-- INTERNAL: unmapping locks no page. -/
theorem LockOk.remove {m : AddressMap} (h : LockOk m) (lo hi : ℕ) : LockOk (m.remove lo hi) := by
  intro a attr ha
  unfold AddressMap.remove at ha
  split_ifs at ha
  exact h a attr ha

end UsacKernel.Interface
