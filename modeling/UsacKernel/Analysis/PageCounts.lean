import UsacKernel.Analysis.Accounting
import UsacKernel.Analysis.AreaUnmap
import UsacKernel.Interface.PageAccount

/-!
# The counters are exact

`Accounted as cells leak`: every counter of the address space is the number of pages of its
class, and the pages charged against the commit limit are those of the areas with `VM_ACCOUNT`,
except for `leak` of them. Cutting and joining areas keeps this because the counts depend on the
meaning only; unmapping takes off exactly the pages that were unmapped; mapping a free range adds
its pages.
-/

set_option autoImplicit false

namespace UsacKernel.Analysis

open UsacKernel.Computation UsacKernel.Model UsacKernel.Interface IndexedHeap

/-! ## Pages of a list of areas -/

/-- The pages of an area, if its flags are such. -/
def pagesIf (f : ULong → Bool) (v : VmAreaStruct) : ℕ :=
  if f v.vmFlags then (vmaPages v.area).toNat else 0

/-- The pages of the areas with such flags. -/
def sumPages (f : ULong → Bool) (cells : List Cell) : ℕ :=
  (cells.map (fun c => pagesIf f c.2)).sum

section Sums

variable {f : ULong → Bool} {A B cells cells' : List Cell}

/-- INTERNAL: no areas have no pages of a kind. -/
@[simp] theorem sumPages_nil : sumPages f [] = 0 := rfl

/-- INTERNAL: the pages of one more area are added. -/
@[simp] theorem sumPages_cons (c : Cell) :
    sumPages f (c :: cells) = pagesIf f c.2 + sumPages f cells := by
  simp [sumPages]

/-- INTERNAL: the pages of two lists of areas are added. -/
@[simp] theorem sumPages_append : sumPages f (A ++ B) = sumPages f A + sumPages f B := by
  simp [sumPages]

/-- INTERNAL: the pages of the areas are the pages of the meaning. -/
theorem pagesWhere_cellsMeaning (hf : IgnoresSoftDirty f)
    (hordered : Span.Ordered (cells.map span)) (hok : ∀ c ∈ cells, AreaOk c.2) :
    pagesWhere (cellsMeaning cells) f = sumPages f cells := by
  induction cells with
  | nil =>
    unfold pagesWhere
    rw [sumPages_nil, Finset.card_eq_zero, Finset.filter_eq_empty_iff]
    intro k _
    simp
  | cons c rest ih =>
    have hcons : (c :: rest).map span = [span c] ++ rest.map span := rfl
    rw [hcons] at hordered
    obtain ⟨hself, hrest, hapart⟩ := hordered.of_append
    have hlt : c.2.vmStart.toNat < c.2.vmEnd.toNat := hself.nonempty (span c) List.mem_cons_self
    have hcok := hok c List.mem_cons_self
    have hassign : cellsMeaning (c :: rest) =
        (cellsMeaning rest).assign c.2.vmStart.toNat c.2.vmEnd.toNat (areaAttr c.2) := by
      funext a
      exact cellsMeaning_cons c rest a
    rw [hassign, pagesWhere_assign _ _ hcok.startPage hcok.endPage hcok.user,
      ih hrest (fun d hd => hok d (List.mem_cons_of_mem _ hd)), sumPages_cons, pagesIf,
      vmaPages_toNat c.2.area hlt.le]
    · simp only [areaAttr, hf c.2.vmFlags]
      exact Nat.add_comm _ _
    · -- the areas behind the first lie above it
      intro a _ ha
      refine cellsMeaning_eq_none fun d hd hcon => ?_
      have hle : c.2.vmEnd.toNat ≤ d.2.vmStart.toNat :=
        hapart (span c) List.mem_cons_self (span d) (List.mem_map_of_mem hd)
      omega

/-- INTERNAL: over a well-formed tree, the pages of a kind counted page by page are those
counted area by area. -/
theorem Holds.pagesWhere_eq {as : AddressSpace} (h : Holds as cells) (hf : IgnoresSoftDirty f) :
    pagesWhere (cellsMeaning cells) f = sumPages f cells :=
  pagesWhere_cellsMeaning hf h.rep.ordered h.ok

/-- INTERNAL: areas that do not overlap have at most as many pages as an address space. -/
theorem Holds.sumPages_le {as : AddressSpace} (h : Holds as cells) (hf : IgnoresSoftDirty f) :
    sumPages f cells ≤ 2 ^ 44 :=
  h.pagesWhere_eq hf ▸ pagesWhere_le _ _

/-- INTERNAL: a free range that is now mapped. -/
theorem sumPages_assign {as as' : AddressSpace} {lo hi : ℕ} {attr : PageAttr}
    (hf : IgnoresSoftDirty f) (h : Holds as cells) (h' : Holds as' cells')
    (hmeaning : cellsMeaning cells' = (cellsMeaning cells).assign lo hi attr)
    (hlo : lo % 4096 = 0) (hhi : hi % 4096 = 0) (huser : hi ≤ 2 ^ 56)
    (hfree : ∀ a, lo ≤ a → a < hi → cellsMeaning cells a = none) :
    sumPages f cells' = sumPages f cells + if f attr.flags then (hi - lo) / 4096 else 0 := by
  rw [← h'.pagesWhere_eq hf, ← h.pagesWhere_eq hf, hmeaning,
    pagesWhere_assign attr f hlo hhi huser hfree]

end Sums

/-! ## Changes of the counters -/

section Counter

variable (c : Counters) (flags n : ULong) (k : PageClass)

/-- INTERNAL: no page is of two of the classes that exclude each other in
`vm_stat_account`. -/
theorem classes_exclusive :
    (isExecMapping flags = true → isStackMapping flags = false ∧ isDataMapping flags = false) ∧
      (isStackMapping flags = true → isDataMapping flags = false) := by
  have hgrow : ∀ mask x : ULong, mask &&& VM_GROWSDOWN = VM_GROWSDOWN →
      x &&& VM_GROWSDOWN = 0 → flags &&& mask = x → flags &&& VM_GROWSDOWN = 0 := by
    intro mask x hmask hx h
    rw [← hmask, ← BitVec.and_assoc, h, hx]
  constructor
  · intro hexec
    have hexec' : flags &&& (VM_EXEC ||| VM_WRITE ||| VM_GROWSDOWN) = VM_EXEC :=
      of_decide_eq_true hexec
    constructor
    · refine decide_eq_false ?_
      rw [hgrow _ _ (by decide) (by decide) hexec']
      decide
    · refine decide_eq_false fun hdata => ?_
      have hwrite : flags &&& VM_WRITE = 0 := by
        have hmask : (VM_EXEC ||| VM_WRITE ||| VM_GROWSDOWN) &&& VM_WRITE = VM_WRITE := by decide
        rw [← hmask, ← BitVec.and_assoc, hexec']
        decide
      have hwrite' : flags &&& VM_WRITE = VM_WRITE := by
        have hmask : (VM_WRITE ||| VM_SHARED ||| VM_GROWSDOWN) &&& VM_WRITE = VM_WRITE := by decide
        rw [← hmask, ← BitVec.and_assoc, hdata]
        decide
      rw [hwrite] at hwrite'
      exact absurd hwrite' (by decide)
  · intro hstack
    have hstack' : flags &&& VM_GROWSDOWN = VM_GROWSDOWN := of_decide_eq_true hstack
    refine decide_eq_false fun hdata => ?_
    rw [hgrow _ _ (by decide) (by decide) hdata] at hstack'
    exact absurd hstack' (by decide)

/-- INTERNAL: `vm_stat_account` counts the pages in every class they are of, except for the
locked ones. -/
theorem counter_vmStatAccount :
    k.counter (c.vmStatAccount flags n) =
      k.counter c + if k ≠ .locked ∧ k.holds flags then n else 0 := by
  obtain ⟨hexec, hstack⟩ := classes_exclusive flags
  unfold Counters.vmStatAccount
  cases k with
  | total => simp only [PageClass.counter, PageClass.holds]; split_ifs <;> simp_all
  | exec => simp only [PageClass.counter, PageClass.holds]; split_ifs <;> simp_all
  | stack => simp only [PageClass.counter, PageClass.holds]; split_ifs <;> simp_all
  | data => simp only [PageClass.counter, PageClass.holds]; split_ifs <;> simp_all
  | locked => simp only [PageClass.counter, PageClass.holds]; split_ifs <;> simp_all

/-- INTERNAL: `locked_vm` is the counter of the locked pages and of no other class. -/
theorem counter_addLockedVm :
    k.counter (c.addLockedVm n) = k.counter c + if k = .locked then n else 0 := by
  cases k <;> simp [PageClass.counter, Counters.addLockedVm]

/-- INTERNAL: the commit charge is not among the counters of the page classes. -/
theorem counter_addCommitted (m : ℤ) : k.counter (c.addCommitted m) = k.counter c := by
  cases k <;> rfl

/-- INTERNAL: `vm_stat_account` leaves the commit charge alone. -/
theorem vmStatAccount_committed : (c.vmStatAccount flags n).committed = c.committed := by
  unfold Counters.vmStatAccount
  dsimp only
  split_ifs <;> rfl

/-- INTERNAL: `vm_stat_account` leaves the layout fields of the `mm` alone. -/
theorem vmStatAccount_layout : layout (c.vmStatAccount flags n) = layout c := by
  unfold Counters.vmStatAccount
  dsimp only
  split_ifs <;> rfl

/-- INTERNAL: `vm_stat_account` does not look at bits that no class of pages has. -/
theorem vmStatAccount_clear (bits : ULong)
    (h : ∀ k : PageClass, k ≠ .locked → ~~~ bits &&& k.mask = k.mask) :
    c.vmStatAccount (flags &&& ~~~ bits) n = c.vmStatAccount flags n := by
  have hexec := PageClass.exec.holds_clear flags bits (h .exec (by decide))
  have hstack := PageClass.stack.holds_clear flags bits (h .stack (by decide))
  have hdata := PageClass.data.holds_clear flags bits (h .data (by decide))
  simp only [PageClass.holds] at hexec hstack hdata
  unfold Counters.vmStatAccount
  rw [hexec, hstack, hdata]

/-- What mapping `n` pages with such flags adds to the counters. -/
def countMapped : Counters :=
  if hasFlag flags VM_LOCKED then (c.vmStatAccount flags n).addLockedVm n
  else c.vmStatAccount flags n

/-- INTERNAL: a new mapping adds its pages to the counters of the classes its flags belong to.
-/
theorem counter_countMapped :
    k.counter (countMapped c flags n) = k.counter c + if k.holds flags then n else 0 := by
  unfold countMapped
  by_cases hlocked : hasFlag flags VM_LOCKED = true
  · rw [if_pos hlocked, counter_addLockedVm, counter_vmStatAccount]
    by_cases hk : k = .locked
    · subst hk
      simp [PageClass.holds, hlocked]
    · simp [hk]
  · rw [if_neg hlocked, counter_vmStatAccount]
    by_cases hk : k = .locked
    · subst hk
      simp [PageClass.holds, hlocked]
    · simp [hk]

/-- INTERNAL: counting a new mapping leaves the commit charge alone, which is charged before. -/
theorem countMapped_committed : (countMapped c flags n).committed = c.committed := by
  unfold countMapped
  split_ifs
  · exact vmStatAccount_committed c flags n
  · exact vmStatAccount_committed c flags n

/-- INTERNAL: counting a new mapping leaves the layout fields of the `mm` alone. -/
theorem countMapped_layout : layout (countMapped c flags n) = layout c := by
  unfold countMapped
  split_ifs
  · exact vmStatAccount_layout c flags n
  · exact vmStatAccount_layout c flags n

end Counter

/-- INTERNAL: the counters after areas were taken off them. -/
theorem counter_foldl_removeArea (k : PageClass) (areas : List VmAreaStruct) (c : Counters) :
    k.counter (areas.foldl Counters.removeArea c) =
      k.counter c -
        if k ≠ .locked then (areas.map (fun v => BitVec.ofNat 64 (pagesIf k.holds v))).sum else 0 := by
  induction areas generalizing c with
  | nil => simp
  | cons v areas ih =>
    rw [List.foldl_cons, ih, Counters.removeArea, counter_vmStatAccount, List.map_cons,
      List.sum_cons]
    by_cases hk : k = .locked
    · simp [hk]
    · by_cases hflags : k.holds v.vmFlags = true
      · simp only [ne_eq, hk, not_false_eq_true, hflags, and_self, if_true, pagesIf,
          BitVec.ofNat_toNat, BitVec.setWidth_eq]
        ring
      · simp [hk, hflags, pagesIf]

/-- INTERNAL: `remove_mt` leaves the commit charge to its end, whatever it removes. -/
theorem foldl_removeArea_committed (areas : List VmAreaStruct) (c : Counters) :
    (areas.foldl Counters.removeArea c).committed = c.committed := by
  induction areas generalizing c with
  | nil => rfl
  | cons v areas ih => rw [List.foldl_cons, ih, Counters.removeArea, vmStatAccount_committed]

/-- INTERNAL: `remove_mt` leaves the layout fields of the `mm` alone. -/
theorem foldl_removeArea_layout (areas : List VmAreaStruct) (c : Counters) :
    layout (areas.foldl Counters.removeArea c) = layout c := by
  induction areas generalizing c with
  | nil => rfl
  | cons v areas ih => rw [List.foldl_cons, ih, Counters.removeArea, vmStatAccount_layout]

/-- INTERNAL: an unmapping leaves the layout fields of the `mm` alone. -/
theorem removeCells_layout (c : Counters) (M : List Cell) : layout (removeCells c M) = layout c :=
  foldl_removeArea_layout _ _

/-- INTERNAL: sums of page numbers, as words. -/
theorem sum_ofNat_pagesIf (f : ULong → Bool) (M : List Cell) :
    (M.map (fun c => BitVec.ofNat 64 (pagesIf f c.2))).sum = BitVec.ofNat 64 (sumPages f M) := by
  induction M with
  | nil => rfl
  | cons c M ih => rw [List.map_cons, List.sum_cons, ih, sumPages_cons, BitVec.ofNat_add]

/-- INTERNAL: what an unmapping takes from `locked_vm` for an area is its pages of the locked
class. -/
theorem lockedPages_eq (v : VmAreaStruct) :
    lockedPages v = BitVec.ofNat 64 (pagesIf PageClass.locked.holds v) := by
  unfold lockedPages pagesIf PageClass.holds
  split_ifs <;> simp

/-- INTERNAL: what an unmapping uncharges for an area is its accounted pages. -/
theorem accountedPages_eq (v : VmAreaStruct) :
    accountedPages v = BitVec.ofNat 64 (pagesIf isAccounted v) := by
  unfold accountedPages pagesIf isAccounted
  split_ifs <;> simp

/-- INTERNAL: an unmapping takes the pages of a class among the removed areas from the counter
of that class, in words. -/
theorem counter_removeCells (k : PageClass) (c : Counters) (M : List Cell) :
    k.counter (removeCells c M) = k.counter c - BitVec.ofNat 64 (sumPages k.holds M) := by
  have hlocked : (M.map (fun d => lockedPages d.2)).sum =
      BitVec.ofNat 64 (sumPages PageClass.locked.holds M) := by
    rw [← sum_ofNat_pagesIf]
    simp only [lockedPages_eq]
  unfold removeCells
  rw [counter_addCommitted, counter_foldl_removeArea, counter_addLockedVm, hlocked, List.map_map]
  by_cases hk : k = .locked
  · subst hk
    simp only [if_true, ne_eq, not_true_eq_false, if_false]
    ring
  · simp only [hk, if_false, ne_eq, not_false_eq_true, if_true]
    rw [← sum_ofNat_pagesIf, add_zero]
    rfl

/-- INTERNAL: an unmapping uncharges the accounted pages among the removed areas, when their
number fits a word. -/
theorem removeCells_committed (c : Counters) (M : List Cell)
    (hM : sumPages isAccounted M < 2 ^ 64) :
    (removeCells c M).committed = c.committed - sumPages isAccounted M := by
  have haccounted : (M.map (fun d => accountedPages d.2)).sum =
      BitVec.ofNat 64 (sumPages isAccounted M) := by
    rw [← sum_ofNat_pagesIf]
    simp only [accountedPages_eq]
  unfold removeCells
  rw [haccounted, BitVec.toNat_ofNat, Nat.mod_eq_of_lt hM]
  show _ + _ = _
  rw [foldl_removeArea_committed]
  show c.committed + _ = _
  ring

/-! ## The invariant -/

/-- The counters are the numbers of pages; `leak` pages are charged without an area that would
give them back. -/
structure Accounted (as : AddressSpace) (cells : List Cell) (leak : ℤ) : Prop where
  counters : ∀ k : PageClass, k.counter as.counters = BitVec.ofNat 64 (sumPages k.holds cells)
  committed : as.counters.committed = sumPages isAccounted cells + leak

section Invariant

variable {as as' : AddressSpace} {cells cells' A M B : List Cell} {leak : ℤ}

/-- INTERNAL: cutting and joining areas keeps the counters exact. -/
theorem Accounted.sameMeaning (h : Accounted as cells leak) (hholds : Holds as cells)
    (hsame : SameMeaning as as' cells cells') : Accounted as' cells' leak := by
  have hsum : ∀ f, IgnoresSoftDirty f → sumPages f cells' = sumPages f cells := by
    intro f hf
    rw [← hsame.holds.pagesWhere_eq hf, hsame.meaning, hholds.pagesWhere_eq hf]
  constructor
  · intro k
    rw [hsame.counters, hsum _ k.ignoresSoftDirty]
    exact h.counters k
  · rw [hsame.counters, hsum _ isAccounted_ignoresSoftDirty]
    exact h.committed

/-- INTERNAL: unmapping keeps the counters exact. -/
theorem Accounted.unmapped {start stop : ULong} (h : Accounted as cells leak)
    (hholds : Holds as cells) (hunmapped : UnmappedInto as as' cells start stop A M B) :
    Accounted as' (A ++ B) leak := by
  have hsum : ∀ f, IgnoresSoftDirty f →
      sumPages f cells = sumPages f (A ++ B) + sumPages f M := by
    intro f hf
    rw [← hholds.pagesWhere_eq hf, ← hunmapped.meaning,
      pagesWhere_cellsMeaning hf hunmapped.ordered hunmapped.ok]
    simp only [sumPages_append]
    ring
  constructor
  · intro k
    rw [hunmapped.counters, counter_removeCells, h.counters k, hsum _ k.ignoresSoftDirty,
      BitVec.ofNat_add]
    ring
  · have hle := hholds.sumPages_le isAccounted_ignoresSoftDirty
    have heq := hsum _ isAccounted_ignoresSoftDirty
    rw [hunmapped.counters, removeCells_committed _ _ (by omega), h.committed, heq]
    push_cast
    ring

/-- INTERNAL: mapping a free range keeps the counters exact. Pages that are not charged for
appear as a smaller `leak`. -/
theorem Accounted.mapped {lo hi : ULong} {attr : PageAttr} {n : ULong}
    (h : Accounted as cells leak) (hholds : Holds as cells) (hholds' : Holds as' cells')
    (hmeaning : cellsMeaning cells' = (cellsMeaning cells).assign lo.toNat hi.toNat attr)
    (hr : PageRange lo hi)
    (hfree : ∀ a, lo.toNat ≤ a → a < hi.toNat → cellsMeaning cells a = none)
    (hn : n = bytesToPages (hi - lo))
    (hcounters : as'.counters = countMapped as.counters attr.flags n) :
    Accounted as' cells' (leak - if isAccounted attr.flags then n.toNat else 0) := by
  have hpages : n.toNat = (hi.toNat - lo.toNat) / 4096 := by
    have hlt := hr.lt
    rw [hn, bytesToPages_toNat, BitVec.toNat_sub]
    omega
  have hsum : ∀ f, IgnoresSoftDirty f →
      sumPages f cells' = sumPages f cells + if f attr.flags then n.toNat else 0 := by
    intro f hf
    rw [sumPages_assign hf hholds hholds' hmeaning hr.addrPage hr.stopPage hr.user hfree, hpages]
  constructor
  · intro k
    rw [hcounters, counter_countMapped, h.counters k, hsum _ k.ignoresSoftDirty, BitVec.ofNat_add]
    split_ifs
    · rw [BitVec.ofNat_toNat, BitVec.setWidth_eq]
    · rfl
  · rw [hcounters, countMapped_committed, h.committed, hsum _ isAccounted_ignoresSoftDirty]
    split_ifs
    · push_cast
      ring
    · push_cast
      ring

/-- INTERNAL: what an exact counter says as a number. -/
theorem Accounted.counter_toNat (h : Accounted as cells leak) (hholds : Holds as cells)
    (k : PageClass) : (k.counter as.counters).toNat = pagesWhere (meaning as) k.holds := by
  have hle := hholds.sumPages_le k.ignoresSoftDirty
  rw [hholds.meaning_eq, hholds.pagesWhere_eq k.ignoresSoftDirty, h.counters k,
    BitVec.toNat_ofNat, Nat.mod_eq_of_lt (by omega)]

end Invariant

end UsacKernel.Analysis
