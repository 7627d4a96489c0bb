import UsacKernel.Analysis.MergeSpec

/-!
# Splitting areas, and changing a range

`__split_vma` cuts an area in two at an address; what is mapped where does not change
(`cellsMeaning_splitCells`). `vma_modify` prepares a range inside an area for new flags, a new
policy or a new name: it merges the range into a neighbour that already has them, or cuts the
area so that the range is an area of its own. Its callers then write the new values into the
area they get back. `vmaModify_contract` says that this gives the range the new meaning whichever
way was taken, and that a failure, even one after the first of two cuts, changes no meaning.
-/

set_option autoImplicit false

namespace UsacKernel.Analysis

open UsacKernel.Computation UsacKernel.Model UsacKernel.Interface IndexedHeap

/-! ## `__split_vma` -/

/-- The part of an area below an address. -/
def lowerPart (v : VmAreaStruct) (addr : ULong) : VmAreaStruct :=
  v.setRange v.vmStart addr v.vmPgoff

/-- The part of an area from an address on. -/
def upperPart (v : VmAreaStruct) (addr : ULong) : VmAreaStruct :=
  v.setRange addr v.vmEnd (v.vmPgoff + bytesToPages (addr - v.vmStart))

/-- What an area becomes when it is split. -/
def splitCells (p new : Ptr) (v : VmAreaStruct) (addr : ULong) (newBelow : Bool) : List Cell :=
  if newBelow then [(new, lowerPart v addr), (p, upperPart v addr)]
  else [(p, lowerPart v addr), (new, upperPart v addr)]

section Split

variable {as : AddressSpace} {A B : List Cell} {p new : Ptr} {v : VmAreaStruct} {addr : ULong}

/-- An address at which an area can be cut. -/
structure CutsAt (v : VmAreaStruct) (addr : ULong) : Prop where
  start : v.vmStart.toNat < addr.toNat
  stop : addr.toNat < v.vmEnd.toNat
  page : addr.toNat % 4096 = 0

/-- INTERNAL: the assertions of `__split_vma`. -/
theorem CutsAt.not_warned (h : CutsAt v addr) : ¬ v.vmStart ≥ addr ∧ ¬ v.vmEnd ≤ addr := by
  obtain ⟨hstart, hstop, _⟩ := h
  constructor
  · intro hge
    have hle := BitVec.le_def.mp hge
    omega
  · intro hge
    have hle := BitVec.le_def.mp hge
    omega

/-- INTERNAL: the lower part of an area has its attributes. -/
theorem areaAttr_lowerPart (v : VmAreaStruct) (addr : ULong) :
    areaAttr (lowerPart v addr) = areaAttr v :=
  areaAttr_setRange rfl

/-- INTERNAL: the upper part of an area has its attributes, since its page offset moves with its
start. -/
theorem areaAttr_upperPart (hok : AreaOk v) (hcut : CutsAt v addr) :
    areaAttr (upperPart v addr) = areaAttr v := by
  refine areaAttr_setRange ?_
  rw [bytesToPages_sub hcut.start.le hok.startPage]
  ring

/-- INTERNAL: the lower part of a well-formed area is well formed. -/
theorem AreaOk.lowerPart (hok : AreaOk v) (hcut : CutsAt v addr) : AreaOk (lowerPart v addr) :=
  hok.setRange hok.startPage hcut.page (hcut.stop.le.trans hok.user)

/-- INTERNAL: the upper part of a well-formed area is well formed. -/
theorem AreaOk.upperPart (hok : AreaOk v) (hcut : CutsAt v addr) : AreaOk (upperPart v addr) :=
  hok.setRange hcut.page hok.endPage hok.user

/-- INTERNAL: a split does not show in the meaning. -/
theorem cellsMeaning_splitCells (hok : AreaOk v) (hcut : CutsAt v addr) (newBelow : Bool) (a : ℕ) :
    cellsMeaning (splitCells p new v addr newBelow) a = cellsMeaning [(p, v)] a := by
  have hstart := hcut.start
  have hstop := hcut.stop
  have hparts : ∀ q r : Ptr, cellsMeaning [(q, lowerPart v addr), (r, upperPart v addr)] a =
      cellsMeaning [(p, v)] a := by
    intro q r
    rw [cellsMeaning_cons_of rfl rfl (areaAttr_lowerPart v addr),
      cellsMeaning_cons_of rfl rfl (areaAttr_upperPart hok hcut), cellsMeaning_nil,
      cellsMeaning_cons_of rfl rfl rfl, cellsMeaning_nil]
    show (if v.vmStart.toNat ≤ a ∧ a < addr.toNat then _
      else if addr.toNat ≤ a ∧ a < v.vmEnd.toNat then _ else _) = _
    split_ifs <;> first | rfl | omega
  cases newBelow with
  | true => exact hparts new p
  | false => exact hparts p new

/-- INTERNAL: nor in the `anon_vma` of a page. -/
theorem cellsAnonVma_splitCells (hcut : CutsAt v addr) (newBelow : Bool) (a : ℕ) :
    cellsAnonVma (splitCells p new v addr newBelow) a = cellsAnonVma [(p, v)] a := by
  have hstart := hcut.start
  have hstop := hcut.stop
  have hparts : ∀ q r : Ptr, cellsAnonVma [(q, lowerPart v addr), (r, upperPart v addr)] a =
      cellsAnonVma [(p, v)] a := by
    intro q r
    unfold lowerPart upperPart
    rw [cellsAnonVma_setRange, cellsAnonVma_setRange, cellsAnonVma_nil,
      cellsAnonVma_cons_of rfl rfl rfl, cellsAnonVma_nil]
    split_ifs <;> first | rfl | omega
  cases newBelow with
  | true => exact hparts new p
  | false => exact hparts p new

/-- What a split has done to the list of areas and to the rest of the address space. -/
structure SplitInto (as as' : AddressSpace) (A : List Cell) (p : Ptr) (v : VmAreaStruct)
    (B : List Cell) (addr : ULong) (newBelow : Bool) : Prop where
  holds : Holds as' (A ++ splitCells p as.fresh v addr newBelow ++ B)
  counters : as'.counters = as.counters
  warned : as'.warned = as.warned

/-- INTERNAL: the state after a split for which there was memory. -/
theorem splitVmaUnchecked_ok {ans : SplitAnswers} (h : Holds as (A ++ [(p, v)] ++ B))
    (hcut : CutsAt v addr) (hans : ans.error = none) (newBelow : Bool) :
    ∃ as', splitVmaUnchecked ans as p addr newBelow = (none, as') ∧
      Represents as'.heap as'.mt (A ++ splitCells p as.fresh v addr newBelow ++ B) ∧
      as'.fresh = as.fresh + 1 ∧ as'.mapCount = as.mapCount + 1 ∧
      as'.counters = as.counters ∧ as'.warned = as.warned := by
  have hread : as.heap p = v := h.read (c := (p, v)) (by simp)
  have hnew : ∀ c ∈ A ++ [(p, v)] ++ B, c.1 ≠ as.fresh := fun c hc => (h.fresh c hc).ne
  have hne : p ≠ as.fresh := hnew (p, v) (by simp)
  obtain ⟨hwarn1, hwarn2⟩ := hcut.not_warned
  unfold splitVmaUnchecked
  simp only [hread, AddressSpace.warnOn_of_not as hwarn1, AddressSpace.warnOn_of_not as hwarn2,
    hans]
  refine ⟨_, rfl, ?_, rfl, rfl, rfl, rfl⟩
  cases newBelow with
  | true =>
    have hsplit := h.rep.splitBelow (lowerPart v addr) (upperPart v addr) hnew
      rfl rfl rfl rfl hcut.start hcut.stop
    simp only [if_true, AddressSpace.addMapCount_heap, AddressSpace.addMapCount_mt,
      AddressSpace.vmaIterStore_heap, AddressSpace.vmaIterStore_mt,
      AddressSpace.modify_heap_of_ne _ _ _ hne.symm, AddressSpace.vmAreaAlloc_heap_self,
      AddressSpace.modify_mt, AddressSpace.vmAreaAlloc_mt]
    simp only [AddressSpace.modify, AddressSpace.vmAreaAlloc, Function.update_of_ne hne, hread]
    exact hsplit
  | false =>
    have hsplit := h.rep.splitAbove (lowerPart v addr) (upperPart v addr) hnew
      rfl rfl rfl rfl hcut.start hcut.stop
    rw [Function.update_comm hne] at hsplit
    simp only [Bool.false_eq_true, if_false, AddressSpace.addMapCount_heap,
      AddressSpace.addMapCount_mt, AddressSpace.vmaIterStore_heap, AddressSpace.vmaIterStore_mt,
      AddressSpace.modify_heap_of_ne _ _ _ hne.symm, AddressSpace.vmAreaAlloc_heap_self,
      AddressSpace.modify_mt, AddressSpace.vmAreaAlloc_mt]
    simp only [AddressSpace.modify, AddressSpace.vmAreaAlloc, Function.update_of_ne hne, hread]
    exact hsplit

/-- INTERNAL: a split that fails in one of its allocations changes nothing. -/
theorem splitVmaUnchecked_error {ans : SplitAnswers} {e : Errno}
    (h : Holds as (A ++ [(p, v)] ++ B)) (hcut : CutsAt v addr) (hans : ans.error = some e)
    (newBelow : Bool) : splitVmaUnchecked ans as p addr newBelow = (some e, as) := by
  have hread : as.heap p = v := h.read (c := (p, v)) (by simp)
  obtain ⟨hwarn1, hwarn2⟩ := hcut.not_warned
  unfold splitVmaUnchecked
  simp only [hread, AddressSpace.warnOn_of_not as hwarn1, AddressSpace.warnOn_of_not as hwarn2,
    hans]

/-- INTERNAL: the two parts are areas of the same address space. -/
theorem mem_splitCells {newBelow : Bool} {c : Cell}
    (hc : c ∈ splitCells p new v addr newBelow) :
    (c.1 = p ∨ c.1 = new) ∧ (c.2 = lowerPart v addr ∨ c.2 = upperPart v addr) := by
  unfold splitCells at hc
  split_ifs at hc
  · simp only [List.mem_cons, List.not_mem_nil, or_false] at hc
    rcases hc with rfl | rfl
    · exact ⟨Or.inr rfl, Or.inl rfl⟩
    · exact ⟨Or.inl rfl, Or.inr rfl⟩
  · simp only [List.mem_cons, List.not_mem_nil, or_false] at hc
    rcases hc with rfl | rfl
    · exact ⟨Or.inl rfl, Or.inl rfl⟩
    · exact ⟨Or.inr rfl, Or.inr rfl⟩

/-- INTERNAL: a split makes two records out of one. -/
theorem length_splitCells (newBelow : Bool) :
    (splitCells p new v addr newBelow).length = 2 := by
  unfold splitCells
  split_ifs <;> rfl

/-- INTERNAL: `__split_vma` fails and changes nothing, or cuts the area.
SOURCE: mm/mmap.c:2345-2421 -/
theorem splitVmaUnchecked_spec (ans : SplitAnswers) (h : Holds as (A ++ [(p, v)] ++ B))
    (hcut : CutsAt v addr) (newBelow : Bool) :
    (∃ e, splitVmaUnchecked ans as p addr newBelow = (some e, as)) ∨
      ∃ as', splitVmaUnchecked ans as p addr newBelow = (none, as') ∧
        SplitInto as as' A p v B addr newBelow := by
  have hok : AreaOk v := h.ok (p, v) (by simp)
  have hpf : p < as.fresh := h.fresh (p, v) (by simp)
  cases hans : ans.error with
  | some e => exact Or.inl ⟨e, splitVmaUnchecked_error h hcut hans newBelow⟩
  | none =>
    obtain ⟨as', heq, hrep, hfresh, hcount, hcounters, hwarned⟩ :=
      splitVmaUnchecked_ok h hcut hans newBelow
    refine Or.inr ⟨as', heq, ?_, hcounters, hwarned⟩
    refine h.of_replace hrep (hfresh ▸ Nat.le_succ _) ?_ ?_ ?_
    · intro c hc
      rw [hfresh]
      rcases (mem_splitCells hc).1 with hp | hnew
      · rw [hp]
        exact Nat.lt_succ_of_lt hpf
      · rw [hnew]
        exact Nat.lt_succ_self _
    · rw [hcount, length_splitCells]
      simp only [List.length_cons, List.length_nil]
      push_cast
      ring
    · intro c hc
      rcases (mem_splitCells hc).2 with hl | hu
      · rw [hl]
        exact hok.lowerPart hcut
      · rw [hu]
        exact hok.upperPart hcut

/-- INTERNAL: `split_vma`, which also looks at the number of areas. -/
theorem splitVma_spec (env : MmEnv) (ans : SplitAnswers) (h : Holds as (A ++ [(p, v)] ++ B))
    (hcut : CutsAt v addr) (newBelow : Bool) :
    (∃ e, splitVma env ans as p addr newBelow = (some e, as)) ∨
      ∃ as', splitVma env ans as p addr newBelow = (none, as') ∧
        SplitInto as as' A p v B addr newBelow := by
  unfold splitVma
  split_ifs
  · exact Or.inl ⟨ENOMEM, rfl⟩
  · exact splitVmaUnchecked_spec ans h hcut newBelow

/-- INTERNAL: nothing that is mapped changes with a split. -/
theorem Holds.split_meaning (h : Holds as (A ++ [(p, v)] ++ B)) (hcut : CutsAt v addr)
    (newBelow : Bool) :
    cellsMeaning (A ++ splitCells p as.fresh v addr newBelow ++ B) =
      cellsMeaning (A ++ [(p, v)] ++ B) :=
  cellsMeaning_congr (cellsMeaning_splitCells (h.ok (p, v) (by simp)) hcut newBelow)

end Split

/-! ## Writing into an area -/

/-- INTERNAL: the area that a merge returns means what was requested. -/
theorem MergedInto.attr_eq {as as' : AddressSpace} {cells cells' : List Cell} {req : MergeRequest}
    {q : Ptr} {w : VmAreaStruct} (h : MergedInto as as' cells req q cells')
    (hlt : req.addr.toNat < req.stop.toNat) (hw : (q, w) ∈ cells')
    (hstart : w.vmStart.toNat ≤ req.addr.toNat) (hstop : req.stop.toNat ≤ w.vmEnd.toNat) :
    areaAttr w = requestAttr req := by
  have hat := h.holds.meaning_of_mem hw ⟨hstart, lt_of_lt_of_le hlt hstop⟩
  rw [h.meaning, AddressMap.assign, if_pos ⟨le_rfl, hlt⟩] at hat
  exact (Option.some.inj hat).symm

section Write

variable {as : AddressSpace} {cells : List Cell} {q : Ptr} {w : VmAreaStruct}
  {f : VmAreaStruct → VmAreaStruct}

/-- INTERNAL: an area is written and stays in its place. -/
theorem Holds.write (h : Holds as cells) (hw : (q, w) ∈ cells) (hsame : SamePlace w (f w)) :
    ∃ cells', Holds (as.modify q f) cells' ∧ (q, f w) ∈ cells' ∧
      cellsMeaning cells' =
        (cellsMeaning cells).assign w.vmStart.toNat w.vmEnd.toNat (areaAttr (f w)) ∧
      ∀ a x, cellsAnonVma cells a = some x → cellsAnonVma cells' a = some x := by
  obtain ⟨L, R, hcells⟩ := List.append_of_mem hw
  have hlist : cells = L ++ [(q, w)] ++ R := by rw [hcells]; simp
  subst hlist
  have hrep := represents_modify (L := []) (R := []) (f := f) h.rep hsame.vmStart hsame.vmEnd
  have hholds : Holds (as.modify q f) (L ++ [(q, f w)] ++ R) := by
    refine h.of_replace hrep le_rfl ?_ ?_ ?_
    · intro c hc
      rw [List.mem_singleton.mp hc]
      exact h.fresh (q, w) (by simp)
    · simp
    · intro c hc
      rw [List.mem_singleton.mp hc]
      exact (h.ok (q, w) (by simp)).samePlace hsame
  refine ⟨_, hholds, by simp, ?_, ?_⟩
  · refine cellsMeaning_assign (fun c hc => h.assoc.le (d := (q, w)) hc (by simp)) fun a => ?_
    rw [cellsMeaning_cons_of hsame.vmStart hsame.vmEnd rfl, cellsMeaning_cons_of rfl rfl rfl,
      cellsMeaning_nil]
    split_ifs <;> rfl
  · refine cellsAnonVma_keep (M := [(q, w)]) hholds fun a x hx => ?_
    rw [cellsAnonVma_cons_of hsame.vmStart hsame.vmEnd hsame.anonVma]
    rwa [cellsAnonVma_cons_of rfl rfl rfl] at hx

/-- INTERNAL: writing the same meaning changes none. -/
theorem Holds.assign_self (h : Holds as cells) (hw : (q, w) ∈ cells) :
    (cellsMeaning cells).assign w.vmStart.toNat w.vmEnd.toNat (areaAttr w) =
      cellsMeaning cells := by
  funext a
  unfold AddressMap.assign
  split_ifs with hin
  · exact (h.meaning_of_mem hw hin).symm
  · rfl

end Write

/-- What is left after cuts that did not change what is mapped. -/
structure SameMeaning (as as' : AddressSpace) (cells cells' : List Cell) : Prop where
  holds : Holds as' cells'
  meaning : cellsMeaning cells' = cellsMeaning cells
  anon : ∀ a x, cellsAnonVma cells a = some x → cellsAnonVma cells' a = some x
  counters : as'.counters = as.counters
  warned : as'.warned = as.warned

/-- INTERNAL: doing nothing keeps the meaning. -/
theorem SameMeaning.refl {as : AddressSpace} {cells : List Cell} (h : Holds as cells) :
    SameMeaning as as cells cells :=
  ⟨h, rfl, fun _ _ hx => hx, rfl, rfl⟩

/-- INTERNAL: two changes that keep the meaning keep it together. -/
theorem SameMeaning.trans {as as' as'' : AddressSpace} {cells cells' cells'' : List Cell}
    (h : SameMeaning as as' cells cells') (h' : SameMeaning as' as'' cells' cells'') :
    SameMeaning as as'' cells cells'' :=
  ⟨h'.holds, h'.meaning.trans h.meaning, fun a x hx => h'.anon a x (h.anon a x hx),
    h'.counters.trans h.counters, h'.warned.trans h.warned⟩

/-! ## `vma_modify` -/

/-- INTERNAL: a change of flags, policy or name leaves the area where it is. -/
theorem modified_samePlace (req : ModifyRequest) (w : VmAreaStruct) :
    SamePlace w (modified req w) :=
  ⟨rfl, rfl, rfl, rfl, rfl⟩

/-- Where `vma_modify` is called: for a range inside an area, with the area before the range. -/
structure ModifySite (A : List Cell) (p : Ptr) (v : VmAreaStruct) (prev : Option Ptr)
    (req : ModifyRequest) : Prop where
  range : PageRange req.start req.stop
  start : v.vmStart.toNat ≤ req.start.toNat
  stop : req.stop.toNat ≤ v.vmEnd.toNat
  prev : prev = if v.vmStart = req.start then A.getLast?.map Prod.fst else some p

section Modify

variable {as : AddressSpace} {A B : List Cell} {p : Ptr} {v : VmAreaStruct} {prev : Option Ptr}
  {req : ModifyRequest}

/-- INTERNAL: `vma_modify` asks for a merge where one may be asked for. -/
theorem ModifySite.mergeSite (hsite : ModifySite A p v prev req) :
    MergeSite (A ++ [(p, v)] ++ B) prev (req.merge v) := by
  have hprev := hsite.prev
  by_cases heq : v.vmStart = req.start
  · rw [if_pos heq] at hprev
    refine MergeSite.atStart A p v B rfl heq hsite.stop hprev rfl ?_
    show v.vmPgoff + bytesToPages (req.start - v.vmStart) = v.vmPgoff
    rw [heq, sub_self]
    simp [bytesToPages]
  · rw [if_neg heq] at hprev
    have hne : v.vmStart.toNat ≠ req.start.toNat := fun h => heq (BitVec.eq_of_toNat_eq h)
    have hle := hsite.start
    exact MergeSite.inside A p v B rfl (show v.vmStart.toNat < req.start.toNat by omega)
      hsite.stop hprev rfl rfl

/-- What `vma_modify` has prepared: once the values are written into the area `q`, the range has
the new meaning and nothing else has changed. -/
structure ReadyToWrite (as as' : AddressSpace) (cells : List Cell) (req : ModifyRequest)
    (attr : PageAttr) (q : Ptr) : Prop where
  holds : ∃ cells', Holds (as'.modify q (modified req)) cells' ∧
    cellsMeaning cells' = (cellsMeaning cells).assign req.start.toNat req.stop.toNat attr ∧
    ∀ a x, cellsAnonVma cells a = some x → cellsAnonVma cells' a = some x
  counters : as'.counters = as.counters
  warned : as'.warned = as.warned

/-- INTERNAL: the range as an area of its own. -/
theorem readyToWrite_exact {as' : AddressSpace} {cells cells' : List Cell} {q : Ptr}
    {w : VmAreaStruct} (hsame : SameMeaning as as' cells cells') (hw : (q, w) ∈ cells')
    (hstart : w.vmStart = req.start) (hstop : w.vmEnd = req.stop) :
    ReadyToWrite as as' cells req (areaAttr (modified req w)) q := by
  obtain ⟨cells'', hholds, -, hmeaning, hanon⟩ :=
    hsame.holds.write hw (modified_samePlace req w)
  refine ⟨⟨cells'', hholds, ?_, fun a x hx => hanon a x (hsame.anon a x hx)⟩, hsame.counters,
    hsame.warned⟩
  rw [hmeaning, hsame.meaning, hstart, hstop]

/-- INTERNAL: the range inside an area that already means what is requested. -/
theorem readyToWrite_merged {as' : AddressSpace} {cells cells' : List Cell} {q : Ptr}
    (hmerged : MergedInto as as' cells (req.merge v) q cells')
    (hlt : req.start.toNat < req.stop.toNat) :
    ReadyToWrite as as' cells req (requestAttr (req.merge v)) q := by
  obtain ⟨w, hw, hstart, hstop⟩ := hmerged.covers
  have hattr := hmerged.attr_eq hlt hw hstart hstop
  have hwrite : areaAttr (modified req w) = areaAttr w := by
    rw [hattr]
    have hbase := congrArg PageAttr.base hattr
    have hfile := congrArg PageAttr.file hattr
    simp only [areaAttr, requestAttr] at hbase hfile ⊢
    simp only [modified, ModifyRequest.merge] at hbase hfile ⊢
    rw [hbase, hfile]
  obtain ⟨cells'', hholds, -, hmeaning, hanon⟩ :=
    hmerged.holds.write hw (modified_samePlace req w)
  refine ⟨⟨cells'', hholds, ?_, fun a x hx => hanon a x (hmerged.anon a x hx)⟩,
    hmerged.frame.counters, hmerged.frame.warned⟩
  rw [hmeaning, hwrite, hmerged.holds.assign_self hw]
  exact hmerged.meaning

/-- INTERNAL: a split shows at no address, for its two parts cover the area with its attributes.
-/
theorem SplitInto.sameMeaning {as' : AddressSpace} {addr : ULong} {newBelow : Bool}
    (h : Holds as (A ++ [(p, v)] ++ B)) (hcut : CutsAt v addr)
    (hsplit : SplitInto as as' A p v B addr newBelow) :
    SameMeaning as as' (A ++ [(p, v)] ++ B) (A ++ splitCells p as.fresh v addr newBelow ++ B) where
  holds := hsplit.holds
  meaning := h.split_meaning hcut newBelow
  anon := by
    refine cellsAnonVma_keep hsplit.holds fun a x hx => ?_
    rwa [cellsAnonVma_splitCells hcut]
  counters := hsplit.counters
  warned := hsplit.warned

/-- INTERNAL: the first cut of `vma_modify`: the area starts with the range afterwards. -/
theorem cutBelow_spec (env : MmEnv) (ans : SplitAnswers) (h : Holds as (A ++ [(p, v)] ++ B))
    {start : ULong} (hle : v.vmStart.toNat ≤ start.toNat) (hlt : start.toNat < v.vmEnd.toNat)
    (hpage : start.toNat % 4096 = 0) {result : Option Errno × AddressSpace}
    (hresult : result =
      if (as.heap p).vmStart < start then splitVma env ans as p start true else (none, as)) :
    (∃ e, result = (some e, as)) ∨
      ∃ as' A' v', result = (none, as') ∧
        SameMeaning as as' (A ++ [(p, v)] ++ B) (A' ++ [(p, v')] ++ B) ∧
        v'.vmStart = start ∧ v'.vmEnd = v.vmEnd ∧ areaAttr v' = areaAttr v := by
  have hread : as.heap p = v := h.read (c := (p, v)) (by simp)
  rw [hread] at hresult
  split_ifs at hresult with hcond
  · have hcut : CutsAt v start := ⟨BitVec.lt_def.mp hcond, hlt, hpage⟩
    rcases splitVma_spec env ans h hcut true with ⟨e, heq⟩ | ⟨as', heq, hsplit⟩
    · exact Or.inl ⟨e, hresult.trans heq⟩
    · refine Or.inr ⟨as', A ++ [(as.fresh, lowerPart v start)], upperPart v start,
        hresult.trans heq, ?_, rfl, rfl, areaAttr_upperPart (h.ok (p, v) (by simp)) hcut⟩
      have hsame := hsplit.sameMeaning h hcut
      simpa [splitCells] using hsame
  · have heq : v.vmStart = start := by
      apply BitVec.eq_of_toNat_eq
      have hnot : ¬ v.vmStart.toNat < start.toNat := fun hlt => hcond (BitVec.lt_def.mpr hlt)
      omega
    exact Or.inr ⟨as, A, v, hresult, SameMeaning.refl h, heq, rfl, rfl⟩

/-- INTERNAL: the second cut of `vma_modify`: the area ends with the range afterwards. -/
theorem cutAbove_spec (env : MmEnv) (ans : SplitAnswers) (h : Holds as (A ++ [(p, v)] ++ B))
    {stop : ULong} (hlt : v.vmStart.toNat < stop.toNat) (hle : stop.toNat ≤ v.vmEnd.toNat)
    (hpage : stop.toNat % 4096 = 0) {result : Option Errno × AddressSpace}
    (hresult : result =
      if (as.heap p).vmEnd > stop then splitVma env ans as p stop false else (none, as)) :
    (∃ e, result = (some e, as)) ∨
      ∃ as' B' v', result = (none, as') ∧
        SameMeaning as as' (A ++ [(p, v)] ++ B) (A ++ [(p, v')] ++ B') ∧
        v'.vmStart = v.vmStart ∧ v'.vmEnd = stop ∧ areaAttr v' = areaAttr v := by
  have hread : as.heap p = v := h.read (c := (p, v)) (by simp)
  rw [hread] at hresult
  split_ifs at hresult with hcond
  · have hcut : CutsAt v stop := ⟨hlt, BitVec.lt_def.mp hcond, hpage⟩
    rcases splitVma_spec env ans h hcut false with ⟨e, heq⟩ | ⟨as', heq, hsplit⟩
    · exact Or.inl ⟨e, hresult.trans heq⟩
    · refine Or.inr ⟨as', [(as.fresh, upperPart v stop)] ++ B, lowerPart v stop,
        hresult.trans heq, ?_, rfl, rfl, areaAttr_lowerPart v stop⟩
      have hsame := hsplit.sameMeaning h hcut
      simpa [splitCells] using hsame
  · have heq : v.vmEnd = stop := by
      apply BitVec.eq_of_toNat_eq
      have hnot : ¬ stop.toNat < v.vmEnd.toNat := fun hlt => hcond (BitVec.lt_def.mpr hlt)
      omega
    exact Or.inr ⟨as, B, v, hresult, SameMeaning.refl h, rfl, heq, rfl⟩

/-- INTERNAL: the new values over the old pages and file. -/
theorem areaAttr_modified {w : VmAreaStruct} (hok : AreaOk v) (hattr : areaAttr w = areaAttr v)
    (hle : v.vmStart.toNat ≤ req.start.toNat) :
    areaAttr (modified req w) = requestAttr (req.merge v) := by
  have hbase := congrArg PageAttr.base hattr
  have hfile := congrArg PageAttr.file hattr
  simp only [areaAttr] at hbase hfile
  simp only [areaAttr, requestAttr, modified, ModifyRequest.merge, hbase, hfile,
    bytesToPages_sub hle hok.startPage]
  congr 1
  ring

/-- INTERNAL: `vma_modify` fails without a change of meaning, or has prepared an area for the
new values.
SOURCE: mm/mmap.c:2449-2482 -/
theorem vmaModify_spec (env : MmEnv) (merge : MergeAnswers) (below above : SplitAnswers)
    (h : Holds as (A ++ [(p, v)] ++ B)) (hsite : ModifySite A p v prev req) :
    (∃ e as' cells', vmaModify env merge below above as prev p req = (.error e, as') ∧
        SameMeaning as as' (A ++ [(p, v)] ++ B) cells') ∨
      ∃ q as', vmaModify env merge below above as prev p req = (.ok q, as') ∧
        ReadyToWrite as as' (A ++ [(p, v)] ++ B) req (requestAttr (req.merge v)) q := by
  have hread : as.heap p = v := h.read (c := (p, v)) (by simp)
  have hok : AreaOk v := h.ok (p, v) (by simp)
  have hlt := hsite.range.lt
  have hstart := hsite.start
  have hstop := hsite.stop
  unfold vmaModify
  rw [hread]
  rcases vmaMerge_outcome merge h hsite.range hsite.mergeSite with heq | ⟨q, as', cells', heq, hm⟩
  · rw [heq]
    dsimp only
    rcases cutBelow_spec env below h hstart (by omega) hsite.range.addrPage rfl with
      ⟨e, hfirst⟩ | ⟨as1, A1, v1, hfirst, hsame1, hs1, he1, ha1⟩
    · rw [hfirst]
      exact Or.inl ⟨e, as, _, rfl, SameMeaning.refl h⟩
    · rw [hfirst]
      dsimp only
      have hs1' := congrArg BitVec.toNat hs1
      have he1' := congrArg BitVec.toNat he1
      rcases cutAbove_spec env above hsame1.holds (by omega) (by omega)
        hsite.range.stopPage rfl with ⟨e, hsecond⟩ | ⟨as2, B2, v2, hsecond, hsame2, hs2, he2, ha2⟩
      · rw [hsecond]
        exact Or.inl ⟨e, as1, _, rfl, hsame1⟩
      · rw [hsecond]
        have hsame := hsame1.trans hsame2
        refine Or.inr ⟨p, as2, rfl, ?_⟩
        rw [← areaAttr_modified (w := v2) hok (ha2.trans ha1) hstart]
        exact readyToWrite_exact hsame (by simp) (hs2.trans hs1) he2
  · rw [heq]
    exact Or.inr ⟨q, as', rfl, readyToWrite_merged hm hlt⟩

end Modify

end UsacKernel.Analysis
