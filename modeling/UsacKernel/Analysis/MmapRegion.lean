import UsacKernel.Analysis.AreaContracts
import UsacKernel.Analysis.RegionMap

/-!
# `mmap_region`

`mmap_region` unmaps the range, charges its pages, and maps it: by expanding a neighbour, by
merging the new area once the file has changed its flags, or as a new area. Whatever fails on the
way, the charge is given back and the areas are those that were left after the unmapping
(`mapRegion_outcome`). So the counters stay exact and the charge stays that of the areas
(`mmapRegion_contract`).

The file's own `mmap` may write to the area. `DriverOk` is what it must leave alone.
-/

set_option autoImplicit false

namespace UsacKernel.Analysis

open UsacKernel.Computation UsacKernel.Model UsacKernel.Interface IndexedHeap

/-- A file's `mmap` leaves the area in its place and does not decide about the charge. -/
structure DriverOk (ans : RegionAnswers) : Prop where
  place : ∀ v w, ans.callMmap v = .ok w → SamePlace v w
  account : ∀ v w, ans.callMmap v = .ok w → isAccounted w.vmFlags = isAccounted v.vmFlags

/-- The area that is built when no neighbour can be expanded. -/
def builtArea (ans : RegionAnswers) (req : RegionRequest) : Except Errno VmAreaStruct :=
  let v := newArea req.addr req.stop req.vmFlags req.pgoff
  match req.file with
  | some file => ans.callMmap (v.setFile file)
  | none =>
    if hasFlag req.vmFlags VM_SHARED then
      match ans.shmemZeroSetup with
      | .error e => .error e
      | .ok (file, ops) => .ok { v.setFile file with vmOps := some ops }
    else .ok v.setAnonymous

/-- What `mmap_region` maps: what it was asked for, or the area that the file's `mmap` left. -/
def RegionAttr (ans : RegionAnswers) (req : RegionRequest) (attr : PageAttr) : Prop :=
  attr = (requestAttr (regionMerge req)).settled ∨
    ∃ v, builtArea ans req = .ok v ∧ attr = (areaAttr v).settled

section Built

variable {ans : RegionAnswers} {req : RegionRequest} {v : VmAreaStruct}

/-- INTERNAL: the area lies in the range, and is charged for if the range is. -/
theorem builtArea_place (hdriver : DriverOk ans) (h : builtArea ans req = .ok v) :
    SamePlace (newArea req.addr req.stop req.vmFlags req.pgoff) v ∧
      isAccounted v.vmFlags = isAccounted req.vmFlags := by
  unfold builtArea at h
  dsimp only at h
  cases hfile : req.file with
  | some file =>
    rw [hfile] at h
    have hplace := hdriver.place _ _ h
    exact ⟨⟨hplace.vmStart, hplace.vmEnd, hplace.anonVma, hplace.anonVmaChain, hplace.detached⟩,
      hdriver.account _ _ h⟩
  | none =>
    rw [hfile] at h
    dsimp only at h
    split_ifs at h
    · cases hshmem : ans.shmemZeroSetup with
      | error e =>
        rw [hshmem] at h
        cases h
      | ok result =>
        rw [hshmem] at h
        obtain rfl := Except.ok.inj h
        exact ⟨⟨rfl, rfl, rfl, rfl, rfl⟩, rfl⟩
    · obtain rfl := Except.ok.inj h
      exact ⟨⟨rfl, rfl, rfl, rfl, rfl⟩, rfl⟩

/-- INTERNAL: the area that `mmap_region` allocates is well formed. -/
theorem newArea_ok (hr : PageRange req.addr req.stop) (vmFlags pgoff : ULong) :
    AreaOk (newArea req.addr req.stop vmFlags pgoff) :=
  ⟨hr.addrPage, hr.stopPage, hr.user, fun _ => rfl, rfl⟩

/-- INTERNAL: settling the flags of a mapping does not touch `VM_ACCOUNT`. -/
theorem isAccounted_settled (attr : PageAttr) :
    isAccounted attr.settled.flags = isAccounted attr.flags := by
  unfold PageAttr.settled
  split_ifs
  · exact hasFlag_clear attr.flags VM_LOCKED_MASK VM_ACCOUNT (by decide)
  · rfl

/-- INTERNAL: what is mapped is charged for if the range is. -/
theorem RegionAttr.isAccounted_eq {attr : PageAttr} (hdriver : DriverOk ans)
    (h : RegionAttr ans req attr) : isAccounted attr.flags = isAccounted req.vmFlags := by
  rcases h with rfl | ⟨v, hv, rfl⟩
  · rw [isAccounted_settled]
    exact isAccounted_ignoresSoftDirty req.vmFlags
  · rw [isAccounted_settled, ← (builtArea_place hdriver hv).2]
    exact isAccounted_ignoresSoftDirty v.vmFlags

end Built

/-! ## A new area -/

section Region

variable {as : AddressSpace} {A B : List Cell} {req : RegionRequest} {v : VmAreaStruct}
  {prev : Option Ptr}

/-- A mapping has failed without a change, or the range is placed. -/
def PlaceOutcome (as : AddressSpace) (cells : List Cell) (req : RegionRequest) (attr : PageAttr)
    (result : Except Errno (Ptr × ULong) × AddressSpace) : Prop :=
  (∃ e, result = (.error e, as)) ∨
    ∃ q vmFlags as' cells', result = (.ok (q, vmFlags), as') ∧
      Placed as as' cells cells' req.addr req.stop attr q ∧
      vmFlags &&& ~~~ VM_SOFTDIRTY = attr.flags

/-- INTERNAL: the end of `mmap_region`: the new area is linked into the tree and merged with the
one behind it when that is possible. -/
theorem linkRegion_outcome (ans : RegionAnswers) (h : Holds as (A ++ B))
    (hr : PageRange req.addr req.stop) (hA : ∀ c ∈ A, c.2.vmEnd.toNat ≤ req.addr.toNat)
    (hB : ∀ c ∈ B, req.stop.toNat ≤ c.2.vmStart.toNat)
    (hplace : SamePlace (newArea req.addr req.stop req.vmFlags req.pgoff) v) :
    PlaceOutcome as (A ++ B) req (areaAttr v) (as.linkRegion ans v) := by
  have hstart : v.vmStart = req.addr := hplace.vmStart
  have hend : v.vmEnd = req.stop := hplace.vmEnd
  have hok : AreaOk v := (newArea_ok hr req.vmFlags req.pgoff).samePlace hplace
  unfold AddressSpace.linkRegion
  split_ifs
  · exact Or.inl ⟨EACCES, rfl⟩
  · exact Or.inl ⟨ENOMEM, rfl⟩
  · have hplaced := placed_link h hok (by rw [hstart, hend]; exact hr.lt)
      (by rw [hstart]; exact hA) (by rw [hend]; exact hB)
    rw [hstart, hend] at hplaced
    exact Or.inr ⟨as.fresh, v.vmFlags, _, _, rfl, hplaced, rfl⟩
  · exact Or.inl ⟨EINVAL, rfl⟩

/-- The merge that `vma_merge_new_vma` asks for. -/
def newVmaMerge (v : VmAreaStruct) : MergeRequest where
  addr := v.vmStart
  stop := v.vmEnd
  vmFlags := v.vmFlags
  anonVma := v.anonVma
  file := v.vmFile
  pgoff := v.vmPgoff
  policy := v.vmPolicy
  uffdCtx := v.vmUserfaultfdCtx
  anonName := v.anonName

/-- INTERNAL: the merge after the file has changed the flags.
SOURCE: mm/mmap.c:2868-2890 -/
theorem mergeRegion_outcome (ans : MergeAnswers) (h : Holds as (A ++ B))
    (hr : PageRange req.addr req.stop) (hA : ∀ c ∈ A, c.2.vmEnd.toNat ≤ req.addr.toNat)
    (hB : ∀ c ∈ B, req.stop.toNat ≤ c.2.vmStart.toNat)
    (hprev : prev = A.getLast?.map Prod.fst) (hstart : v.vmStart = req.addr)
    (hend : v.vmEnd = req.stop) :
    vmaMergeNewVma ans as prev v v.vmStart v.vmEnd v.vmPgoff = (none, as) ∨
      ∃ q as' cells', vmaMergeNewVma ans as prev v v.vmStart v.vmEnd v.vmPgoff = (some q, as') ∧
        Placed as as' (A ++ B) cells' req.addr req.stop (areaAttr v) q ∧
        (as'.heap q).vmFlags &&& ~~~ VM_SOFTDIRTY = (areaAttr v).flags := by
  rw [← hstart] at hA
  rw [← hend] at hB
  rw [← hstart, ← hend] at hr ⊢
  have hsite : MergeSite (A ++ B) prev (newVmaMerge v) :=
    MergeSite.unmapped A B rfl hA hB hprev
  rcases vmaMerge_outcome ans h hr hsite with heq | ⟨q, as', cells', heq, hm⟩
  · exact Or.inl heq
  · refine Or.inr ⟨q, as', cells', heq, hm.placed hr.lt, ?_⟩
    obtain ⟨w, hw, hws, hwe⟩ := hm.covers
    have hattr := hm.attr_eq hr.lt hw hws hwe
    rw [hm.holds.read hw]
    exact congrArg PageAttr.flags hattr

/-- INTERNAL: from `cannot_expand:` on, the mapping fails without a change, or the area that was
built for it is in place.
SOURCE: mm/mmap.c:2825-2941 -/
theorem newRegion_outcome (ans : RegionAnswers) (hdriver : DriverOk ans) (h : Holds as (A ++ B))
    (hr : PageRange req.addr req.stop) (hA : ∀ c ∈ A, c.2.vmEnd.toNat ≤ req.addr.toNat)
    (hB : ∀ c ∈ B, req.stop.toNat ≤ c.2.vmStart.toNat)
    (hprev : prev = A.getLast?.map Prod.fst) :
    (∃ e, as.newRegion ans prev req = (.error e, as)) ∨
      ∃ v, builtArea ans req = .ok v ∧
        PlaceOutcome as (A ++ B) req (areaAttr v) (as.newRegion ans prev req) := by
  have hlink : ∀ v, builtArea ans req = .ok v →
      PlaceOutcome as (A ++ B) req (areaAttr v) (as.linkRegion ans v) := fun v hv =>
    linkRegion_outcome ans h hr hA hB (builtArea_place hdriver hv).1
  unfold AddressSpace.newRegion
  dsimp only
  by_cases halloc : ans.allocFails = true
  · rw [if_pos halloc]
    exact Or.inl ⟨ENOMEM, rfl⟩
  · rw [if_neg halloc]
    unfold builtArea at hlink ⊢
    cases hfile : req.file with
    | none =>
      rw [hfile] at hlink
      dsimp only at hlink ⊢
      split_ifs at hlink ⊢
      · cases hshmem : ans.shmemZeroSetup with
        | error e => exact Or.inl ⟨e, rfl⟩
        | ok result =>
          rw [hshmem] at hlink
          exact Or.inr ⟨_, rfl, hlink _ rfl⟩
      · exact Or.inr ⟨_, rfl, hlink _ rfl⟩
    | some file =>
      rw [hfile] at hlink
      dsimp only at hlink ⊢
      cases hcall : ans.callMmap
          ((newArea req.addr req.stop req.vmFlags req.pgoff).setFile file) with
      | error e => exact Or.inl ⟨e, rfl⟩
      | ok v =>
        have hplace := hdriver.place _ _ hcall
        have hstart : v.vmStart = req.addr := hplace.vmStart
        have hend : v.vmEnd = req.stop := hplace.vmEnd
        dsimp only
        cases hwritable : (if v.isSharedMaywrite then ans.mapWritable else none) with
        | some e => exact Or.inl ⟨e, rfl⟩
        | none =>
          dsimp only
          rw [if_neg (not_not_intro hstart)]
          split_ifs with hchanged
          · rcases mergeRegion_outcome ans.merge h hr hA hB hprev hstart hend with
              heq | ⟨q, as', cells', heq, hplaced, hflags⟩
            · rw [heq]
              exact Or.inr ⟨v, rfl, hlink v hcall⟩
            · rw [heq]
              exact Or.inr ⟨v, rfl, Or.inr ⟨q, _, as', cells', rfl, hplaced, hflags⟩⟩
          · exact Or.inr ⟨v, rfl, hlink v hcall⟩

variable (req) in
/-- INTERNAL: mapping a free range fails without a change, or the range is mapped and counted.
SOURCE: mm/mmap.c:2785-2996 -/
theorem mapRegion_outcome (ans : RegionAnswers) (hdriver : DriverOk ans) (h : Holds as (A ++ B))
    (hlock : LockOk (cellsMeaning (A ++ B))) (hr : PageRange req.addr req.stop)
    (hA : ∀ c ∈ A, c.2.vmEnd.toNat ≤ req.addr.toNat)
    (hB : ∀ c ∈ B, req.stop.toNat ≤ c.2.vmStart.toNat) :
    (∃ e, as.mapRegion ans req = (.error e, as)) ∨
      ∃ as' cells' attr, as.mapRegion ans req = (.ok req.addr, as') ∧ RegionAttr ans req attr ∧
        MappedInto as as' (A ++ B) cells' req.addr req.stop attr req.pglen := by
  have hB' : ∀ c ∈ B, req.addr.toNat ≤ c.2.vmStart.toNat := fun c hc => hr.lt.le.trans (hB c hc)
  have hprev := vmaPrev_eq h hA hB'
  have hnext := vmaNext_eq h hA hB'
  -- the first attempt leaves everything as it was, or has placed the range
  have hexpand : MergeOutcome as (A ++ B) (regionMerge req)
      (if hasFlag req.vmFlags VM_SPECIAL then (none, as)
      else as.expandRegion ans.expand (as.vmaPrev req.addr) (as.vmaNext req.addr) req) := by
    split_ifs
    · exact Or.inl rfl
    · exact expandRegion_outcome ans.expand h hr hB hA hprev hnext
  unfold AddressSpace.mapRegion
  dsimp only
  rcases hexpand with heq | ⟨q, as', cells1, heq, hm⟩
  · rw [heq]
    dsimp only
    rcases newRegion_outcome ans hdriver h hr hA hB hprev with
      ⟨e, hnew⟩ | ⟨v, hv, ⟨e, hnew⟩ | ⟨q, vmFlags, as', cells1, hnew, hplaced, hflags⟩⟩
    · rw [hnew]
      exact Or.inl ⟨e, rfl⟩
    · rw [hnew]
      exact Or.inl ⟨e, rfl⟩
    · rw [hnew]
      obtain ⟨cells', hmapped⟩ := finishRegion_spec hplaced h hlock vmFlags req.pglen hflags
      exact Or.inr ⟨_, cells', _, rfl, Or.inr ⟨v, hv, rfl⟩, hmapped⟩
  · rw [heq]
    obtain ⟨cells', hmapped⟩ :=
      finishRegion_spec (hm.placed hr.lt) h hlock req.vmFlags req.pglen rfl
    exact Or.inr ⟨_, cells', _, rfl, Or.inl rfl, hmapped⟩

end Region

/-! ## The charge -/

section Charge

variable {as as' : AddressSpace} {cells cells' A B : List Cell} {leak : ℤ} {lo hi n : ULong}
  {attr : PageAttr}

/-- INTERNAL: a charge that has no area yet counts as leaked. -/
theorem Accounted.addCommitted (h : Accounted as cells leak) (m : ℤ) :
    Accounted (as.modifyCounters (fun c => c.addCommitted m)) cells (leak + m) where
  counters k := (counter_addCommitted as.counters k m).trans (h.counters k)
  committed := by
    show as.counters.committed + m = _
    rw [h.committed, add_assoc]

/-- INTERNAL: a charge that is given back leaves no trace. -/
theorem uncharge (as : AddressSpace) (m : ℤ) :
    (as.modifyCounters (fun c => c.addCommitted m)).modifyCounters (fun c => c.addCommitted (-m)) =
      as := by
  unfold AddressSpace.modifyCounters Counters.addCommitted
  simp only [add_neg_cancel_right]

/-- INTERNAL: mapping a free range, in terms of what is mapped. -/
theorem MappedInto.becomes {leak' : ℤ} (h : MappedInto as as' cells cells' lo hi attr n)
    (hholds : Holds as cells) (hacc : Accounted as cells leak')
    (hlock : LockOk (cellsMeaning cells)) (hr : PageRange lo hi)
    (hfree : ∀ a, lo.toNat ≤ a → a < hi.toNat → cellsMeaning cells a = none)
    (hn : n = bytesToPages (hi - lo))
    (hleak : leak = leak' - if isAccounted attr.flags then n.toNat else 0) :
    Becomes as as' leak ((cellsMeaning cells).assign lo.toNat hi.toNat attr) := by
  have hmeaning : Interface.meaning as' = (cellsMeaning cells).assign lo.toNat hi.toNat attr := by
    rw [h.holds.meaning_eq, h.meaning]
  refine ⟨⟨⟨cells', h.holds, ?_⟩, ?_⟩, hmeaning, h.warned,
    (congrArg layout h.counters).trans (countMapped_layout _ _ _)⟩
  · rw [hleak]
    exact hacc.mapped hholds h.holds h.meaning hr hfree hn h.counters
  · rw [hmeaning]
    exact hlock.assign _ _ h.lockable

end Charge

/-! ## The contract -/

/-- The request with the flag for charged pages. -/
def chargedRequest (req : RegionRequest) : RegionRequest :=
  if isAccountableMapping req.file req.vmFlags then
    { req with vmFlags := req.vmFlags ||| VM_ACCOUNT }
  else req

section Contract

variable {as : AddressSpace} {A B : List Cell} {leak : ℤ} {req : RegionRequest}

/-- INTERNAL: flags with `VM_ACCOUNT` added are accounted. -/
theorem isAccounted_or (flags : ULong) : isAccounted (flags ||| VM_ACCOUNT) = true := by
  unfold isAccounted hasFlag
  refine decide_eq_true fun hzero => ?_
  have hand : (flags ||| VM_ACCOUNT) &&& VM_ACCOUNT = VM_ACCOUNT := by
    apply BitVec.eq_of_getLsbD_eq
    intro i _
    rw [BitVec.getLsbD_and, BitVec.getLsbD_or]
    cases flags.getLsbD i <;> cases VM_ACCOUNT.getLsbD i <;> rfl
  rw [hand] at hzero
  exact absurd hzero (by decide)

/-- INTERNAL: the pages that `mmap_region` counts are those of its range. -/
theorem RegionRequest.pglen_eq (req : RegionRequest) :
    req.pglen = bytesToPages (req.stop - req.addr) := by
  rw [← regionMerge_pglen]
  rfl

/-- The end of `mmap_region`: it has failed and the free range is still free, or the range is
mapped. The charge is that of the areas in both cases. -/
def MapOutcome (ans : RegionAnswers) (as : AddressSpace) (leak : ℤ) (req : RegionRequest)
    (m : AddressMap) (result : Except Errno ULong × AddressSpace) : Prop :=
  (∃ e as', result = (.error e, as') ∧ Becomes as as' leak m) ∨
    ∃ as' attr, result = (.ok req.addr, as') ∧ RegionAttr ans (chargedRequest req) attr ∧
      Becomes as as' leak (m.assign req.addr.toNat req.stop.toNat attr)

/-- INTERNAL: a free range is charged for and mapped. -/
theorem chargeAndMap_outcome (env : MmEnv) (ans : RegionAnswers) (hdriver : DriverOk ans)
    (hflags : isAccounted req.vmFlags = false) (h : Holds as (A ++ B))
    (hacc : Accounted as (A ++ B) leak) (hlock : LockOk (cellsMeaning (A ++ B)))
    (hr : PageRange req.addr req.stop) (hA : ∀ c ∈ A, c.2.vmEnd.toNat ≤ req.addr.toNat)
    (hB : ∀ c ∈ B, req.stop.toNat ≤ c.2.vmStart.toNat) :
    MapOutcome ans as leak req (cellsMeaning (A ++ B)) (as.chargeAndMap env ans req) := by
  have hfree := free_between hA hB
  have hself : Becomes as as leak (cellsMeaning (A ++ B)) := by
    rw [← h.meaning_eq] at hlock ⊢
    exact ⟨⟨⟨A ++ B, h, hacc⟩, hlock⟩, rfl, rfl, rfl⟩
  unfold AddressSpace.chargeAndMap MapOutcome chargedRequest
  by_cases haccountable : isAccountableMapping req.file req.vmFlags = true
  · rw [if_pos haccountable, if_pos haccountable]
    by_cases hdenied : env.securityVmEnoughMemory req.pglen = true
    · rw [if_pos hdenied]
      exact Or.inl ⟨ENOMEM, as, rfl, hself⟩
    · rw [if_neg hdenied]
      dsimp only
      -- the charge is a leak until the range is mapped
      have hcharged := hacc.addCommitted req.pglen.toNat
      have hchargedHolds := h.modifyCounters (fun c => c.addCommitted req.pglen.toNat)
      rcases mapRegion_outcome { req with vmFlags := req.vmFlags ||| VM_ACCOUNT } ans
          hdriver hchargedHolds hlock hr hA hB with ⟨e, heq⟩ | ⟨as', cells', attr, heq, hattr, hm⟩
      · rw [heq]
        dsimp only
        rw [uncharge]
        exact Or.inl ⟨e, as, rfl, hself⟩
      · rw [heq]
        refine Or.inr ⟨as', attr, rfl, hattr, ?_⟩
        have hleak : leak = leak + req.pglen.toNat -
            if isAccounted attr.flags then req.pglen.toNat else 0 := by
          rw [hattr.isAccounted_eq hdriver, isAccounted_or, if_pos rfl]
          exact (add_sub_cancel_right _ _).symm
        have hbecomes := hm.becomes hchargedHolds hcharged hlock hr hfree
          (RegionRequest.pglen_eq _) hleak
        exact ⟨hbecomes.consistent, hbecomes.meaning_eq, hbecomes.warned_eq, hbecomes.layout_eq⟩
  · rw [if_neg haccountable, if_neg haccountable]
    rcases mapRegion_outcome req ans hdriver h hlock hr hA hB with
      ⟨e, heq⟩ | ⟨as', cells', attr, heq, hattr, hm⟩
    · exact Or.inl ⟨e, as, heq, hself⟩
    · refine Or.inr ⟨as', attr, heq, hattr, ?_⟩
      refine hm.becomes h hacc hlock hr hfree (RegionRequest.pglen_eq _) ?_
      rw [hattr.isAccounted_eq hdriver, hflags]
      simp

/-- INTERNAL: `mmap_region` fails with everything still mapped, or it unmaps the range and then
charges for it and maps it.
SOURCE: mm/mmap.c:2740-2996 -/
theorem mmapRegion_becomes (env : MmEnv) (ans : RegionAnswers) (hdriver : DriverOk ans)
    (hlen : req.len.toNat % 4096 = 0) (hflags : isAccounted req.vmFlags = false)
    (h : Consistent as leak) :
    (∃ e as', as.mmapRegion env ans req = (.error e, as') ∧ Becomes as as' leak (meaning as)) ∨
      (PageRange req.addr req.stop ∧
        MapOutcome ans as leak req ((meaning as).remove req.addr.toNat req.stop.toNat)
          (as.mmapRegion env ans req)) := by
  obtain ⟨cells, hholds, hacc⟩ := h.areas
  unfold AddressSpace.mmapRegion
  split_ifs with hlimit
  · exact Or.inl ⟨ENOMEM, as, rfl, h.becomes⟩
  · have hunmap := doVmiMunmap_outcome env ans.munmap hholds req.addr req.len
    rw [pageAlign_of_mod req.len hlen] at hunmap
    rcases hunmap with heq | ⟨hr, -, ⟨e, as1, cells1, heq, hsame⟩ | ⟨as1, A, M, B, heq, hun⟩⟩
    · rw [heq]
      exact Or.inl ⟨ENOMEM, as, rfl, h.becomes⟩
    · rw [heq]
      exact Or.inl ⟨ENOMEM, as1, rfl, hsame.becomes hholds hacc h.lockOk⟩
    · rw [heq]
      have hremoved : cellsMeaning (A ++ B) =
          (meaning as).remove req.addr.toNat req.stop.toNat := by
        rw [hholds.meaning_eq]
        exact hun.meaning_eq
      have hlayout : layout as1.counters = layout as.counters :=
        (congrArg layout hun.counters).trans (removeCells_layout _ _)
      have hlock : LockOk (cellsMeaning (A ++ B)) := by
        rw [hremoved]
        exact h.lockOk.remove _ _
      rw [← hremoved]
      refine Or.inr ⟨hr, ?_⟩
      rcases chargeAndMap_outcome env ans hdriver hflags hun.holds (hacc.unmapped hholds hun) hlock
          hr hun.below hun.above with ⟨e, as', hmap, hb⟩ | ⟨as', attr, hmap, hattr, hb⟩
      · exact Or.inl ⟨e, as', hmap, hb.consistent, hb.meaning_eq, hb.warned_eq.trans hun.warned,
          hb.layout_eq.trans hlayout⟩
      · exact Or.inr ⟨as', attr, hmap, hattr, hb.consistent, hb.meaning_eq,
          hb.warned_eq.trans hun.warned, hb.layout_eq.trans hlayout⟩

/-- MAIN: **`mmap_region`** maps exactly the range it was asked for and replaces what was mapped
there. When it fails, what was mapped is still there or was unmapped, and nothing else has
changed. Whatever fails, tree and areas agree afterwards, the counters are exact, the charge is
that of the areas, and no warning was given.
SOURCE: mm/mmap.c:2740-2996 -/
theorem mmapRegion_contract (env : MmEnv) (ans : RegionAnswers) (hdriver : DriverOk ans)
    (hlen : req.len.toNat % 4096 = 0) (hflags : isAccounted req.vmFlags = false)
    (h : Consistent as leak) :
    (∃ e as', as.mmapRegion env ans req = (.error e, as') ∧
        (Becomes as as' leak (meaning as) ∨
          Becomes as as' leak ((meaning as).remove req.addr.toNat req.stop.toNat))) ∨
      ∃ as' attr, as.mmapRegion env ans req = (.ok req.addr, as') ∧
        RegionAttr ans (chargedRequest req) attr ∧
        Becomes as as' leak ((meaning as).assign req.addr.toNat req.stop.toNat attr) := by
  rcases mmapRegion_becomes env ans hdriver hlen hflags h with
    ⟨e, as', heq, hb⟩ | ⟨-, ⟨e, as', heq, hb⟩ | ⟨as', attr, heq, hattr, hb⟩⟩
  · exact Or.inl ⟨e, as', heq, Or.inl hb⟩
  · exact Or.inl ⟨e, as', heq, Or.inr hb⟩
  · rw [AddressMap.remove_assign] at hb
    exact Or.inr ⟨as', attr, heq, hattr, hb⟩

/-- Nothing fails while a range is mapped, and files leave the area as it is. -/
def quietRegion : RegionAnswers where
  munmap := quietMunmap
  expand := ⟨false, false⟩
  allocFails := false
  callMmap := .ok
  mapWritable := none
  merge := ⟨false, false⟩
  shmemZeroSetup := .error ENOMEM
  denyWriteExec _ := false
  archValidateFlags _ := true
  preallocFails := false

/-- INTERNAL: the driver of the example keeps the area where it is. -/
theorem quietRegion_driverOk : DriverOk quietRegion where
  place v w h := by
    obtain rfl := Except.ok.inj h
    exact ⟨rfl, rfl, rfl, rfl, rfl⟩
  account v w h := by
    obtain rfl := Except.ok.inj h
    rfl

/-- Two pages over the end of the first area and the free page behind it. -/
def overlapRequest : RegionRequest where
  file := none
  addr := 0x2000
  len := 0x2000
  vmFlags := VM_READ ||| VM_WRITE
  pgoff := 2

/-- The page that was mapped is replaced, and both pages join the areas on their sides. -/
theorem mmapRegion_contract_overlap :
    ∃ as' attr, twoAreas.mmapRegion quietEnv quietRegion overlapRequest = (.ok 0x2000, as') ∧
      RegionAttr quietRegion (chargedRequest overlapRequest) attr ∧
      Becomes twoAreas as' 0 ((meaning twoAreas).assign 0x2000 0x4000 attr) := by
  have hresult : (twoAreas.mmapRegion quietEnv quietRegion overlapRequest).1.toOption =
      some 0x2000 := by decide
  rcases mmapRegion_contract quietEnv quietRegion quietRegion_driverOk
      (by decide : overlapRequest.len.toNat % 4096 = 0) (by decide) twoAreas_consistent with
    ⟨e, as', heq, -⟩ | ⟨as', attr, heq, hattr, hbecomes⟩
  · rw [heq] at hresult
    cases hresult
  · exact ⟨as', attr, heq, hattr, hbecomes⟩

end Contract

end UsacKernel.Analysis
