import UsacKernel.Analysis.ListMeaning

/-!
# A list of areas that shows a tree

`Shows as mm` relates the two models of an address space: `AddressSpace`, the maple tree with its
areas, and `MmStruct`, a list of ranges whose neighbours are never joined. The list has the flags
that are mapped in the tree, page by page, the marks of the tree, and exact counters. `toMm` gives
such a list. What the tree decides by itself, such as whether an area is merged or an allocation
fails in the middle, the list model is told (`CoarseAnswers`); then `do_vmi_munmap` does the same
in both (`doVmiMunmap_shows`).

`map_count` is not compared: it counts areas, and the list has pieces.
-/

set_option autoImplicit false

namespace UsacKernel.Analysis

open UsacKernel.Computation UsacKernel.Model UsacKernel.Interface IndexedHeap

/-! ## The relation -/

/-- What the list model is told, because only the tree can decide it. -/
structure CoarseAnswers where
  maxMapCount : ℤ
  munmapError : Option Errno
  merges : Bool
  joinsBoth : Bool
  regionError : Option Errno
  regionFlags : ULong → ULong
  mergesLate : Bool
  countsLocked : Bool

/-- The answers of the rest of the kernel, with those of the tree in their place. -/
def answering (env : MmEnv) (c : CoarseAnswers) : MmEnv :=
  { env with
    sysctlMaxMapCount := c.maxMapCount
    munmapError := c.munmapError
    merges := c.merges
    joinsBoth := c.joinsBoth
    regionError := c.regionError
    regionFlags := c.regionFlags
    mergesLate := c.mergesLate
    countsLocked := c.countsLocked }

/-- The answers that an outcome of the tree calls for. How many areas a merge joins only changes
`map_count`. -/
def coarse (maxMapCount : ℤ) (munmapError : Option Errno) (merges : Bool)
    (regionError : Option Errno) (flags : ULong) (countsLocked : Bool) : CoarseAnswers where
  maxMapCount := maxMapCount
  munmapError := munmapError
  merges := merges
  joinsBoth := false
  regionError := regionError
  regionFlags _ := flags
  mergesLate := false
  countsLocked := countsLocked

/-- What is mapped, without all that a list does not keep. -/
def flagsOnly (m : AddressMap) : AddressMap := fun a => (m a).map (fun attr => plainAttr attr.flags)

/-- The list shows what the tree maps, and has its marks; its counters are exact. -/
structure Shows (as : AddressSpace) (mm : MmStruct) : Prop where
  space : ListSpace mm
  meaning_eq : listMeaning mm.vmas = flagsOnly (meaning as)
  layout_eq : layout (mmCounters mm) = layout as.counters

/-- A call has the same result in both models, and the list shows the tree afterwards. -/
def SameOutcome {α : Type} (r : α × AddressSpace) (r' : α × MmStruct) : Prop :=
  r'.1 = r.1 ∧ Shows r.2 r'.2

/-- INTERNAL: the result on the list, from the one on the tree. -/
theorem SameOutcome.eq_pair {α : Type} {x : α} {as : AddressSpace} {r : α × MmStruct}
    (h : SameOutcome (x, as) r) : ∃ mm, r = (x, mm) ∧ Shows as mm :=
  ⟨r.2, Prod.ext h.1 rfl, h.2⟩

section Relation

variable {as as' : AddressSpace} {mm : MmStruct} {cells : List Cell} {leak : ℤ} {m : AddressMap}

/-- INTERNAL: the meaning of flags does not have `VM_SOFTDIRTY`. -/
theorem plainAttr_clear (flags : ULong) :
    plainAttr (flags &&& ~~~ VM_SOFTDIRTY) = plainAttr flags := by
  unfold plainAttr
  rw [BitVec.and_assoc, BitVec.and_self]

/-- INTERNAL: unmapping is seen through `flagsOnly`. -/
theorem flagsOnly_remove (m : AddressMap) (lo hi : ℕ) :
    flagsOnly (m.remove lo hi) = (flagsOnly m).remove lo hi := by
  funext a
  unfold flagsOnly AddressMap.remove
  split_ifs <;> rfl

/-- INTERNAL: mapping is seen through `flagsOnly`. -/
theorem flagsOnly_assign (m : AddressMap) (lo hi : ℕ) (attr : PageAttr) :
    flagsOnly (m.assign lo hi attr) = (flagsOnly m).assign lo hi (plainAttr attr.flags) := by
  funext a
  unfold flagsOnly AddressMap.assign
  split_ifs <;> rfl

/-- INTERNAL: what is not mapped is not shown. -/
theorem flagsOnly_eq_none_iff {a : ℕ} : flagsOnly m a = none ↔ m a = none := Option.map_eq_none_iff

/-- INTERNAL: the pages of a class can be counted through `flagsOnly`. -/
theorem pagesWhere_flagsOnly {f : ULong → Bool} (hf : IgnoresSoftDirty f) (m : AddressMap) :
    pagesWhere (flagsOnly m) f = pagesWhere m f := by
  unfold pagesWhere
  refine congrArg Finset.card (Finset.filter_congr fun k _ => ?_)
  unfold flagsOnly
  cases m (4096 * k) with
  | none => rfl
  | some attr =>
    simp only [Option.map_some, Option.any_some, plainAttr]
    rw [hf]

/-- INTERNAL: the list that `toMm` makes of the areas. -/
theorem Holds.toMm_vmas (h : Holds as cells) : as.toMm.vmas = cells.map (fun c => c.2.area) := by
  show as.mt.spans.map (fun s => (as.heap s.val).area) = _
  rw [h.rep.spans, List.map_map]
  refine List.map_congr_left fun c hc => ?_
  show (as.heap c.1).area = c.2.area
  rw [h.rep.read c hc]

/-- INTERNAL: the meaning of the areas, without their objects. -/
theorem listMeaning_areas (cells : List Cell) :
    listMeaning (cells.map (fun c => c.2.area)) = flagsOnly (cellsMeaning cells) := by
  funext a
  induction cells with
  | nil => rfl
  | cons c cells ih =>
    have hrange : (c.2.area.vmStart.toNat ≤ a ∧ a < c.2.area.vmEnd.toNat) =
        (c.2.vmStart.toNat ≤ a ∧ a < c.2.vmEnd.toNat) := rfl
    rw [List.map_cons, listMeaning_cons, ih]
    unfold flagsOnly
    rw [cellsMeaning_cons]
    simp only [hrange]
    split_ifs with hin
    · exact congrArg some (plainAttr_clear c.2.vmFlags).symm
    · rfl

/-- INTERNAL: the pages of the areas, without their objects. -/
theorem listPages_areas (f : ULong → Bool) (cells : List Cell) :
    listPages f (cells.map (fun c => c.2.area)) = sumPages f cells := by
  unfold listPages sumPages plainCells
  rw [List.map_map, List.map_map]
  rfl

/-- MAIN: **`toMm` shows the tree**: the list of its areas, with its counters and marks. -/
theorem Consistent.shows_toMm (h : Consistent as leak) : Shows as as.toMm := by
  obtain ⟨cells, hholds, hacc⟩ := h.areas
  have hvmas := hholds.toMm_vmas
  refine ⟨⟨⟨?_, ?_⟩, fun k => ?_⟩, ?_, rfl⟩
  · intro v hv
    rw [hvmas] at hv
    obtain ⟨c, hc, rfl⟩ := List.mem_map.mp hv
    have hok := hholds.ok c hc
    exact ⟨hholds.lt hc, hok.startPage, hok.endPage, hok.user⟩
  · have hapart := hholds.rep.ordered.apart
    rw [List.pairwise_map] at hapart
    rw [hvmas, List.pairwise_map]
    exact hapart
  · rw [hvmas, listPages_areas, ← hacc.counters k]
    cases k <;> rfl
  · rw [hvmas, listMeaning_areas, hholds.meaning_eq]

/-- INTERNAL: the counters of the list are those of the tree. -/
theorem Shows.counter_eq (h : Shows as mm) (hc : Consistent as leak) (k : PageClass) :
    k.counter (mmCounters mm) = k.counter as.counters := by
  obtain ⟨cells, hholds, hacc⟩ := hc.areas
  rw [h.space.counters k, hacc.counters k, ← h.space.ok.pagesWhere_eq k.ignoresSoftDirty,
    h.meaning_eq, pagesWhere_flagsOnly k.ignoresSoftDirty, hholds.meaning_eq,
    hholds.pagesWhere_eq k.ignoresSoftDirty]

/-- INTERNAL: a call that has changed nothing that is mapped does not show. -/
theorem Shows.unchanged (h : Shows as mm) (hb : Becomes as as' leak (meaning as)) : Shows as' mm :=
  ⟨h.space, h.meaning_eq.trans (congrArg flagsOnly hb.meaning_eq.symm),
    h.layout_eq.trans hb.layout_eq.symm⟩

/-- INTERNAL: a mapped range shows. -/
theorem Shows.mapped {mm' : MmStruct} {v : VmArea} {attr : PageAttr} (h : Shows as mm)
    (hb : Becomes as as' leak ((meaning as).assign v.vmStart.toNat v.vmEnd.toNat attr))
    (hr : PageRange v.vmStart v.vmEnd)
    (hfree : ∀ a, v.vmStart.toNat ≤ a → a < v.vmEnd.toNat → meaning as a = none)
    (hflags : plainAttr v.vmFlags = plainAttr attr.flags) (hvmas : mm'.vmas = insertVma mm v)
    (hcounters : ∀ k : PageClass, k.counter (mmCounters mm') =
      k.counter (countMapped (mmCounters mm) v.vmFlags (vmaPages v)))
    (hlayout : layout (mmCounters mm') = layout (mmCounters mm)) : Shows as' mm' := by
  have hfree' : ∀ a, v.vmStart.toNat ≤ a → a < v.vmEnd.toNat → listMeaning mm.vmas a = none := by
    intro a hlo hhi
    rw [h.meaning_eq, flagsOnly_eq_none_iff]
    exact hfree a hlo hhi
  obtain ⟨hspace, hmeaning⟩ := h.space.mapped hr hfree' hvmas hcounters
  refine ⟨hspace, ?_, hlayout.trans (h.layout_eq.trans hb.layout_eq.symm)⟩
  rw [hmeaning, hb.meaning_eq, flagsOnly_assign, h.meaning_eq, hflags]

end Relation

/-! ## Unmapping -/

section Unmap

variable {as : AddressSpace} {mm : MmStruct} {leak : ℤ} {start stop : ULong}

/-- INTERNAL: `vma_find` finds the same area in the tree and in its list. -/
theorem vmaFind_toMm (h : Consistent as leak) (hlt : start.toNat < stop.toNat) :
    vmaFind as.toMm start stop =
      (as.findVmaIntersection start stop).map (fun p => (as.heap p).area) := by
  obtain ⟨cells, hholds, -⟩ := h.areas
  have hfind : as.findVmaIntersection start stop =
      (cells.find? (fun c => (span c).meets start.toNat stop.toNat)).map Prod.fst := by
    unfold AddressSpace.findVmaIntersection RangeMap.find
    rw [hholds.rep.spans, List.find?_map, Option.map_map]
    rfl
  have hmeets : ∀ c : Cell, c.2.area.meets start stop = (span c).meets start.toNat stop.toNat := by
    intro c
    unfold VmArea.meets Span.meets
    rw [decide_eq_decide, BitVec.lt_def, BitVec.lt_def]
    constructor
    · rintro ⟨hlo, hhi⟩
      exact ⟨hlt, hhi, hlo⟩
    · rintro ⟨-, hhi, hlo⟩
      exact ⟨hlo, hhi⟩
  unfold vmaFind
  rw [hholds.toMm_vmas, hfind, List.find?_map, Option.map_map]
  have hpred : (fun v : VmArea => v.meets start stop) ∘ (fun c : Cell => c.2.area) =
      fun c => (span c).meets start.toNat stop.toNat := funext hmeets
  rw [hpred]
  cases hcell : cells.find? (fun c => (span c).meets start.toNat stop.toNat) with
  | none => rfl
  | some c =>
    show some c.2.area = some (as.heap c.1).area
    rw [hholds.rep.read c (List.mem_of_find?_eq_some hcell)]

/-- INTERNAL: nothing is found in the list where the tree has nothing. -/
theorem Shows.vmaFind_eq_none (hs : Shows as mm) (h : Consistent as leak)
    (hlt : start.toNat < stop.toNat) :
    vmaFind mm start stop = none ↔ as.findVmaIntersection start stop = none := by
  have htree := vmaFind_toMm h hlt
  rw [vmaFind_eq_none_iff hs.space.ok hlt, hs.meaning_eq, ← h.shows_toMm.meaning_eq,
    ← vmaFind_eq_none_iff h.shows_toMm.space.ok hlt, htree, Option.map_eq_none_iff]

/-- INTERNAL: once the number of areas does not matter, `do_vmi_align_munmap` fails or cuts the
range out of the list.
SOURCE: mm/mmap.c:2529-2678 -/
theorem doVmiAlignMunmap_answering (env : MmEnv) {c : CoarseAnswers}
    (hmax : mm.mapCount < c.maxMapCount) (vma : VmArea) (start stop : ULong) :
    (∀ e, c.munmapError = some e →
        doVmiAlignMunmap (answering env c) mm vma start stop = (some e, mm)) ∧
      (c.munmapError = none → ∃ mapCount,
        doVmiAlignMunmap (answering env c) mm vma start stop =
          (none, { removeMt mm (detached mm start stop) with
            vmas := mm.vmas.flatMap (fun v => v.cut start stop), mapCount := mapCount })) := by
  have hcount : ¬ (vma.vmStart < start ∧ stop < vma.vmEnd ∧
      (answering env c).sysctlMaxMapCount ≤ mm.mapCount) := fun hcon =>
    absurd hcon.2.2 (not_le.mpr hmax)
  unfold doVmiAlignMunmap
  rw [if_neg hcount]
  constructor
  · intro e he
    rw [show (answering env c).munmapError = some e from he]
  · intro he
    rw [show (answering env c).munmapError = none from he]
    exact ⟨_, rfl⟩

/-- INTERNAL: the list after the range was cut out shows the tree after it was unmapped. -/
theorem Shows.unmapped {as' : AddressSpace} (hs : Shows as mm)
    (hb : Becomes as as' leak ((meaning as).remove start.toNat stop.toNat))
    (hr : PageRange start stop) (mapCount : ℤ) :
    Shows as' { removeMt mm (detached mm start stop) with
      vmas := mm.vmas.flatMap (fun v => v.cut start stop), mapCount := mapCount } := by
  refine ⟨hs.space.unmapped hr mapCount, ?_, ?_⟩
  · rw [hb.meaning_eq, flagsOnly_remove, ← hs.meaning_eq]
    exact listMeaning_flatMap_cut mm.vmas hr.lt
  · have hlayout := (counter_removeMt .total mm (detached mm start stop)).2
    exact hlayout.trans (hs.layout_eq.trans hb.layout_eq.symm)

/-- INTERNAL: `do_vmi_align_munmap` in both models, on what `vma_find` has found.
SOURCE: mm/mmap.c:2529-2678 -/
theorem doVmiAlignMunmap_shows (env : MmEnv) (ans : MunmapAnswers) (h : Consistent as leak)
    (hs : Shows as mm) (hr : PageRange start stop) {p : Ptr} (vma : VmArea)
    (hfind : as.findVmaIntersection start stop = some p) :
    ∃ error, ∀ c : CoarseAnswers, c.munmapError = error → mm.mapCount < c.maxMapCount →
      SameOutcome (as.doVmiAlignMunmap env ans p start stop)
        (doVmiAlignMunmap (answering env c) mm vma start stop) := by
  obtain ⟨cells, hholds, hacc⟩ := h.areas
  rcases doVmiAlignMunmap_found env ans hholds hr hfind with
    ⟨e, as', cells', heq, hsame⟩ | ⟨as', A, M, B, heq, hun⟩
  · refine ⟨some e, fun c hc hmax => ?_⟩
    rw [heq, (doVmiAlignMunmap_answering env hmax vma start stop).1 e hc]
    exact ⟨rfl, hs.unchanged (hsame.becomes hholds hacc h.lockOk)⟩
  · refine ⟨none, fun c hc hmax => ?_⟩
    obtain ⟨mapCount, hlist⟩ := (doVmiAlignMunmap_answering env hmax vma start stop).2 hc
    rw [heq, hlist]
    exact ⟨rfl, hs.unmapped (hun.becomes hholds hacc h.lockOk) hr mapCount⟩

section Tests

variable (env : MmEnv) (mm : MmStruct) {start len : ULong}

/-- INTERNAL: `do_vmi_munmap` refuses a range that is not one of user pages. -/
theorem doVmiMunmap_invalid
    (h : (offsetInPage start = true ∨ env.taskSize < start ∨ env.taskSize - start < len) ∨
      start + pageAlign len = start) : doVmiMunmap env mm start len = (some EINVAL, mm) := by
  unfold doVmiMunmap
  by_cases hbad : offsetInPage start = true ∨ env.taskSize < start ∨ env.taskSize - start < len
  · exact if_pos hbad
  · rw [if_neg hbad]
    exact if_pos (h.resolve_left hbad)

/-- INTERNAL: `do_vmi_munmap` of a free range does nothing. -/
theorem doVmiMunmap_free
    (hbad : ¬ (offsetInPage start = true ∨ env.taskSize < start ∨ env.taskSize - start < len))
    (hempty : ¬ start + pageAlign len = start)
    (hfind : vmaFind mm start (start + pageAlign len) = none) :
    doVmiMunmap env mm start len = (none, mm) := by
  unfold doVmiMunmap
  rw [if_neg hbad]
  dsimp only
  rw [if_neg hempty, hfind]

/-- INTERNAL: `do_vmi_munmap` goes on with the first area of the range. -/
theorem doVmiMunmap_found {vma : VmArea}
    (hbad : ¬ (offsetInPage start = true ∨ env.taskSize < start ∨ env.taskSize - start < len))
    (hempty : ¬ start + pageAlign len = start)
    (hfind : vmaFind mm start (start + pageAlign len) = some vma) :
    doVmiMunmap env mm start len =
      doVmiAlignMunmap env mm vma start (start + pageAlign len) := by
  unfold doVmiMunmap
  rw [if_neg hbad]
  dsimp only
  rw [if_neg hempty, hfind]

end Tests

/-- INTERNAL: `do_vmi_munmap` in both models.
SOURCE: mm/mmap.c:2696-2722 -/
theorem doVmiMunmap_shows (env : MmEnv) (ans : MunmapAnswers) (h : Consistent as leak)
    (hs : Shows as mm) (start len : ULong) :
    ∃ error, ∀ c : CoarseAnswers, c.munmapError = error → mm.mapCount < c.maxMapCount →
      SameOutcome (as.doVmiMunmap env ans start len)
        (doVmiMunmap (answering env c) mm start len) := by
  -- both models make the same tests on the same arguments
  unfold AddressSpace.doVmiMunmap
  by_cases hbad : offsetInPage start = true ∨ env.taskSize < start ∨ env.taskSize - start < len
  · refine ⟨none, fun c _ _ => ?_⟩
    rw [if_pos hbad, doVmiMunmap_invalid (answering env c) mm (Or.inl hbad)]
    exact ⟨rfl, hs⟩
  rw [if_neg hbad]
  dsimp only
  by_cases hempty : start + pageAlign len = start
  · refine ⟨none, fun c _ _ => ?_⟩
    rw [if_pos hempty, doVmiMunmap_invalid (answering env c) mm (Or.inr hempty)]
    exact ⟨rfl, hs⟩
  rw [if_neg hempty]
  obtain ⟨hr, -⟩ := munmap_range env hbad hempty
  cases hfind : as.findVmaIntersection start (start + pageAlign len) with
  | none =>
    refine ⟨none, fun c _ _ => ?_⟩
    rw [doVmiMunmap_free (answering env c) mm hbad hempty
      ((hs.vmaFind_eq_none h hr.lt).mpr hfind)]
    exact ⟨rfl, hs⟩
  | some p =>
    cases hfound : vmaFind mm start (start + pageAlign len) with
    | none =>
      rw [(hs.vmaFind_eq_none h hr.lt).mp hfound] at hfind
      cases hfind
    | some vma =>
      obtain ⟨error, hsame⟩ := doVmiAlignMunmap_shows env ans h hs hr vma hfind
      refine ⟨error, fun c hc hmax => ?_⟩
      rw [doVmiMunmap_found (answering env c) mm hbad hempty hfound]
      exact hsame c hc hmax

end Unmap

end UsacKernel.Analysis
