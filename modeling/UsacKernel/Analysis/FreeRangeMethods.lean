import UsacKernel.Analysis.FreeRangeSearch

/-!
# The two `get_unmapped_area` methods

`generic_get_unmapped_area` and `generic_get_unmapped_area_topdown` try the requested address
and then search. Without `MAP_FIXED` whatever they give that is not an error is free, so
`FindsFree`, which the accounting of `mmap` takes as given, holds of an address space that they
search. The downward method falls back to an upward search, and fails only where that fails; it
leaves user space only among areas one of which begins within its own guard gap.
-/

set_option autoImplicit false

namespace UsacKernel.Analysis

open UsacKernel.Computation UsacKernel.Model

section Methods

variable {env : MmEnv} {areas : List VmArea}

/-- The marks that the methods search from. -/
structure SearchBases (env : MmEnv) (mmapBase : ULong) : Prop where
  minAddr : env.mmapMinAddr.toNat ≤ env.taskSize.toNat
  base_pos : 0 < mmapBase.toNat
  base_le : mmapBase.toNat ≤ env.taskSize.toNat

/-- The upward search of both methods. -/
def upwardSearch (env : MmEnv) (low len : ULong) : VmUnmappedAreaInfo :=
  { topdown := false, length := len, lowLimit := low, highLimit := env.taskSize,
    alignMask := 0, alignOffset := 0 }

/-- The downward search from `mmap_base`. -/
def downwardSearch (mmapBase len : ULong) : VmUnmappedAreaInfo :=
  { topdown := true, length := len, lowLimit := BitVec.ofNat 64 pageSize, highLimit := mmapBase,
    alignMask := 0, alignOffset := 0 }

/-- INTERNAL: the search upwards has a length, an upper limit in user space and no alignment. -/
theorem upwardSearch_request (low : ULong) {len : ULong} (hsize : 0 < env.taskSize.toNat)
    (hlen : 0 < len.toNat) : SearchRequest (upwardSearch env low len) :=
  ⟨hlen, hsize, env.taskSize_le, 0, by decide, rfl⟩

/-- INTERNAL: the search downwards from `mmap_base` has a length, an upper limit in user space
and no alignment. -/
theorem downwardSearch_request {mmapBase len : ULong} (hbase : SearchBases env mmapBase)
    (hlen : 0 < len.toNat) : SearchRequest (downwardSearch mmapBase len) :=
  ⟨hlen, hbase.base_pos, hbase.base_le.trans env.taskSize_le, 0, by decide, rfl⟩

/-- INTERNAL: a search for nothing fails at once. -/
theorem vmUnmappedArea_zero {info : VmUnmappedAreaInfo} (hlen : info.length = 0)
    (hmask : info.alignMask = 0) : vmUnmappedArea env areas info = some ENOMEM.ptr := by
  unfold vmUnmappedArea unmappedArea unmappedAreaTopdown
  simp [hlen, hmask, retry, unmappedAreaAttempt, unmappedAreaTopdownAttempt, masEmptyArea,
    masEmptyAreaRev]

/-- INTERNAL: the first area that ends above an address is the first to begin there, when it
does not contain it. -/
theorem find_eq_nextOf (h : InOrder areas) {addr : ULong}
    (hclear : ∀ v ∈ areas, addr.toNat < v.vmEnd.toNat → addr.toNat ≤ v.vmStart.toNat) :
    areas.find? (fun v => decide (addr < v.vmEnd)) =
      GapSearch.nextOf (fun v : VmArea => v.vmStart.toNat) areas addr.toNat := by
  refine List.find?_congr fun v hv => ?_
  have hne := h.nonempty v hv
  have hv' := hclear v hv
  refine decide_eq_decide.mpr ⟨fun hlt => hv' (BitVec.lt_def.mp hlt), fun hle => ?_⟩
  exact BitVec.lt_def.mpr (lt_of_le_of_lt hle hne)

/-- INTERNAL: a requested address that passes the tests is free and keeps the guard gap. -/
theorem hintFits_free (h : InOrder areas) {addr len : ULong} (hlen : len.toNat ≤ env.taskSize.toNat)
    (hfits : hintFits env areas addr len = true) :
    env.mmapMinAddr.toNat ≤ addr.toNat ∧ addr.toNat + len.toNat ≤ env.taskSize.toNat ∧
      FreeAt areas len.toNat addr.toNat ∧ KeepsGuard env areas len.toNat addr.toNat := by
  have hsize := env.taskSize_le
  unfold hintFits findVmaPrev at hfits
  simp only [Bool.and_eq_true, decide_eq_true_eq, ge_iff_le, BitVec.le_def] at hfits
  obtain ⟨⟨⟨hend, hmin⟩, hvma⟩, -⟩ := hfits
  have hsub : (env.taskSize - len).toNat = env.taskSize.toNat - len.toNat := by
    rw [BitVec.toNat_sub]
    omega
  have hadd : (addr + len).toNat = addr.toNat + len.toNat := by
    rw [BitVec.toNat_add]
    omega
  rw [hsub] at hend
  -- the first area that ends above the address bounds all the others
  have hbound : ∀ v, areas.find? (fun v => decide (addr < v.vmEnd)) = some v →
      addr.toNat + len.toNat ≤ (vmStartGap env v).toNat := by
    intro v hv
    rw [hv, Option.all_some, decide_eq_true_eq, hadd] at hvma
    exact hvma
  have habove : ∀ v ∈ areas, addr.toNat < v.vmEnd.toNat →
      addr.toNat + len.toNat ≤ v.vmStart.toNat := by
    intro v hv hlt
    cases hfind : areas.find? (fun v => decide (addr < v.vmEnd)) with
    | none =>
      have hnot := List.find?_eq_none.mp hfind v hv
      exact absurd (BitVec.lt_def.mpr hlt) (by simpa using hnot)
    | some w =>
      have hw := hbound w hfind
      have hgap := vmStartGap_le env w
      obtain ⟨-, before, after, rfl, hbefore⟩ := List.find?_eq_some_iff_append.mp hfind
      rcases List.mem_append.mp hv with hv | hv
      · have hnot := hbefore v hv
        simp only [Bool.not_eq_true', decide_eq_false_iff_not] at hnot
        exact absurd (BitVec.lt_def.mpr hlt) hnot
      · rcases List.mem_cons.mp hv with rfl | hv
        · omega
        · have hwv := (List.pairwise_cons.mp (List.pairwise_append.mp h.ordered).2.1).1 v hv
          have hne := h.nonempty w (by simp)
          omega
  refine ⟨hmin, by omega, fun v hv => ?_, ?_⟩
  · by_cases hlt : addr.toNat < v.vmEnd.toNat
    · exact Or.inl (habove v hv hlt)
    · exact Or.inr (Nat.le_of_not_lt hlt)
  · intro v hv
    refine hbound v ?_
    rw [find_eq_nextOf h (fun w hw hlt => by have := habove w hw hlt; omega)]
    exact hv

/-- What the methods give for a request without `MAP_FIXED`: a free range of user space. -/
structure FoundRange (env : MmEnv) (areas : List VmArea) (len r : ULong) : Prop where
  minAddr : env.mmapMinAddr.toNat ≤ r.toNat
  range : r.toNat + len.toNat ≤ env.taskSize.toNat
  free : FreeAt areas len.toNat r.toNat

/-- INTERNAL: no search starts below `mmap_min_addr`. -/
theorem searchLowLimit_minAddr (env : MmEnv) (info : VmUnmappedAreaInfo) :
    env.mmapMinAddr.toNat ≤ (searchLowLimit env info).toNat := by
  unfold searchLowLimit
  split_ifs with hlt
  · exact le_rfl
  · rw [BitVec.lt_def] at hlt
    omega

/-- INTERNAL: a search upwards fails or finds a free range of the length. -/
theorem upwardSearch_found (h : InOrder areas) {mmapBase : ULong}
    (hbase : SearchBases env mmapBase) (low len : ULong) :
    ∃ r, vmUnmappedArea env areas (upwardSearch env low len) = some r ∧
      (r = ENOMEM.ptr ∨ FoundRange env areas len r) := by
  by_cases hlen : len = 0
  · exact ⟨_, vmUnmappedArea_zero hlen rfl, Or.inl rfl⟩
  · have hpos : 0 < len.toNat := Nat.pos_of_ne_zero (fun h0 => hlen (BitVec.eq_of_toNat_eq h0))
    have hsize : 0 < env.taskSize.toNat := lt_of_lt_of_le hbase.base_pos hbase.base_le
    obtain ⟨r, hr, hresult⟩ :=
      unmappedArea_result env h (upwardSearch_request low hsize hpos)
    refine ⟨r, hr, ?_⟩
    rcases hresult with ⟨hfail, _⟩ | ⟨hsuits, _, _⟩
    · exact Or.inl hfail
    · exact Or.inr ⟨(searchLowLimit_minAddr env _).trans hsuits.low, hsuits.high, hsuits.free⟩

/-- INTERNAL: the downward search gives a free range of user space, or the end of the 64-bit
range where an area begins within its own guard gap. -/
theorem downwardSearch_found (h : InOrder areas) (huser : InUserSpace areas)
    {mmapBase : ULong} (hbase : SearchBases env mmapBase) (len : ULong) :
    ∃ r, vmUnmappedArea env areas (downwardSearch mmapBase len) = some r ∧
      (r = ENOMEM.ptr ∨
        (FoundRange env areas len r ∧ KeepsGuard env areas len.toNat r.toNat) ∨
        ¬ GuardRoom env areas ∧ r.toNat + len.toNat = 2 ^ 64) := by
  by_cases hlen : len = 0
  · exact ⟨_, vmUnmappedArea_zero hlen rfl, Or.inl rfl⟩
  · have hpos : 0 < len.toNat := Nat.pos_of_ne_zero (fun h0 => hlen (BitVec.eq_of_toNat_eq h0))
    obtain ⟨r, hr, hresult⟩ :=
      unmappedAreaTopdown_result env h huser (downwardSearch_request hbase hpos)
    refine ⟨r, hr, ?_⟩
    rcases hresult with ⟨hfail, _⟩ | ⟨hsuits, hguard, _⟩ | hend
    · exact Or.inl hfail
    · exact Or.inr (Or.inl ⟨⟨(searchLowLimit_minAddr env _).trans hsuits.low,
        hsuits.high.trans hbase.base_le, hsuits.free⟩, hguard⟩)
    · have hinside : r.toNat + len.toNat ≤ 2 ^ 64 := hend.inside
      have hlast : 2 ^ 64 ≤ r.toNat + (len.toNat + 0) := hend.last
      exact Or.inr (Or.inr ⟨hend.guard, by omega⟩)

/-- INTERNAL: wherever the areas lie, an answer of the downward search is free. -/
theorem downwardSearch_free (h : InOrder areas) {mmapBase : ULong}
    (hbase : SearchBases env mmapBase) {len r : ULong}
    (hr : vmUnmappedArea env areas (downwardSearch mmapBase len) = some r) :
    r = ENOMEM.ptr ∨ FreeAt areas len.toNat r.toNat := by
  by_cases hlen : len = 0
  · have hfail : vmUnmappedArea env areas (downwardSearch mmapBase len) = some ENOMEM.ptr :=
      vmUnmappedArea_zero hlen rfl
    rw [hfail] at hr
    exact Or.inl (Option.some.inj hr).symm
  · have hpos : 0 < len.toNat := Nat.pos_of_ne_zero (fun h0 => hlen (BitVec.eq_of_toNat_eq h0))
    exact unmappedAreaTopdown_free h (downwardSearch_request hbase hpos) hr

/-- INTERNAL: the length test of both methods. -/
theorem length_le {mmapBase len : ULong} (hbase : SearchBases env mmapBase)
    (hlen : ¬ env.taskSize - env.mmapMinAddr < len) :
    env.mmapMinAddr.toNat + len.toNat ≤ env.taskSize.toNat := by
  have hmin := hbase.minAddr
  rw [BitVec.lt_def, BitVec.toNat_sub] at hlen
  omega

/-- INTERNAL: `generic_get_unmapped_area` without `MAP_FIXED` fails or finds a free range, at
the hint or by its search. -/
theorem genericGetUnmappedArea_found (h : InOrder areas) {mmapBase : ULong}
    (hbase : SearchBases env mmapBase) (addr len : ULong) {flags : ULong}
    (hflags : hasFlag flags MAP_FIXED = false) :
    ∃ r, genericGetUnmappedArea env mmapBase areas addr len flags = some r ∧
      (r = ENOMEM.ptr ∨ FoundRange env areas len r) := by
  unfold genericGetUnmappedArea
  rw [hflags, if_neg Bool.false_ne_true]
  split_ifs with hlen hhint
  · exact ⟨_, rfl, Or.inl rfl⟩
  · have hle := length_le hbase hlen
    obtain ⟨hmin, hend, hfree, _⟩ := hintFits_free h (by omega) hhint.2
    exact ⟨_, rfl, Or.inr ⟨hmin, hend, hfree⟩⟩
  · exact upwardSearch_found h hbase mmapBase len

/-- INTERNAL: an answer of the downward method is free, whichever of its searches gave it. -/
theorem genericGetUnmappedAreaTopdown_free (h : InOrder areas) {mmapBase : ULong}
    (hbase : SearchBases env mmapBase) {taskUnmappedBase addr len flags r : ULong}
    (hflags : hasFlag flags MAP_FIXED = false)
    (hr : genericGetUnmappedAreaTopdown env mmapBase taskUnmappedBase areas addr len flags =
      some r) :
    r = ENOMEM.ptr ∨ FreeAt areas len.toNat r.toNat := by
  unfold genericGetUnmappedAreaTopdown at hr
  rw [hflags, if_neg Bool.false_ne_true, ← downwardSearch, ← upwardSearch] at hr
  split_ifs at hr with hlen hhint
  · exact Or.inl (Option.some.inj hr).symm
  · have hle := length_le hbase hlen
    obtain ⟨_, _, hfree, _⟩ := hintFits_free h (by omega) hhint.2
    rw [← Option.some.inj hr]
    exact Or.inr hfree
  · obtain ⟨found, hfound, hnext⟩ := Option.bind_eq_some_iff.mp hr
    split_ifs at hnext with hoffset
    · obtain ⟨up, hup, hresult⟩ := upwardSearch_found h hbase taskUnmappedBase len
      rw [hnext, Option.some.injEq] at hup
      rw [hup]
      exact hresult.imp_right FoundRange.free
    · rw [← Option.some.inj hnext]
      exact downwardSearch_free h hbase hfound

/-- INTERNAL: the downward method ends. -/
theorem genericGetUnmappedAreaTopdown_ends (h : InOrder areas) (huser : InUserSpace areas)
    {mmapBase : ULong} (hbase : SearchBases env mmapBase)
    (taskUnmappedBase addr len flags : ULong) :
    ∃ r, genericGetUnmappedAreaTopdown env mmapBase taskUnmappedBase areas addr len flags =
      some r := by
  unfold genericGetUnmappedAreaTopdown
  split_ifs
  · exact ⟨_, rfl⟩
  · exact ⟨_, rfl⟩
  · exact ⟨_, rfl⟩
  · obtain ⟨found, hfound, -⟩ := downwardSearch_found h huser hbase len
    rw [← downwardSearch, hfound, Option.bind_some]
    split_ifs
    · obtain ⟨r, hr, -⟩ := upwardSearch_found h hbase taskUnmappedBase len
      exact ⟨r, hr⟩
    · exact ⟨found, rfl⟩

/-- MAIN: **both methods find free ranges**. An address space whose `get_unmapped_area` is one
of them is searched as the accounting of `mmap` assumes: without `MAP_FIXED` no address is given
at which an area is already mapped.
SOURCE: mm/mmap.c:1722-1753, 1769-1819 -/
theorem findsFree_of_generic (env : MmEnv) (mm : MmStruct) (mmapBase taskUnmappedBase : ULong)
    (h : InOrder mm.vmas) (hbase : SearchBases env mmapBase)
    (hmethod :
      (∀ file addr len pgoff flags,
        genericGetUnmappedArea env mmapBase mm.vmas addr len flags =
          some (env.getArea file addr len pgoff flags)) ∨
      ∀ file addr len pgoff flags,
        genericGetUnmappedAreaTopdown env mmapBase taskUnmappedBase mm.vmas addr len flags =
          some (env.getArea file addr len pgoff flags)) :
    FindsFree env mm := by
  intro file addr len pgoff flags hflags hok v hv
  have hresult : env.getArea file addr len pgoff flags = ENOMEM.ptr ∨
      FreeAt mm.vmas len.toNat (env.getArea file addr len pgoff flags).toNat := by
    rcases hmethod with hup | hdown
    · obtain ⟨r, hr, hresult⟩ := genericGetUnmappedArea_found h hbase addr len hflags
      rw [hup file addr len pgoff flags, Option.some.injEq] at hr
      rw [hr]
      exact hresult.imp_right FoundRange.free
    · exact genericGetUnmappedAreaTopdown_free h hbase hflags (hdown file addr len pgoff flags)
  rcases hresult with hfail | hfree
  · rw [hfail, isErrValue_ptr] at hok
    cases hok
  · exact hfree v hv

/-- A kernel that searches the address space of `stackAreas` downwards. -/
def searchingEnv : MmEnv :=
  { quietEnv with
    getArea := fun _ addr len _ flags =>
      (genericGetUnmappedAreaTopdown quietEnv 0x7fffffe00000 0x2aaaaaaaa000 stackAreas addr len
        flags).getD ENOMEM.ptr }

/-- INTERNAL: the bases of the environment of the examples lie within the task size. -/
theorem searchingEnv_bases : SearchBases searchingEnv 0x7fffffe00000 :=
  ⟨by decide, by decide, by decide⟩

/-- INTERNAL: the environment that searches as the kernel does finds a free range between heap
and stack. -/
theorem findsFree_of_generic_stack :
    FindsFree searchingEnv { heapMm 16 with vmas := stackAreas } := by
  refine findsFree_of_generic searchingEnv _ 0x7fffffe00000 0x2aaaaaaaa000 stackAreas_inOrder
    searchingEnv_bases (Or.inr ?_)
  intro file addr len pgoff flags
  obtain ⟨r, hr⟩ := genericGetUnmappedAreaTopdown_ends stackAreas_inOrder stackAreas_inUserSpace
    searchingEnv_bases 0x2aaaaaaaa000 addr len flags
  have hget : searchingEnv.getArea file addr len pgoff flags = r :=
    congrArg (fun o => Option.getD o ENOMEM.ptr) hr
  rw [hget]
  exact hr

/-- INTERNAL: both methods leave a fixed address where it is, once its length has passed their
first test. -/
theorem fixedStays_of_generic (env : MmEnv) (mm : MmStruct) (mmapBase taskUnmappedBase : ULong)
    (hmethod :
      (∀ file addr len pgoff flags,
        genericGetUnmappedArea env mmapBase mm.vmas addr len flags =
          some (env.getArea file addr len pgoff flags)) ∨
      ∀ file addr len pgoff flags,
        genericGetUnmappedAreaTopdown env mmapBase taskUnmappedBase mm.vmas addr len flags =
          some (env.getArea file addr len pgoff flags)) :
    FixedStays env := by
  intro addr len hok
  have hfixed : hasFlag MAP_FIXED MAP_FIXED = true := by decide
  have hanswer : (if env.taskSize - env.mmapMinAddr < len then some ENOMEM.ptr else some addr) =
      some (env.getArea none addr len 0 MAP_FIXED) := by
    rcases hmethod with hup | hdown
    · rw [← hup none addr len 0 MAP_FIXED, genericGetUnmappedArea, hfixed, if_pos rfl]
    · rw [← hdown none addr len 0 MAP_FIXED, genericGetUnmappedAreaTopdown, hfixed, if_pos rfl]
  split_ifs at hanswer with hlong
  · rw [← Option.some.inj hanswer, isErrValue_ptr] at hok
    cases hok
  · exact (Option.some.inj hanswer).symm

/-- MAIN: **the downward method fails only when the upward search does**. Without a usable
hint it falls back to searching upwards, so `-ENOMEM` means that no range between
`TASK_UNMAPPED_BASE` and `TASK_SIZE` is free and keeps the guard gap above it; every other
answer is page aligned, free and keeps that guard gap. The exception is an area that begins
within its own guard gap: then the answer can be the end of the 64-bit range, and the fallback,
which tests the alignment of the address only, is not made.
SOURCE: mm/mmap.c:1769-1819 -/
theorem genericGetUnmappedAreaTopdown_contract (env : MmEnv) (areas : List VmArea)
    (mmapBase taskUnmappedBase addr len flags : ULong) (h : InOrder areas)
    (huser : InUserSpace areas) (hbase : SearchBases env mmapBase)
    (hpage : PageSearch env areas (upwardSearch env taskUnmappedBase len)) (hlen : 0 < len.toNat)
    (hflags : hasFlag flags MAP_FIXED = false) :
    ∃ r, genericGetUnmappedAreaTopdown env mmapBase taskUnmappedBase areas addr len flags =
        some r ∧
      ((r = ENOMEM.ptr ∧ ∀ a, ¬ Place env areas (upwardSearch env taskUnmappedBase len) a) ∨
        r.toNat % 4096 = 0 ∧
          (FoundRange env areas len r ∧ KeepsGuard env areas len.toNat r.toNat ∨
            ¬ GuardRoom env areas ∧ r.toNat + len.toNat = 2 ^ 64)) := by
  have hsize : 0 < env.taskSize.toNat := lt_of_lt_of_le hbase.base_pos hbase.base_le
  unfold genericGetUnmappedAreaTopdown
  rw [hflags, if_neg Bool.false_ne_true]
  split_ifs with hlong hhint
  · -- the length does not fit above `mmap_min_addr` at all
    refine ⟨_, rfl, Or.inl ⟨rfl, fun a ha => ?_⟩⟩
    have hlow := (searchLowLimit_minAddr env _).trans ha.low
    have hhigh : a + len.toNat ≤ env.taskSize.toNat := ha.high
    have hmin := hbase.minAddr
    rw [BitVec.lt_def, BitVec.toNat_sub] at hlong
    omega
  · have hle := length_le hbase hlong
    obtain ⟨hmin, hend, hfree, hguard⟩ := hintFits_free h (by omega) hhint.2
    exact ⟨_, rfl, Or.inr ⟨pageAlign_mod addr, Or.inl ⟨⟨hmin, hend, hfree⟩, hguard⟩⟩⟩
  · obtain ⟨found, hfound, hresult⟩ := downwardSearch_found h huser hbase len
    rw [← downwardSearch, hfound, Option.bind_some]
    split_ifs with hoffset
    · obtain ⟨r, hr, hup⟩ :=
        unmappedArea_result env h (upwardSearch_request taskUnmappedBase hsize hlen)
      refine ⟨r, hr, ?_⟩
      rcases hup with ⟨hfail, hnone⟩ | ⟨hsuits, hguard, hmod, _⟩
      · exact Or.inl ⟨hfail, fun a ha => hnone a (ha.roomUp rfl)⟩
      · exact Or.inr ⟨hmod hpage rfl, Or.inl ⟨⟨(searchLowLimit_minAddr env _).trans hsuits.low,
          hsuits.high, hsuits.free⟩, hguard hpage⟩⟩
    · refine ⟨found, rfl, ?_⟩
      have hmod : found.toNat % 4096 = 0 := by
        by_contra hne
        exact hoffset (decide_eq_true hne)
      rcases hresult with rfl | hresult
      · exact absurd hmod (by decide)
      · exact Or.inr ⟨hmod, hresult⟩

/-- INTERNAL: a request of 2 MiB between heap and stack meets the assumptions of the contract.
-/
theorem genericGetUnmappedAreaTopdown_contract_stack :
    ∃ r, genericGetUnmappedAreaTopdown searchingEnv 0x7fffffe00000 0x2aaaaaaaa000 stackAreas 0
        0x200000 0x22 = some r ∧
      ((r = ENOMEM.ptr ∧
          ∀ a, ¬ Place searchingEnv stackAreas
            (upwardSearch searchingEnv 0x2aaaaaaaa000 0x200000) a) ∨
        r.toNat % 4096 = 0 ∧
          (FoundRange searchingEnv stackAreas 0x200000 r ∧
              KeepsGuard searchingEnv stackAreas (0x200000 : ULong).toNat r.toNat ∨
            ¬ GuardRoom searchingEnv stackAreas ∧ r.toNat + (0x200000 : ULong).toNat = 2 ^ 64)) :=
  genericGetUnmappedAreaTopdown_contract searchingEnv stackAreas 0x7fffffe00000 0x2aaaaaaaa000 0
    0x200000 0x22 stackAreas_inOrder stackAreas_inUserSpace searchingEnv_bases
    ⟨by decide, by decide, by decide, by decide, by decide⟩ (by decide) (by decide)

/-- INTERNAL: the exception does occur, at the stack of `vmUnmappedArea_lowStack`. -/
theorem genericGetUnmappedAreaTopdown_lowStack :
    genericGetUnmappedAreaTopdown quietEnv 0x7fffffe00000 0x2aaaaaaaa000 lowStack 0 0x1000 0x22 =
      some 0xfffffffffffff000 := by
  decide

end Methods

end UsacKernel.Analysis
