import UsacKernel.Analysis.LimitEnforcement

/-!
# The contract of `tamalloc`

`julioz_tamalloc` either maps at least the bytes it was asked for or changes nothing, and
its return value says which. Three things are followed through `tamalloc`, `do_mmap` and
`mmap_region`:

* the size: it is rounded up to pages, which wraps for the last 4095 sizes of the range and
  for no others, and `do_mmap` rounds the rounded length again;
* the address: `get_unmapped_area` lets no range pass that does not end below `TASK_SIZE`,
  so an address is never taken for an error code;
* the errors: when none of the functions outside the repository answers `-EINVAL`, only the
  size 0 is answered so.
-/

set_option autoImplicit false

namespace UsacKernel.Analysis

open UsacKernel.Computation UsacKernel.Model

/-! ## The size -/

/-- INTERNAL: `PAGE_ALIGN` gives zero for zero and for the sizes that overflow. -/
theorem pageAlign_eq_zero_iff (size : ULong) :
    pageAlign size = 0 ↔ size = 0 ∨ 2 ^ 64 - 4096 < size.toNat := by
  have hlt := size.isLt
  have hzero (x : ULong) : x = 0 ↔ x.toNat = 0 := (BitVec.toNat_eq (x := x) (y := 0))
  rw [hzero, hzero size, pageAlign_toNat]
  omega

/-- INTERNAL: the sizes that are refused before `vm_mmap`.
SOURCE: Proyecto2/p2-kernel-linux/kernel/usac/tamalloc.c:12-20 -/
theorem tamallocRequest_error_iff (size : ULong) :
    (tamallocRequest size = .error EINVAL ↔ size = 0) ∧
      (tamallocRequest size = .error ENOMEM ↔ 2 ^ 64 - 4096 < size.toNat) := by
  have hcodes : ENOMEM ≠ EINVAL := by decide
  have hiff := pageAlign_eq_zero_iff size
  unfold tamallocRequest
  split_ifs with hzero halign
  · simp [hzero, hcodes.symm]
  · have hlarge := (hiff.mp halign).resolve_left hzero
    exact ⟨iff_of_false (by simp [hcodes]) hzero, iff_of_true rfl hlarge⟩
  · have hsmall : ¬ 2 ^ 64 - 4096 < size.toNat := fun h => halign (hiff.mpr (Or.inr h))
    exact ⟨iff_of_false (by simp) hzero, iff_of_false (by simp) hsmall⟩

/-- INTERNAL: the length that is asked for.
SOURCE: Proyecto2/p2-kernel-linux/kernel/usac/tamalloc.c:17-27 -/
theorem tamallocRequest_isLeast (size len : ULong) (h : tamallocRequest size = .ok len) :
    IsLeast {n | 4096 ∣ n ∧ size.toNat ≤ n} len.toNat := by
  unfold tamallocRequest at h
  split_ifs at h with hzero halign
  cases h
  have haligned := pageAlign_toNat_of_ne_zero size halign
  refine ⟨⟨?_, by omega⟩, ?_⟩
  · rw [haligned]
    exact Dvd.intro_left _ rfl
  · rintro n ⟨⟨q, rfl⟩, hle⟩
    omega

/-! ## The errors -/

/-- No hook of the security module, no step of `mmap_region` after its own tests (an allocation,
`arch_validate_flags`) and no range search answers `-EINVAL`, and a range search that is not
bound to an address answers with whole pages. -/
structure NeverEinval (env : MmEnv) : Prop where
  mmapFile : env.securityMmapFile ≠ some EINVAL
  mmapAddr : ∀ addr, env.securityMmapAddr addr ≠ some EINVAL
  region : env.regionError ≠ some EINVAL
  area : ∀ file hint len pgoff flags, hasFlag flags MAP_FIXED = false →
    env.getArea file hint len pgoff flags ≠ EINVAL.ptr ∧
      offsetInPage (env.getArea file hint len pgoff flags) = false

/-- INTERNAL: the encoded errors are different for different errors. -/
theorem ptr_ne_einval {e : Errno} (h : e ≠ EINVAL) : e.ptr ≠ EINVAL.ptr :=
  fun hptr => h (Errno.ptr_injective hptr)

section Errors

variable {env : MmEnv} (hquiet : NeverEinval env)

include hquiet

/-- INTERNAL: `get_unmapped_area`, not bound to an address.
SOURCE: mm/mmap.c:1831-1876 -/
theorem getUnmappedArea_ne_einval (file : Option File) (addr len pgoff flags : ULong)
    (hflags : hasFlag flags MAP_FIXED = false) :
    getUnmappedArea env file addr len pgoff flags ≠ EINVAL.ptr := by
  obtain ⟨harea, hpage⟩ := hquiet.area file addr len (if file.isNone then 0 else pgoff) flags hflags
  unfold getUnmappedArea
  simp only
  generalize env.getArea file addr len (if file.isNone then 0 else pgoff) flags = area at *
  split
  · exact ptr_ne_einval (by decide)
  split
  · exact harea
  split
  · exact ptr_ne_einval (by decide)
  rw [if_neg (by simp [hpage])]
  cases haddr : env.securityMmapAddr area with
  | some e =>
    apply ptr_ne_einval
    rintro rfl
    exact hquiet.mmapAddr _ haddr
  | none => exact harea

/-- INTERNAL: `mmap_region` answers with the address, with `-ENOMEM`, or with the error of an
allocation.
SOURCE: mm/mmap.c:2740-2996 -/
theorem mmapRegion_ne_einval (mm : MmStruct) (file : Option File) (addr len vmFlags : ULong)
    (haddr : addr ≠ EINVAL.ptr) : (mmapRegion env mm file addr len vmFlags).1 ≠ EINVAL.ptr := by
  have hnomem : ENOMEM.ptr ≠ EINVAL.ptr := ptr_ne_einval (by decide)
  unfold mmapRegion
  simp only
  split
  · exact hnomem
  split
  · exact hnomem
  split
  · exact hnomem
  split
  · exact haddr
  cases hregion : env.regionError with
  | some e =>
    apply ptr_ne_einval
    rintro rfl
    exact hquiet.region hregion
  | none => exact haddr

/-- INTERNAL: `vm_mmap_pgoff` for an anonymous private mapping.
SOURCE: mm/mmap.c:1226-1403 -/
theorem vmMmapPgoff_ne_einval (mm : MmStruct) (len prot flags : ULong) (hlen : len ≠ 0)
    (hflags : hasFlag (fixedFlags flags) MAP_FIXED = false)
    (htype : fixedFlags flags &&& MAP_TYPE = MAP_PRIVATE) :
    (vmMmapPgoff env mm none 0 len prot flags 0).1 ≠ EINVAL.ptr := by
  unfold vmMmapPgoff
  cases hfile : env.securityMmapFile with
  | some e =>
    apply ptr_ne_einval
    rintro rfl
    exact hquiet.mmapFile hfile
  | none =>
    simp only
    split
    · exact ptr_ne_einval (by decide)
    unfold doMmap
    rw [if_neg hlen]
    unfold doMmapAligned
    have harea := getUnmappedArea_ne_einval hquiet none (hintAddr env (fixedFlags flags) 0)
      (pageAlign len) 0 (fixedFlags flags) hflags
    split
    · exact ptr_ne_einval (by decide)
    split
    · exact ptr_ne_einval (by decide)
    split
    · exact ptr_ne_einval (by decide)
    simp only
    split
    · exact harea
    unfold doMmapAt
    split
    · exact ptr_ne_einval (by decide)
    split
    · exact ptr_ne_einval (by decide)
    split
    · exact ptr_ne_einval (by decide)
    -- the type of the mapping is one that the switch knows
    have hshared : MAP_PRIVATE ≠ MAP_SHARED := by decide
    simp only [mapTypeChecks, htype, hshared, if_false, if_true]
    exact mmapRegion_ne_einval hquiet mm none _ _ _ harea

/-- INTERNAL: the sizes that are answered with `-EINVAL`. -/
theorem juliozTamalloc_einval_iff (mm : MmStruct) (size : ULong) :
    (juliozTamalloc env mm size).1 = EINVAL.ptr ↔ size = 0 := by
  rw [juliozTamalloc_eq]
  unfold tamallocRequest
  split_ifs with hzero halign
  · exact iff_of_true rfl hzero
  · exact iff_of_false (ptr_ne_einval (by decide)) hzero
  · exact iff_of_false
      (vmMmapPgoff_ne_einval hquiet mm (pageAlign size) _ _ halign (by decide) (by decide)) hzero

end Errors

/-! ## The mapping -/

/-- A successful call: the bytes from the returned address on lie in an area of their own
below `TASK_SIZE`, and `total_vm` has grown by the pages that hold them. -/
structure MapsAtLeast (env : MmEnv) (mm : MmStruct) (size : ULong) (r : ULong × MmStruct) :
    Prop where
  address : isErrValue r.1 = false
  area : ∃ stop flags, r.2.vmas.Perm (⟨r.1, stop, flags⟩ :: mm.vmas) ∧
    r.1.toNat + size.toNat ≤ stop.toNat ∧ stop.toNat ≤ env.taskSize.toNat
  apart : ∀ v ∈ mm.vmas, r.1.toNat + size.toNat ≤ v.vmStart.toNat ∨ v.vmEnd.toNat ≤ r.1.toNat
  grown : (r.2.totalVm - mm.totalVm).toNat = (size.toNat + 4095) / 4096
  total : mm.totalVm.toNat * 4096 ≤ env.taskSize.toNat →
    r.2.totalVm.toNat = mm.totalVm.toNat + (size.toNat + 4095) / 4096

/-- INTERNAL: a mapping of the rounded size, in numbers. -/
theorem MapsFree.mapsAtLeast {env : MmEnv} {mm : MmStruct} {size : ULong} {r : ULong × MmStruct}
    (h : MapsFree env mm size r) (hok : isErrValue r.1 = false) : MapsAtLeast env mm size r := by
  have hsize := env.taskSize_le
  have haligned := h.aligned
  have hrange := h.range
  have hpages : (bytesToPages (pageAlign size)).toNat = (size.toNat + 4095) / 4096 := by
    rw [bytesToPages_toNat, haligned, Nat.mul_div_cancel _ (by decide)]
  have hstop : (r.1 + pageAlign size).toNat = r.1.toNat + (pageAlign size).toNat := by
    rw [BitVec.toNat_add]
    omega
  obtain ⟨flags, hvmas⟩ := h.vmas
  refine ⟨hok, ⟨_, flags, hvmas, by omega, by omega⟩, ?_, ?_, ?_⟩
  · intro v hv
    have hapart := h.apart v hv
    omega
  · rw [h.total, add_sub_cancel_left, hpages]
  · intro htotal
    rw [h.total, BitVec.toNat_add, hpages]
    omega

/-- MAIN: **`tamalloc` maps at least what was asked or changes nothing.** For every size and
every address space, when ranges that are not bound to an address are searched in free
space. Size 0 is refused with `-EINVAL` and sizes above 2^64 - 4096 with `-ENOMEM`, both
before any mapping is attempted; for every other size the length asked for is the least
multiple of 4096 that is at least the size. A return value outside the error range is the
address of a new mapping of at least the size; with one in the error range `total_vm` and the
areas are what they were.
SOURCE: Proyecto2/p2-kernel-linux/kernel/usac/tamalloc.c:7-36; mm/mmap.c:1226-1275, 1831-1876 -/
theorem juliozTamalloc_maps_or_fails (env : MmEnv) (mm : MmStruct) (size : ULong)
    (hfree : FindsFree env mm) :
    let r := juliozTamalloc env mm size
    (tamallocRequest size = .error EINVAL ↔ size = 0) ∧
      (tamallocRequest size = .error ENOMEM ↔ 2 ^ 64 - 4096 < size.toNat) ∧
      (∀ e, tamallocRequest size = .error e → (e = EINVAL ∨ e = ENOMEM) ∧ r = (e.ptr, mm)) ∧
      (∀ len, tamallocRequest size = .ok len →
        IsLeast {n | 4096 ∣ n ∧ size.toNat ≤ n} len.toNat ∧
          r = vmMmapPgoff env mm none 0 len (PROT_READ ||| PROT_WRITE)
            (MAP_PRIVATE ||| MAP_ANONYMOUS ||| MAP_NORESERVE) 0) ∧
      (NeverEinval env → (r.1 = EINVAL.ptr ↔ size = 0)) ∧
      (isErrValue r.1 = true ∧ r.2.totalVm = mm.totalVm ∧ r.2.vmas = mm.vmas ∨
        MapsAtLeast env mm size r) := by
  intro r
  obtain ⟨heinval, henomem⟩ := tamallocRequest_error_iff size
  have hr := juliozTamalloc_eq env mm size
  refine ⟨heinval, henomem, ?_, ?_, fun hquiet => juliozTamalloc_einval_iff hquiet mm size, ?_⟩
  · intro e he
    rw [he] at hr
    refine ⟨?_, hr⟩
    unfold tamallocRequest at he
    split_ifs at he <;> cases he
    · exact Or.inl rfl
    · exact Or.inr rfl
  · intro len hlen
    rw [hlen] at hr
    exact ⟨tamallocRequest_isLeast size len hlen, hr⟩
  · refine (juliozTamalloc_free env mm size hfree).imp id ?_
    rintro ⟨hok, hmaps⟩
    exact hmaps.mapsAtLeast hok

/-- INTERNAL: no part of the quiet environment answers `EINVAL`. -/
theorem quietEnv_neverEinval : NeverEinval quietEnv := by
  refine ⟨by simp [quietEnv], fun addr => by simp [quietEnv], by simp [quietEnv], ?_⟩
  intro file hint len pgoff flags hflags
  simp only [quietEnv, hflags, Bool.false_eq_true, if_false]
  exact ⟨by decide, by decide⟩

/-- INTERNAL: a process of 1000 pages asks for one byte more than a page. -/
theorem juliozTamalloc_maps_two_pages :
    (juliozTamalloc quietEnv (heapMm 1000) 4097).1 ≠ EINVAL.ptr ∧
      (juliozTamalloc quietEnv (heapMm 1000) 4097).2.totalVm.toNat = 1002 := by
  obtain ⟨-, -, -, -, heinval, hcase⟩ := juliozTamalloc_maps_or_fails quietEnv (heapMm 1000) 4097
    (quietEnv_findsFree 1000 (by decide))
  refine ⟨fun h => absurd ((heinval quietEnv_neverEinval).mp h) (by decide), ?_⟩
  rcases hcase with ⟨herr, -⟩ | hmaps
  · exact absurd herr (by decide)
  · exact hmaps.total (by decide)

/-- INTERNAL: the test of the user program, which takes the returned word for a signed number.
SOURCE: Proyecto2/p2-kernel-linux/Project2/tamalloc_prueba.c:19-23 -/
theorem juliozTamalloc_negative_iff (env : MmEnv) (mm : MmStruct) (size : ULong)
    (hfree : FindsFree env mm) :
    (juliozTamalloc env mm size).1.toInt < 0 ↔
      isErrValue (juliozTamalloc env mm size).1 = true := by
  have hsize := env.taskSize_le
  rw [BitVec.toInt_eq_toNat_cond]
  rcases juliozTamalloc_free env mm size hfree with ⟨herr, -⟩ | ⟨hok, hmaps⟩
  · refine iff_of_true ?_ herr
    have hlt := (juliozTamalloc env mm size).1.isLt
    have htop := of_decide_eq_true herr
    rw [if_neg (by omega)]
    omega
  · refine iff_of_false ?_ (by simp [hok])
    have hrange := hmaps.range
    rw [if_pos (by omega)]
    omega

end UsacKernel.Analysis
