import UsacKernel.Analysis.Accounting
import UsacKernel.Computation.Intervals

/-!
# The layout of an address space

`Layout` is the invariant of an address space as a whole: its areas are page aligned,
lie below `TASK_SIZE` and are apart from each other, and `total_vm` is the number of
their pages. It follows that `total_vm` never counts more than `TASK_SIZE` bytes, which
is what keeps the sums of the request test from wrapping.
-/

set_option autoImplicit false

namespace UsacKernel.Analysis

open UsacKernel.Computation UsacKernel.Model

/-- Areas are page aligned, not empty, below `taskSize` and apart; `total_vm` counts
their pages. -/
structure Layout (taskSize : ULong) (mm : MmStruct) : Prop where
  area : ∀ v ∈ mm.vmas, v.vmStart.toNat < v.vmEnd.toNat ∧ v.vmEnd.toNat ≤ taskSize.toNat
  page : ∀ v ∈ mm.vmas, v.vmStart.toNat % 4096 = 0 ∧ v.vmEnd.toNat % 4096 = 0
  apart : mm.vmas.Pairwise
    (Intervals.Apart (fun v => v.vmStart.toNat) (fun v => v.vmEnd.toNat))
  counted : mm.totalVm.toNat = areaPages mm.vmas

/-- INTERNAL: areas of whole pages have as many bytes as their pages say. -/
theorem areaPages_mul (vmas : List VmArea)
    (harea : ∀ v ∈ vmas, v.vmStart.toNat < v.vmEnd.toNat)
    (hpage : ∀ v ∈ vmas, v.vmStart.toNat % 4096 = 0 ∧ v.vmEnd.toNat % 4096 = 0) :
    areaPages vmas * 4096 = (vmas.map (fun v => v.vmEnd.toNat - v.vmStart.toNat)).sum := by
  induction vmas with
  | nil => rfl
  | cons v vmas ih =>
    have hv := harea v List.mem_cons_self
    have hp := hpage v List.mem_cons_self
    have hdiv : (v.vmEnd.toNat - v.vmStart.toNat) / 4096 * 4096 =
        v.vmEnd.toNat - v.vmStart.toNat := by omega
    rw [areaPages_cons, vmaPages_toNat v hv.le, List.map_cons, List.sum_cons, Nat.add_mul, hdiv,
      ih (fun w hw => harea w (List.mem_cons_of_mem v hw))
        (fun w hw => hpage w (List.mem_cons_of_mem v hw))]

/-- INTERNAL: `total_vm` is at most the pages of the address space, since the areas do not
overlap. -/
theorem Layout.total_le {taskSize : ULong} {mm : MmStruct} (h : Layout taskSize mm) :
    mm.totalVm.toNat * 4096 ≤ taskSize.toNat := by
  rw [h.counted, areaPages_mul mm.vmas (fun v hv => (h.area v hv).1) h.page]
  exact Intervals.sum_length_le _ _ _ mm.vmas (fun v hv => (h.area v hv).2) h.apart

/-- INTERNAL: a new area in a free range, counted in `total_vm`. -/
theorem Layout.insert {taskSize : ULong} {mm mm' : MmStruct} (h : Layout taskSize mm) {v : VmArea}
    (harea : v.vmStart.toNat < v.vmEnd.toNat ∧ v.vmEnd.toNat ≤ taskSize.toNat)
    (hpage : v.vmStart.toNat % 4096 = 0 ∧ v.vmEnd.toNat % 4096 = 0)
    (hapart : ∀ w ∈ mm.vmas, v.vmEnd.toNat ≤ w.vmStart.toNat ∨ w.vmEnd.toNat ≤ v.vmStart.toNat)
    (hvmas : mm'.vmas.Perm (v :: mm.vmas))
    (htotal : mm'.totalVm.toNat = mm.totalVm.toNat + (vmaPages v).toNat) : Layout taskSize mm' := by
  have hmem : ∀ w ∈ mm'.vmas, w = v ∨ w ∈ mm.vmas := fun w hw =>
    List.mem_cons.mp (hvmas.mem_iff.mp hw)
  refine ⟨?_, ?_, ?_, ?_⟩
  · intro w hw
    rcases hmem w hw with rfl | hw
    · exact harea
    · exact h.area w hw
  · intro w hw
    rcases hmem w hw with rfl | hw
    · exact hpage
    · exact h.page w hw
  · refine (hvmas.pairwise_iff (fun {x y} hxy => Intervals.Apart.symm hxy)).mpr ?_
    exact List.pairwise_cons.mpr ⟨hapart, h.apart⟩
  · rw [areaPages_perm hvmas, areaPages_cons, htotal, h.counted]
    omega

/-- INTERNAL: the layout depends on the areas and on `total_vm` only. -/
theorem Layout.congr {taskSize : ULong} {mm mm' : MmStruct} (h : Layout taskSize mm)
    (htotal : mm'.totalVm = mm.totalVm) (hvmas : mm'.vmas = mm.vmas) : Layout taskSize mm' :=
  ⟨hvmas ▸ h.area, hvmas ▸ h.page, hvmas ▸ h.apart, by rw [htotal, hvmas, h.counted]⟩

/-- INTERNAL: a mapping that is not bound to an address keeps the layout, and adds its
pages or nothing.
SOURCE: mm/mmap.c:1226-1403, 2740-2996 -/
theorem Layout.vmMmapPgoff {env : MmEnv} {mm : MmStruct} (h : Layout env.taskSize mm)
    (file : Option File) (addr len prot flags pgoff : ULong) (hfree : FindsFree env mm)
    (hflags : hasFlag (fixedFlags flags) MAP_FIXED = false) :
    Layout env.taskSize (vmMmapPgoff env mm file addr len prot flags pgoff).2 ∧
      ((vmMmapPgoff env mm file addr len prot flags pgoff).2.totalVm = mm.totalVm ∨
        len.toNat ≤ env.taskSize.toNat ∧
          (vmMmapPgoff env mm file addr len prot flags pgoff).2.totalVm.toNat =
            mm.totalVm.toNat + (len.toNat + 4095) / 4096) := by
  have hsize := env.taskSize_le
  have hle := h.total_le
  rcases vmMmapPgoff_free env mm file addr len prot flags pgoff hfree hflags with
    ⟨_, htotal, hvmas⟩ | ⟨_, hmaps⟩
  · exact ⟨h.congr htotal hvmas, Or.inl htotal⟩
  · generalize UsacKernel.Model.vmMmapPgoff env mm file addr len prot flags pgoff = r at hmaps ⊢
    obtain ⟨flags, hperm⟩ := hmaps.vmas
    have haligned := hmaps.aligned
    have hnonempty := hmaps.nonempty
    have hrange := hmaps.range
    have hpage := hmaps.page
    have hstop : (r.1 + pageAlign len).toNat = r.1.toNat + (pageAlign len).toNat := by
      rw [BitVec.toNat_add]
      omega
    have htotal : r.2.totalVm.toNat = mm.totalVm.toNat + (len.toNat + 4095) / 4096 := by
      rw [hmaps.total, BitVec.toNat_add, bytesToPages_toNat]
      omega
    refine ⟨h.insert (v := ⟨r.1, r.1 + pageAlign len, flags⟩) ?_ ?_ ?_ hperm ?_,
      Or.inr ⟨by omega, htotal⟩⟩
    · simp only [hstop]
      omega
    · simp only [hstop]
      omega
    · -- the range was free, so the new area keeps clear of the others
      intro w hw
      have hw' := hmaps.apart w hw
      simp only [hstop]
      exact hw'
    · rw [vmaPages_toNat _ (by simp only [hstop]; omega)]
      simp only [hstop]
      omega

end UsacKernel.Analysis
