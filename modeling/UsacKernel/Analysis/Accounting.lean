import UsacKernel.Model.SystemCalls

/-!
# What the address-space functions do to `total_vm`

One lemma for each function says what it does to `total_vm`, in machine arithmetic, and
for the functions that choose an address, which address they can return. `WellFormed`
is the invariant that makes these statements exact: areas are not empty and `total_vm`
counts at least their pages, so unmapping never takes the counter below zero.
-/

set_option autoImplicit false

namespace UsacKernel.Analysis

open UsacKernel.Computation UsacKernel.Model

/-! ## Counters -/

/-- INTERNAL: `vm_stat_account` adds the pages to `total_vm`, whatever the flags. -/
@[simp] theorem vmStatAccount_totalVm (mm : MmStruct) (flags npages : ULong) :
    (vmStatAccount mm flags npages).totalVm = mm.totalVm + npages := by
  unfold vmStatAccount
  split_ifs <;> rfl

/-- INTERNAL: `vm_stat_account` does not touch the areas. -/
@[simp] theorem vmStatAccount_vmas (mm : MmStruct) (flags npages : ULong) :
    (vmStatAccount mm flags npages).vmas = mm.vmas := by
  unfold vmStatAccount
  split_ifs <;> rfl

/-- INTERNAL: a mapped region adds its pages to `total_vm` once. -/
@[simp] theorem accountRegion_totalVm (env : MmEnv) (mm : MmStruct) (vmFlags pages : ULong) :
    (accountRegion env mm vmFlags pages).totalVm = mm.totalVm + pages := by
  unfold accountRegion
  split_ifs <;> simp

/-- INTERNAL: the accounting of a mapped region does not touch the areas. -/
@[simp] theorem accountRegion_vmas (env : MmEnv) (mm : MmStruct) (vmFlags pages : ULong) :
    (accountRegion env mm vmFlags pages).vmas = mm.vmas := by
  unfold accountRegion
  split_ifs <;> simp

/-- INTERNAL: taking detached pieces off the counters takes their pages off `total_vm`.
SOURCE: mm/mmap.c:2298-2314 -/
theorem removeMt_totalVm (mm : MmStruct) (pieces : List VmArea) :
    (removeMt mm pieces).totalVm = mm.totalVm - (pieces.map vmaPages).sum := by
  induction pieces generalizing mm with
  | nil => simp [removeMt]
  | cons v pieces ih =>
    have hstep : removeMt mm (v :: pieces) = removeMt (removeMt mm [v]) pieces := rfl
    have hone : (removeMt mm [v]).totalVm = mm.totalVm - vmaPages v := by
      simp only [removeMt, List.foldl_cons, List.foldl_nil]
      split_ifs <;> simp [sub_eq_add_neg]
    rw [hstep, ih, hone, List.map_cons, List.sum_cons]
    ring

/-! ## Unmapping -/

/-- INTERNAL: either nothing was unmapped and the address space is the old one, or every
page in the range has left `total_vm`.
SOURCE: mm/mmap.c:2529-2678 -/
theorem doVmiAlignMunmap_cases (env : MmEnv) (mm : MmStruct) (vma : VmArea)
    (start stop : ULong) :
    (∃ e, doVmiAlignMunmap env mm vma start stop = (some e, mm)) ∨
      ((doVmiAlignMunmap env mm vma start stop).1 = none ∧
        (doVmiAlignMunmap env mm vma start stop).2.totalVm =
          mm.totalVm - countVmaPagesRange mm start stop ∧
        (doVmiAlignMunmap env mm vma start stop).2.vmas =
          mm.vmas.flatMap (fun v => v.cut start stop)) := by
  unfold doVmiAlignMunmap
  split
  · exact Or.inl ⟨_, rfl⟩
  · cases env.munmapError with
    | some e => exact Or.inl ⟨_, rfl⟩
    | none => exact Or.inr ⟨rfl, removeMt_totalVm _ _, rfl⟩

/-- INTERNAL: a range that no area meets has no mapped pages. -/
theorem countVmaPagesRange_eq_zero (mm : MmStruct) (start stop : ULong)
    (h : ∀ v ∈ mm.vmas, v.meets start stop = false) : countVmaPagesRange mm start stop = 0 := by
  have hfilter : mm.vmas.filter (fun v => v.meets start stop) = [] := by
    rw [List.filter_eq_nil_iff]
    intro v hv
    simp [h v hv]
  simp [countVmaPagesRange, detached, hfilter]

/-- INTERNAL: unmapping a range that no area meets changes no area. -/
theorem flatMap_cut_eq_self (mm : MmStruct) (start stop : ULong)
    (h : ∀ v ∈ mm.vmas, v.meets start stop = false) :
    mm.vmas.flatMap (fun v => v.cut start stop) = mm.vmas := by
  have hcut : ∀ v ∈ mm.vmas, v.cut start stop = [v] := by
    intro v hv
    simp [VmArea.cut, h v hv]
  rw [List.flatMap_congr hcut]
  simp

/-- INTERNAL: the same for `do_vmi_munmap`.
SOURCE: mm/mmap.c:2696-2722 -/
theorem doVmiMunmap_cases (env : MmEnv) (mm : MmStruct) (start len : ULong) :
    (∃ e, doVmiMunmap env mm start len = (some e, mm)) ∨
      ((doVmiMunmap env mm start len).1 = none ∧
        (doVmiMunmap env mm start len).2.totalVm =
          mm.totalVm - countVmaPagesRange mm start (start + pageAlign len) ∧
        (doVmiMunmap env mm start len).2.vmas =
          mm.vmas.flatMap (fun v => v.cut start (start + pageAlign len))) := by
  unfold doVmiMunmap
  split
  · exact Or.inl ⟨_, rfl⟩
  · simp only
    split
    · exact Or.inl ⟨_, rfl⟩
    · cases hfind : vmaFind mm start (start + pageAlign len) with
      | some vma => exact doVmiAlignMunmap_cases env mm vma start (start + pageAlign len)
      | none =>
        have hnone : ∀ v ∈ mm.vmas, v.meets start (start + pageAlign len) = false := by
          intro v hv
          have hv' := List.find?_eq_none.mp hfind v hv
          simpa using hv'
        refine Or.inr ⟨rfl, ?_, ?_⟩
        · simp [countVmaPagesRange_eq_zero mm _ _ hnone]
        · exact (flatMap_cut_eq_self mm _ _ hnone).symm

/-! ## Mapping -/

/-- INTERNAL: a multiple of the page size is its own page alignment. -/
theorem pageAlign_of_mod (x : ULong) (h : x.toNat % 4096 = 0) : pageAlign x = x := by
  apply BitVec.eq_of_toNat_eq
  rw [pageAlign_toNat]
  have hlt := x.isLt
  omega

/-- INTERNAL: inserting an area adds it and keeps the others. -/
theorem insertVma_perm (mm : MmStruct) (v : VmArea) : (insertVma mm v).Perm (v :: mm.vmas) :=
  List.perm_orderedInsert _ v mm.vmas

/-- What `mmap_region` can do with `[addr, addr + len)`: fail before anything is
unmapped, fail after the range was unmapped, or map it. -/
inductive RegionOutcome (mm : MmStruct) (addr len : ULong) : ULong × MmStruct → Prop where
  | refused (e : Errno) : RegionOutcome mm addr len (e.ptr, mm)
  | unmapped (e : Errno) (mm' : MmStruct)
      (total : mm'.totalVm = mm.totalVm - countVmaPagesRange mm addr (addr + pageAlign len))
      (vmas : mm'.vmas = mm.vmas.flatMap (fun v => v.cut addr (addr + pageAlign len))) :
      RegionOutcome mm addr len (e.ptr, mm')
  | mapped (mm' : MmStruct) (flags : ULong)
      (total : mm'.totalVm =
        mm.totalVm - countVmaPagesRange mm addr (addr + pageAlign len) + bytesToPages len)
      (vmas : mm'.vmas.Perm (⟨addr, addr + len, flags⟩ ::
        mm.vmas.flatMap (fun v => v.cut addr (addr + pageAlign len)))) :
      RegionOutcome mm addr len (addr, mm')

/-- INTERNAL: `mmap_region`.
SOURCE: mm/mmap.c:2740-2996 -/
theorem mmapRegion_outcome (env : MmEnv) (mm : MmStruct) (file : Option File)
    (addr len vmFlags : ULong) :
    RegionOutcome mm addr len (mmapRegion env mm file addr len vmFlags) := by
  unfold mmapRegion
  simp only
  split
  · exact .refused ENOMEM
  · rcases doVmiMunmap_cases env mm addr len with ⟨e, he⟩ | ⟨hok, htotal, hvmas⟩
    · rw [he]
      exact .refused ENOMEM
    · rw [show doVmiMunmap env mm addr len = (none, (doVmiMunmap env mm addr len).2) from
        Prod.ext hok rfl]
      -- the range is empty from here on, also when the rest fails
      set mm' := (doVmiMunmap env mm addr len).2
      set flags := if accountableMapping file vmFlags then vmFlags ||| VM_ACCOUNT else vmFlags
      simp only
      split
      · exact .unmapped ENOMEM mm' htotal hvmas
      · split
        · refine .mapped _ (settledFlags env flags) ?_ ?_
          · rw [accountRegion_totalVm, ← htotal]
          · rw [accountRegion_vmas, ← hvmas]
            exact insertVma_perm mm' _
        · cases env.regionError with
          | some e => exact .unmapped e mm' htotal hvmas
          | none =>
            refine .mapped _
              (settledFlags env (if file.isSome then env.regionFlags flags else flags)) ?_ ?_
            · rw [accountRegion_totalVm, ← htotal]
            · rw [accountRegion_vmas, ← hvmas]
              exact insertVma_perm mm' _

/-- INTERNAL: an address that `get_unmapped_area` returns is one the search found, it is
page aligned, and the range lies below `TASK_SIZE`.
SOURCE: mm/mmap.c:1831-1876 -/
theorem getUnmappedArea_ok (env : MmEnv) (file : Option File) (addr len pgoff flags : ULong)
    (h : isErrValue (getUnmappedArea env file addr len pgoff flags) = false) :
    getUnmappedArea env file addr len pgoff flags =
        env.getArea file addr len (if file.isNone then 0 else pgoff) flags ∧
      len.toNat ≤ env.taskSize.toNat ∧
      (getUnmappedArea env file addr len pgoff flags).toNat + len.toNat ≤ env.taskSize.toNat ∧
      (getUnmappedArea env file addr len pgoff flags).toNat % 4096 = 0 := by
  unfold getUnmappedArea at h ⊢
  simp only at h ⊢
  generalize env.getArea file addr len (if file.isNone then 0 else pgoff) flags = area at h ⊢
  by_cases hlen : env.taskSize < len
  · simp [hlen] at h
  · simp only [hlen, if_false] at h ⊢
    by_cases herr : isErrValue area = true
    · simp [herr] at h
    · simp only [herr, Bool.false_eq_true, if_false] at h ⊢
      by_cases htop : env.taskSize - len < area
      · simp [htop] at h
      · simp only [htop, if_false] at h ⊢
        by_cases hoff : offsetInPage area = true
        · simp [hoff] at h
        · simp only [hoff, Bool.false_eq_true, if_false] at h ⊢
          cases hsec : env.securityMmapAddr area with
          | some e => simp [hsec] at h
          | none =>
            have hle : len.toNat ≤ env.taskSize.toNat := by
              rw [BitVec.not_lt] at hlen
              exact BitVec.le_def.mp hlen
            have htop' : area.toNat ≤ (env.taskSize - len).toNat := by
              rw [BitVec.not_lt] at htop
              exact BitVec.le_def.mp htop
            rw [BitVec.toNat_sub_of_le (BitVec.le_def.mpr hle)] at htop'
            have hmod : area.toNat % 4096 = 0 := by
              by_contra hne
              exact hoff (decide_eq_true hne)
            change area = area ∧ _ ∧ area.toNat + len.toNat ≤ _ ∧ area.toNat % 4096 = 0
            exact ⟨rfl, hle, by omega, hmod⟩

/-- Where `do_mmap` puts a mapping: the range that `get_unmapped_area` answers with for
its rounded arguments.
SOURCE: mm/mmap.c:1251-1275 -/
def mappingAddr (env : MmEnv) (file : Option File) (addr len flags pgoff : ULong) : ULong :=
  getUnmappedArea env file (hintAddr env (fixedFlags flags) addr) (pageAlign len) pgoff
    (fixedFlags flags)

/-- INTERNAL: an address that passes the checks of `get_unmapped_area` is the one the search
gave, ends within the task size and lies on a page. -/
theorem mappingAddr_ok {env : MmEnv} {file : Option File} {addr len flags pgoff : ULong}
    (h : isErrValue (mappingAddr env file addr len flags pgoff) = false) :
    mappingAddr env file addr len flags pgoff =
        env.getArea file (hintAddr env (fixedFlags flags) addr) (pageAlign len)
          (if file.isNone then 0 else pgoff) (fixedFlags flags) ∧
      (mappingAddr env file addr len flags pgoff).toNat + (pageAlign len).toNat ≤
        env.taskSize.toNat ∧
      (mappingAddr env file addr len flags pgoff).toNat % 4096 = 0 := by
  obtain ⟨hfound, _, hrange, hpage⟩ := getUnmappedArea_ok _ _ _ _ _ _ h
  exact ⟨hfound, hrange, hpage⟩

/-- What `vm_mmap_pgoff` and `do_mmap` can do: fail and change nothing, or hand their range
to `mmap_region`. -/
inductive MmapOutcome (env : MmEnv) (mm : MmStruct) (file : Option File)
    (addr len flags pgoff : ULong) : ULong × MmStruct → Prop where
  | failed (r : ULong) (h : isErrValue r = true) :
      MmapOutcome env mm file addr len flags pgoff (r, mm)
  | region (vmFlags : ULong) (aligned : pageAlign len ≠ 0)
      (ok : isErrValue (mappingAddr env file addr len flags pgoff) = false) :
      MmapOutcome env mm file addr len flags pgoff
        (mmapRegion env mm file (mappingAddr env file addr len flags pgoff) (pageAlign len) vmFlags)

/-- INTERNAL: once the address is chosen.
SOURCE: mm/mmap.c:1277-1402 -/
theorem doMmapAt_cases (env : MmEnv) (mm : MmStruct) (file : Option File)
    (addr len prot flags pgoff : ULong) :
    (∃ e : Errno, doMmapAt env mm file addr len prot flags pgoff = (e.ptr, mm)) ∨
      ∃ vmFlags, doMmapAt env mm file addr len prot flags pgoff =
        mmapRegion env mm file addr len vmFlags := by
  unfold doMmapAt
  split
  · exact Or.inl ⟨_, rfl⟩
  split
  · exact Or.inl ⟨_, rfl⟩
  split
  · exact Or.inl ⟨_, rfl⟩
  split
  · exact Or.inl ⟨_, rfl⟩
  · exact Or.inr ⟨_, rfl⟩

/-- INTERNAL: `do_mmap`.
SOURCE: mm/mmap.c:1226-1403 -/
theorem doMmap_outcome (env : MmEnv) (mm : MmStruct) (file : Option File)
    (addr len prot flags pgoff : ULong) :
    MmapOutcome env mm file addr len flags pgoff
      (doMmap env mm file addr len prot flags pgoff) := by
  unfold doMmap
  split
  · exact .failed _ (isErrValue_ptr _)
  unfold doMmapAligned
  split
  · exact .failed _ (isErrValue_ptr _)
  rename_i halign
  split
  · exact .failed _ (isErrValue_ptr _)
  split
  · exact .failed _ (isErrValue_ptr _)
  simp only
  split
  · exact .failed _ (by assumption)
  rename_i hok
  rcases doMmapAt_cases env mm file (mappingAddr env file addr len flags pgoff)
      (pageAlign len) (execProt env file prot) (fixedFlags flags) pgoff with ⟨e, he⟩ | ⟨vmFlags, he⟩
  · exact he ▸ .failed _ (isErrValue_ptr _)
  · exact he ▸ .region vmFlags halign (Bool.eq_false_of_not_eq_true hok)

/-- INTERNAL: `vm_mmap_pgoff` fails and leaves the space alone, or it comes to `mmap_region` at
the address chosen, with the length in whole pages. -/
theorem vmMmapPgoff_outcome (env : MmEnv) (mm : MmStruct) (file : Option File)
    (addr len prot flags pgoff : ULong) :
    MmapOutcome env mm file addr len flags pgoff
      (vmMmapPgoff env mm file addr len prot flags pgoff) := by
  unfold vmMmapPgoff
  cases env.securityMmapFile with
  | some e => exact .failed _ (isErrValue_ptr _)
  | none =>
    simp only
    split
    · exact .failed _ (isErrValue_ptr _)
    · exact doMmap_outcome env mm file addr len prot flags pgoff

/-! ## The invariant -/

def areaPages (vmas : List VmArea) : ℕ := (vmas.map (fun v => (vmaPages v).toNat)).sum

/-- INTERNAL: no areas have no pages. -/
@[simp] theorem areaPages_nil : areaPages [] = 0 := rfl

/-- INTERNAL: the pages of one more area are added. -/
@[simp] theorem areaPages_cons (v : VmArea) (vmas : List VmArea) :
    areaPages (v :: vmas) = (vmaPages v).toNat + areaPages vmas := rfl

/-- INTERNAL: the pages of two lists of areas are added. -/
@[simp] theorem areaPages_append (vmas ws : List VmArea) :
    areaPages (vmas ++ ws) = areaPages vmas + areaPages ws := by
  simp [areaPages]

/-- INTERNAL: the number of pages does not depend on the order of the areas. -/
theorem areaPages_perm {vmas ws : List VmArea} (h : vmas.Perm ws) :
    areaPages vmas = areaPages ws :=
  (h.map _).sum_eq

/-- Areas are not empty, and `total_vm` counts at least their pages. -/
structure WellFormed (mm : MmStruct) : Prop where
  area : ∀ v ∈ mm.vmas, v.vmStart.toNat < v.vmEnd.toNat
  accounted : areaPages mm.vmas ≤ mm.totalVm.toNat

/-- INTERNAL: `vma_pages` is the length in pages, when the area does not end before it starts.
-/
theorem vmaPages_toNat (v : VmArea) (h : v.vmStart.toNat ≤ v.vmEnd.toNat) :
    (vmaPages v).toNat = (v.vmEnd.toNat - v.vmStart.toNat) / 4096 := by
  rw [vmaPages, bytesToPages_toNat, BitVec.toNat_sub_of_le (BitVec.le_def.mpr h)]

/-- INTERNAL: a sum of words is at most the sum of their values; it is less when it overflows.
-/
theorem toNat_sum_le (l : List ULong) : l.sum.toNat ≤ (l.map BitVec.toNat).sum := by
  induction l with
  | nil => simp
  | cons x l ih =>
    rw [List.sum_cons, List.map_cons, List.sum_cons, BitVec.toNat_add]
    exact (Nat.mod_le _ _).trans (Nat.add_le_add_left ih _)

/-- INTERNAL: the ends of the part of an area inside a range. -/
theorem clip_toNat (v : VmArea) (start stop : ULong) :
    (v.clip start stop).vmStart.toNat = max start.toNat v.vmStart.toNat ∧
      (v.clip start stop).vmEnd.toNat = min stop.toNat v.vmEnd.toNat := by
  simp only [VmArea.clip]
  constructor
  · split_ifs with h <;> rw [BitVec.lt_def] at h <;> omega
  · split_ifs with h <;> rw [BitVec.lt_def] at h <;> omega

/-- INTERNAL: cutting a range out of an area splits its pages between the piece inside
and the pieces outside. -/
theorem clip_cut_pages (v : VmArea) (start stop : ULong)
    (hv : v.vmStart.toNat < v.vmEnd.toNat) (hlt : start.toNat < stop.toNat)
    (hmeets : v.meets start stop = true) :
    (vmaPages (v.clip start stop)).toNat + areaPages (v.cut start stop) ≤ (vmaPages v).toNat := by
  obtain ⟨h1, h2⟩ := of_decide_eq_true hmeets
  rw [BitVec.lt_def] at h1 h2
  have hclip : (vmaPages (v.clip start stop)).toNat =
      (min stop.toNat v.vmEnd.toNat - max start.toNat v.vmStart.toNat) / 4096 := by
    obtain ⟨hs, he⟩ := clip_toNat v start stop
    rw [vmaPages_toNat _ (by omega), hs, he]
  rw [hclip, vmaPages_toNat v hv.le, VmArea.cut, if_pos hmeets]
  -- an area can stick out of the range on both sides, on one, or on none
  by_cases hleft : v.vmStart < start <;> by_cases hright : stop < v.vmEnd <;>
    simp only [hleft, hright, if_true, if_false, areaPages_append, areaPages_cons,
      areaPages_nil] <;>
    rw [BitVec.lt_def] at hleft hright
  · rw [vmaPages_toNat _ (by simpa using hleft.le), vmaPages_toNat _ (by simpa using hright.le)]
    simp only
    omega
  · rw [vmaPages_toNat _ (by simpa using hleft.le)]
    simp only
    omega
  · rw [vmaPages_toNat _ (by simpa using hright.le)]
    simp only
    omega
  · omega

/-- INTERNAL: cutting a range out of the areas: what is cut out and what is left are no
more than what was there. -/
theorem detached_cut_pages (vmas : List VmArea) (start stop : ULong)
    (harea : ∀ v ∈ vmas, v.vmStart.toNat < v.vmEnd.toNat) (hlt : start.toNat < stop.toNat) :
    areaPages ((vmas.filter (fun v => v.meets start stop)).map (fun v => v.clip start stop)) +
      areaPages (vmas.flatMap (fun v => v.cut start stop)) ≤ areaPages vmas := by
  induction vmas with
  | nil => simp
  | cons v vmas ih =>
    have ih' := ih (fun w hw => harea w (List.mem_cons_of_mem v hw))
    rw [List.flatMap_cons, areaPages_append, areaPages_cons]
    cases hm : v.meets start stop with
    | true =>
      have hv := clip_cut_pages v start stop (harea v List.mem_cons_self) hlt hm
      rw [List.filter_cons_of_pos (by exact hm), List.map_cons, areaPages_cons]
      omega
    | false =>
      rw [List.filter_cons_of_neg (by simp [hm])]
      have hcut : v.cut start stop = [v] := by simp [VmArea.cut, hm]
      rw [hcut, areaPages_cons, areaPages_nil]
      omega

/-- INTERNAL: the pages in a range and the pages outside it are counted in `total_vm`.
SOURCE: mm/mmap.c:377-392 -/
theorem WellFormed.count_cut_le {mm : MmStruct} (h : WellFormed mm) (start stop : ULong)
    (hlt : start.toNat < stop.toNat) :
    (countVmaPagesRange mm start stop).toNat +
      areaPages (mm.vmas.flatMap (fun v => v.cut start stop)) ≤ mm.totalVm.toNat := by
  have hsum : (countVmaPagesRange mm start stop).toNat ≤ areaPages (detached mm start stop) := by
    refine (toNat_sum_le _).trans (le_of_eq ?_)
    rw [List.map_map]
    rfl
  have hcut := detached_cut_pages mm.vmas start stop h.area hlt
  have hacc := h.accounted
  unfold detached at hsum
  omega

/-- INTERNAL: the pieces that an unmapping leaves of an area are not empty. -/
theorem cut_nonempty (v : VmArea) (start stop : ULong) (hv : v.vmStart.toNat < v.vmEnd.toNat) :
    ∀ w ∈ v.cut start stop, w.vmStart.toNat < w.vmEnd.toNat := by
  intro w hw
  unfold VmArea.cut at hw
  split_ifs at hw with hm hl hr hr
  · rw [BitVec.lt_def] at hl hr
    simp only [List.cons_append, List.nil_append, List.mem_cons, List.not_mem_nil, or_false] at hw
    rcases hw with rfl | rfl
    · exact hl
    · exact hr
  · rw [BitVec.lt_def] at hl
    simp only [List.append_nil, List.mem_singleton] at hw
    subst hw
    exact hl
  · rw [BitVec.lt_def] at hr
    simp only [List.nil_append, List.mem_singleton] at hw
    subst hw
    exact hr
  · simp at hw
  · simp only [List.mem_singleton] at hw
    subst hw
    exact hv

/-- INTERNAL: unmapping a range keeps the invariant, and takes from `total_vm` exactly
the pages counted in the range. -/
theorem WellFormed.unmap {mm mm' : MmStruct} (h : WellFormed mm) {start stop : ULong}
    (hlt : start.toNat < stop.toNat)
    (total : mm'.totalVm = mm.totalVm - countVmaPagesRange mm start stop)
    (vmas : mm'.vmas = mm.vmas.flatMap (fun v => v.cut start stop)) :
    WellFormed mm' ∧
      mm'.totalVm.toNat + (countVmaPagesRange mm start stop).toNat = mm.totalVm.toNat := by
  have hcount := h.count_cut_le start stop hlt
  have htotal : mm'.totalVm.toNat =
      mm.totalVm.toNat - (countVmaPagesRange mm start stop).toNat := by
    rw [total, BitVec.toNat_sub_of_le (BitVec.le_def.mpr (by omega))]
  refine ⟨⟨?_, ?_⟩, by omega⟩
  · intro w hw
    rw [vmas, List.mem_flatMap] at hw
    obtain ⟨v, hv, hw⟩ := hw
    exact cut_nonempty v start stop (h.area v hv) w hw
  · rw [vmas]
    omega

/-- INTERNAL: adding an area whose pages are added to `total_vm` keeps the invariant. -/
theorem WellFormed.map {mm mm' : MmStruct} (h : WellFormed mm) {v : VmArea}
    (hv : v.vmStart.toNat < v.vmEnd.toNat) (vmas : mm'.vmas.Perm (v :: mm.vmas))
    (total : mm'.totalVm.toNat = mm.totalVm.toNat + (vmaPages v).toNat) : WellFormed mm' := by
  have hacc := h.accounted
  refine ⟨?_, ?_⟩
  · intro w hw
    rcases List.mem_cons.mp (vmas.mem_iff.mp hw) with rfl | hw
    · exact hv
    · exact h.area w hw
  · rw [areaPages_perm vmas, areaPages_cons]
    omega

/-! ## What a mapping call does to `total_vm` -/

/-- A successful mapping of `len` bytes at `area`: whole pages below `TASK_SIZE`, in place
of the pages that were mapped in the range before. -/
structure MapsPages (env : MmEnv) (mm : MmStruct) (area len : ULong) (r : ULong × MmStruct) :
    Prop where
  aligned : (pageAlign len).toNat = (len.toNat + 4095) / 4096 * 4096
  range : area.toNat + (pageAlign len).toNat ≤ env.taskSize.toNat
  total : r.2.totalVm.toNat + (countVmaPagesRange mm area (area + pageAlign len)).toNat =
    mm.totalVm.toNat + (len.toNat + 4095) / 4096

/-- INTERNAL: `PAGE_ALIGN` rounds up, unless it overflows to zero. -/
theorem pageAlign_toNat_of_ne_zero (len : ULong) (h : pageAlign len ≠ 0) :
    (pageAlign len).toNat = (len.toNat + 4095) / 4096 * 4096 := by
  have hlt := len.isLt
  have hne : (pageAlign len).toNat ≠ 0 := fun h0 => h (BitVec.eq_of_toNat_eq h0)
  rw [pageAlign_toNat] at hne ⊢
  omega

/-- INTERNAL: `mmap_region` on a page-aligned range below `TASK_SIZE`. -/
theorem mmapRegion_total (env : MmEnv) (mm : MmStruct) (file : Option File)
    (addr len vmFlags : ULong) (hwf : WellFormed mm)
    (htotal : mm.totalVm.toNat * 4096 ≤ env.taskSize.toNat)
    (hlen : len ≠ 0) (hmod : len.toNat % 4096 = 0)
    (hrange : addr.toNat + len.toNat ≤ env.taskSize.toNat) :
    WellFormed (mmapRegion env mm file addr len vmFlags).2 ∧
      (isErrValue (mmapRegion env mm file addr len vmFlags).1 = true ∧
          (mmapRegion env mm file addr len vmFlags).2.totalVm.toNat ≤ mm.totalVm.toNat ∨
        (mmapRegion env mm file addr len vmFlags).1 = addr ∧
          (mmapRegion env mm file addr len vmFlags).2.totalVm.toNat +
              (countVmaPagesRange mm addr (addr + len)).toNat =
            mm.totalVm.toNat + len.toNat / 4096) := by
  have halign := pageAlign_of_mod len hmod
  have hsize := env.taskSize_le
  have hpos : 0 < len.toNat := Nat.pos_of_ne_zero (fun h0 => hlen (BitVec.eq_of_toNat_eq h0))
  have hstop : (addr + len).toNat = addr.toNat + len.toNat := by
    rw [BitVec.toNat_add]
    omega
  have hlt : addr.toNat < (addr + len).toNat := by omega
  have houtcome := mmapRegion_outcome env mm file addr len vmFlags
  generalize mmapRegion env mm file addr len vmFlags = r at houtcome ⊢
  cases houtcome with
  | refused e => exact ⟨hwf, Or.inl ⟨isErrValue_ptr e, le_rfl⟩⟩
  | unmapped e mm' total vmas =>
    rw [halign] at total vmas
    obtain ⟨hwf', hcount⟩ := hwf.unmap hlt total vmas
    exact ⟨hwf', Or.inl ⟨isErrValue_ptr e, by simp only; omega⟩⟩
  | mapped mm' flags total vmas =>
    rw [halign] at total vmas
    -- the address space between the unmapping and the new area
    let between : MmStruct :=
      { mm with
        totalVm := mm.totalVm - countVmaPagesRange mm addr (addr + len)
        vmas := mm.vmas.flatMap (fun v => v.cut addr (addr + len)) }
    have hunmap : WellFormed between ∧ _ := hwf.unmap hlt rfl rfl
    obtain ⟨hwf', hcount⟩ := hunmap
    have hpages : (vmaPages ⟨addr, addr + len, flags⟩).toNat = len.toNat / 4096 := by
      rw [vmaPages_toNat _ (by simp only; omega)]
      simp only
      omega
    have htotal' : mm'.totalVm.toNat = between.totalVm.toNat + len.toNat / 4096 := by
      rw [total, BitVec.toNat_add, bytesToPages_toNat]
      change (between.totalVm.toNat + _) % _ = _
      omega
    refine ⟨hwf'.map (v := ⟨addr, addr + len, flags⟩) hlt vmas (by rw [htotal', hpages]),
      Or.inr ⟨rfl, ?_⟩⟩
    simp only
    omega

/-- INTERNAL: `vm_mmap_pgoff` keeps the invariant; when it fails it has mapped nothing.
-/
theorem vmMmapPgoff_total (env : MmEnv) (mm : MmStruct) (file : Option File)
    (addr len prot flags pgoff : ULong) (hwf : WellFormed mm)
    (htotal : mm.totalVm.toNat * 4096 ≤ env.taskSize.toNat) :
    WellFormed (vmMmapPgoff env mm file addr len prot flags pgoff).2 ∧
      (isErrValue (vmMmapPgoff env mm file addr len prot flags pgoff).1 = true ∧
          (vmMmapPgoff env mm file addr len prot flags pgoff).2.totalVm.toNat ≤
            mm.totalVm.toNat ∨
        isErrValue (vmMmapPgoff env mm file addr len prot flags pgoff).1 = false ∧
          MapsPages env mm (mappingAddr env file addr len flags pgoff) len
            (vmMmapPgoff env mm file addr len prot flags pgoff)) := by
  have houtcome := vmMmapPgoff_outcome env mm file addr len prot flags pgoff
  generalize vmMmapPgoff env mm file addr len prot flags pgoff = r at houtcome ⊢
  cases houtcome with
  | failed r h => exact ⟨hwf, Or.inl ⟨h, le_rfl⟩⟩
  | region vmFlags aligned ok =>
    obtain ⟨_, hrange, _⟩ := mappingAddr_ok ok
    have halign := pageAlign_toNat_of_ne_zero len aligned
    obtain ⟨hwf', hcase⟩ := mmapRegion_total env mm file _ (pageAlign len) vmFlags hwf htotal
      aligned (pageAlign_mod len) hrange
    refine ⟨hwf', hcase.imp id ?_⟩
    rintro ⟨haddr, hsum⟩
    refine ⟨?_, halign, hrange, by omega⟩
    rw [haddr]
    exact ok

/-- The range search, when it is not bound to an address, answers with an error or with
a range that no area meets. -/
def FindsFree (env : MmEnv) (mm : MmStruct) : Prop :=
  ∀ file hint len pgoff flags, hasFlag flags MAP_FIXED = false →
    isErrValue (env.getArea file hint len pgoff flags) = false →
      ∀ v ∈ mm.vmas, (env.getArea file hint len pgoff flags).toNat + len.toNat ≤ v.vmStart.toNat ∨
        v.vmEnd.toNat ≤ (env.getArea file hint len pgoff flags).toNat

/-- The range search, when it is bound to an address, answers with an error or with that
address. -/
def FixedStays (env : MmEnv) : Prop :=
  ∀ addr len, isErrValue (env.getArea none addr len 0 MAP_FIXED) = false →
    env.getArea none addr len 0 MAP_FIXED = addr

/-- A successful mapping of `len` bytes in a range that no area met. -/
structure MapsFree (env : MmEnv) (mm : MmStruct) (len : ULong) (r : ULong × MmStruct) : Prop where
  aligned : (pageAlign len).toNat = (len.toNat + 4095) / 4096 * 4096
  nonempty : 0 < (pageAlign len).toNat
  range : r.1.toNat + (pageAlign len).toNat ≤ env.taskSize.toNat
  page : r.1.toNat % 4096 = 0
  apart : ∀ v ∈ mm.vmas,
    r.1.toNat + (pageAlign len).toNat ≤ v.vmStart.toNat ∨ v.vmEnd.toNat ≤ r.1.toNat
  total : r.2.totalVm = mm.totalVm + bytesToPages (pageAlign len)
  vmas : ∃ flags, r.2.vmas.Perm (⟨r.1, r.1 + pageAlign len, flags⟩ :: mm.vmas)

/-- INTERNAL: an area that ends before a range, or starts behind it, does not meet it. -/
theorem meets_eq_false (v : VmArea) (start len : ULong) (hrange : start.toNat + len.toNat < 2 ^ 64)
    (hapart : start.toNat + len.toNat ≤ v.vmStart.toNat ∨ v.vmEnd.toNat ≤ start.toNat) :
    v.meets start (start + len) = false := by
  apply decide_eq_false
  rw [BitVec.lt_def, BitVec.lt_def, BitVec.toNat_add]
  omega

/-- INTERNAL: a mapping that is not bound to an address replaces nothing: it fails and
leaves the areas and `total_vm`, or adds its pages.
SOURCE: mm/mmap.c:1226-1403, 2740-2996 -/
theorem vmMmapPgoff_free (env : MmEnv) (mm : MmStruct) (file : Option File)
    (addr len prot flags pgoff : ULong) (hfree : FindsFree env mm)
    (hflags : hasFlag (fixedFlags flags) MAP_FIXED = false) :
    isErrValue (vmMmapPgoff env mm file addr len prot flags pgoff).1 = true ∧
        (vmMmapPgoff env mm file addr len prot flags pgoff).2.totalVm = mm.totalVm ∧
        (vmMmapPgoff env mm file addr len prot flags pgoff).2.vmas = mm.vmas ∨
      isErrValue (vmMmapPgoff env mm file addr len prot flags pgoff).1 = false ∧
        MapsFree env mm len (vmMmapPgoff env mm file addr len prot flags pgoff) := by
  have hsize := env.taskSize_le
  have houtcome := vmMmapPgoff_outcome env mm file addr len prot flags pgoff
  generalize vmMmapPgoff env mm file addr len prot flags pgoff = r at houtcome ⊢
  cases houtcome with
  | failed r h => exact Or.inl ⟨h, rfl, rfl⟩
  | region vmFlags aligned ok =>
    obtain ⟨hfound, hrange, hpage⟩ := mappingAddr_ok ok
    have hapart := hfree file (hintAddr env (fixedFlags flags) addr) (pageAlign len)
      (if file.isNone then 0 else pgoff) (fixedFlags flags) hflags (hfound ▸ ok)
    rw [← hfound] at hapart
    generalize mappingAddr env file addr len flags pgoff = area at *
    -- the range is free, so nothing is counted in it and nothing is cut
    have hmeets : ∀ v ∈ mm.vmas, v.meets area (area + pageAlign len) = false := by
      intro v hv
      exact meets_eq_false v area (pageAlign len) (by omega) (hapart v hv)
    have hnone := countVmaPagesRange_eq_zero mm area (area + pageAlign len) hmeets
    have hcut := flatMap_cut_eq_self mm area (area + pageAlign len) hmeets
    have hpos : 0 < (pageAlign len).toNat :=
      Nat.pos_of_ne_zero (fun h0 => aligned (BitVec.eq_of_toNat_eq h0))
    have hregion := mmapRegion_outcome env mm file area (pageAlign len) vmFlags
    generalize mmapRegion env mm file area (pageAlign len) vmFlags = r at hregion ⊢
    cases hregion with
    | refused e => exact Or.inl ⟨isErrValue_ptr e, rfl, rfl⟩
    | unmapped e mm' total vmas =>
      rw [pageAlign_of_mod _ (pageAlign_mod len)] at total vmas
      exact Or.inl ⟨isErrValue_ptr e, by simp [total, hnone], by simp only [vmas, hcut]⟩
    | mapped mm' vmFlags total vmas =>
      rw [pageAlign_of_mod _ (pageAlign_mod len)] at total vmas
      rw [hnone, sub_zero] at total
      rw [hcut] at vmas
      exact Or.inr ⟨ok, pageAlign_toNat_of_ne_zero len aligned, hpos, hrange, hpage, hapart, total,
        vmFlags, vmas⟩

/-! ## What `brk` does to `total_vm` -/

/-- What `brk` can do after the hook: leave everything but the break as it was, unmap the
pages between the two breaks, or map them. -/
inductive BrkOutcome (env : MmEnv) (mm : MmStruct) (brk newbrk oldbrk : ULong) :
    ULong × MmStruct → Prop where
  | kept (r b : ULong) : BrkOutcome env mm brk newbrk oldbrk (r, { mm with brk := b })
  | shrunk (mm' : MmStruct) (le : brk ≤ mm.brk) (ne : oldbrk ≠ newbrk) (zero : oldbrk ≠ 0)
      (total : mm'.totalVm = mm.totalVm - countVmaPagesRange mm newbrk oldbrk)
      (vmas : mm'.vmas = mm.vmas.flatMap (fun v => v.cut newbrk oldbrk)) :
      BrkOutcome env mm brk newbrk oldbrk (brk, mm')
  | grown (mm' : MmStruct) (flags : ULong) (lt : mm.brk < brk) (ne : oldbrk ≠ newbrk)
      (limits : isErrValue (getUnmappedArea env none oldbrk (newbrk - oldbrk) 0 MAP_FIXED) = false)
      (total : mm'.totalVm = mm.totalVm + bytesToPages (newbrk - oldbrk))
      (vmas : mm'.vmas.Perm (⟨oldbrk, oldbrk + (newbrk - oldbrk), flags⟩ :: mm.vmas)) :
      BrkOutcome env mm brk newbrk oldbrk (brk, mm')

/-- INTERNAL: `do_brk_flags` fails and changes nothing, or adds an area and its pages.
SOURCE: mm/mmap.c:3149-3228 -/
theorem doBrkFlags_cases (env : MmEnv) (mm : MmStruct) (addr len : ULong) :
    (∃ e, doBrkFlags env mm addr len = (some e, mm)) ∨
      ∃ flags, (doBrkFlags env mm addr len).1 = none ∧
        (doBrkFlags env mm addr len).2.totalVm = mm.totalVm + bytesToPages len ∧
        (doBrkFlags env mm addr len).2.vmas.Perm (⟨addr, addr + len, flags⟩ :: mm.vmas) := by
  unfold doBrkFlags
  simp only
  split
  · exact Or.inl ⟨_, rfl⟩
  split
  · exact Or.inl ⟨_, rfl⟩
  split
  · exact Or.inl ⟨_, rfl⟩
  split
  · exact Or.inl ⟨_, rfl⟩
  · exact Or.inr ⟨_, rfl, rfl, insertVma_perm mm _⟩

/-- INTERNAL: the part of `brk` after the hook.
SOURCE: mm/mmap.c:231-287 -/
theorem brkApply_outcome (env : MmEnv) (mm : MmStruct) (brk newbrk oldbrk : ULong) :
    BrkOutcome env mm brk newbrk oldbrk (brkApply env mm brk newbrk oldbrk) := by
  unfold brkApply
  by_cases heq : oldbrk = newbrk
  · rw [if_pos heq]
    exact .kept brk brk
  rw [if_neg heq]
  by_cases hle : brk ≤ mm.brk
  · rw [if_pos hle]
    cases hfind : vmaFind mm newbrk oldbrk with
    | none => exact .kept mm.brk mm.brk
    | some brkvma =>
      simp only
      split
      · exact .kept mm.brk mm.brk
      · -- some area begins below the old break, so that break is not zero
        have hzero : oldbrk ≠ 0 := by
          rintro rfl
          have hmeets := List.find?_some (p := fun v : VmArea => v.meets newbrk 0) hfind
          exact BitVec.not_lt_zero (of_decide_eq_true hmeets).1
        rcases doVmiAlignMunmap_cases env { mm with brk := brk } brkvma newbrk oldbrk with
          ⟨e, he⟩ | ⟨hok, htotal, hvmas⟩
        · rw [he]
          exact .kept mm.brk mm.brk
        · rw [show doVmiAlignMunmap env { mm with brk := brk } brkvma newbrk oldbrk =
            (none, (doVmiAlignMunmap env { mm with brk := brk } brkvma newbrk oldbrk).2) from
            Prod.ext hok rfl]
          exact .shrunk _ hle heq hzero htotal hvmas
  · rw [if_neg hle]
    split
    · exact .kept mm.brk mm.brk
    rename_i hlimits
    split
    · exact .kept mm.brk mm.brk
    · have harea : isErrValue (getUnmappedArea env none oldbrk (newbrk - oldbrk) 0 MAP_FIXED) =
          false := by
        rw [Bool.eq_false_iff]
        intro herr
        apply hlimits
        rw [checkBrkLimits, if_pos herr]
        decide
      rcases doBrkFlags_cases env mm oldbrk (newbrk - oldbrk) with ⟨e, he⟩ | ⟨flags, hok, ht, hv⟩
      · rw [he]
        exact .kept mm.brk mm.brk
      · rw [show doBrkFlags env mm oldbrk (newbrk - oldbrk) =
          (none, (doBrkFlags env mm oldbrk (newbrk - oldbrk)).2) from Prod.ext hok rfl]
        exact .grown _ flags (BitVec.not_le.mp hle) heq harea ht hv

/-- INTERNAL: `PAGE_ALIGN` keeps the order of two lengths, unless the larger one overflows. -/
theorem pageAlign_le_pageAlign (x y : ULong) (hle : x ≤ y) (hne : pageAlign y ≠ 0) :
    (pageAlign x).toNat ≤ (pageAlign y).toNat := by
  have hy := pageAlign_toNat_of_ne_zero y hne
  have hle' := BitVec.le_def.mp hle
  have hx := x.isLt
  rw [pageAlign_toNat x]
  omega

/-- INTERNAL: `brk` with the page rounding it makes. When `total_vm` has grown, it has
grown by the pages between the rounded breaks, and these fit below `TASK_SIZE`. -/
theorem brkApply_total (env : MmEnv) (mm : MmStruct) (brk : ULong) (hwf : WellFormed mm)
    (htotal : mm.totalVm.toNat * 4096 ≤ env.taskSize.toNat)
    (hgrown : mm.totalVm.toNat <
      (brkApply env mm brk (pageAlign brk) (pageAlign mm.brk)).2.totalVm.toNat) :
    mm.brk < brk ∧
      (pageAlign brk - pageAlign mm.brk).toNat ≤ env.taskSize.toNat ∧
      (brkApply env mm brk (pageAlign brk) (pageAlign mm.brk)).2.totalVm.toNat =
        mm.totalVm.toNat + (pageAlign brk - pageAlign mm.brk).toNat / 4096 := by
  have hsize := env.taskSize_le
  have houtcome := brkApply_outcome env mm brk (pageAlign brk) (pageAlign mm.brk)
  generalize brkApply env mm brk (pageAlign brk) (pageAlign mm.brk) = r at houtcome hgrown ⊢
  cases houtcome with
  | kept r b => exact absurd hgrown (lt_irrefl _)
  | shrunk mm' le ne zero total vmas =>
    have hle := pageAlign_le_pageAlign brk mm.brk le zero
    have hlt : (pageAlign brk).toNat < (pageAlign mm.brk).toNat :=
      lt_of_le_of_ne hle (fun h => ne (BitVec.eq_of_toNat_eq h).symm)
    -- unmapping does not wrap `total_vm`, so it cannot have grown
    have hcount := (hwf.unmap hlt total vmas).2
    simp only at hgrown
    omega
  | grown mm' flags lt ne limits total vmas =>
    have hlen := (getUnmappedArea_ok _ _ _ _ _ _ limits).2.1
    refine ⟨lt, hlen, ?_⟩
    simp only
    rw [total, BitVec.toNat_add, bytesToPages_toNat]
    omega

end UsacKernel.Analysis
