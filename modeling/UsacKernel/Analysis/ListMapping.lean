import UsacKernel.Analysis.ListRelation

/-!
# `mmap_region` in both models

What `mmap_region` does on the tree, it does on the list under some answers: it is refused at the
same limits, it charges the same mappings, and the flags that are left to the pages are the same,
whether the range became part of a neighbour, or a new area that the file had changed.
-/

set_option autoImplicit false

namespace UsacKernel.Analysis

open UsacKernel.Computation UsacKernel.Model UsacKernel.Interface IndexedHeap

/-- The two models of a file agree about what the charge depends on. -/
def SameFile (file : Option OpenFile) (file' : Option File) : Prop :=
  file.map OpenFile.isHugepages = file'.map (fun f => f.hugeShift.isSome)

/-- The result of `mmap_region` as a word. -/
def resultWord : Except Errno ULong → ULong
  | .error e => e.ptr
  | .ok addr => addr

/-- `mmap_region` on the list, once the range is unmapped.
SOURCE: mm/mmap.c:2775-2996 -/
def listRegion (env : MmEnv) (mm : MmStruct) (file : Option File) (addr len vmFlags : ULong) :
    ULong × MmStruct :=
  if accountableMapping file vmFlags ∧ env.securityVmEnoughMemory (bytesToPages len) then
    (ENOMEM.ptr, mm)
  else
    let vmFlags := if accountableMapping file vmFlags then vmFlags ||| VM_ACCOUNT else vmFlags
    if env.merges then
      (addr, accountRegion env
        { mm with
          vmas := insertVma mm ⟨addr, addr + len, settledFlags env vmFlags⟩
          mapCount := mergedCount env mm } vmFlags (bytesToPages len))
    else
      match env.regionError with
      | some e => (e.ptr, mm)
      | none =>
        let vmFlags := if file.isSome then env.regionFlags vmFlags else vmFlags
        (addr, accountRegion env
          { mm with
            vmas := insertVma mm ⟨addr, addr + len, settledFlags env vmFlags⟩
            mapCount :=
              if file.isSome ∧ env.mergesLate then mergedCount env mm else mm.mapCount + 1 }
          vmFlags (bytesToPages len))

section List

variable {file : Option File} {len vmFlags : ULong} (mm : MmStruct) (addr : ULong) (env : MmEnv)

/-- The test at the start of `mmap_region`.
SOURCE: mm/mmap.c:2757-2769 -/
def regionRefused (env : MmEnv) (mm : MmStruct) (addr len vmFlags : ULong) : Prop :=
  ¬ mayExpandVm env mm vmFlags (bytesToPages len) = true ∧
    ¬ mayExpandVm env mm vmFlags
      (bytesToPages len - countVmaPagesRange mm addr (addr + len)) = true

/-- INTERNAL: the limit refuses the range on the list. -/
theorem mmapRegion_refused (h : regionRefused env mm addr len vmFlags) :
    mmapRegion env mm file addr len vmFlags = (ENOMEM.ptr, mm) := if_pos h

/-- INTERNAL: the range cannot be unmapped on the list. -/
theorem mmapRegion_kept {e : Errno} {mm' : MmStruct}
    (h : ¬ regionRefused env mm addr len vmFlags)
    (hunmap : doVmiMunmap env mm addr len = (some e, mm')) :
    mmapRegion env mm file addr len vmFlags = (ENOMEM.ptr, mm') := by
  refine (if_neg h).trans ?_
  rw [hunmap]

/-- INTERNAL: the range is unmapped on the list, and `listRegion` goes on. -/
theorem mmapRegion_unmapped {mm' : MmStruct} (h : ¬ regionRefused env mm addr len vmFlags)
    (hunmap : doVmiMunmap env mm addr len = (none, mm')) :
    mmapRegion env mm file addr len vmFlags = listRegion env mm' file addr len vmFlags := by
  refine (if_neg h).trans ?_
  rw [hunmap]
  rfl

/-- The flags of a new mapping once the charge is decided. -/
def chargedFlags (file : Option File) (vmFlags : ULong) : ULong :=
  if accountableMapping file vmFlags then vmFlags ||| VM_ACCOUNT else vmFlags

/-- INTERNAL: the charge is refused. -/
theorem listRegion_denied (h : accountableMapping file vmFlags = true ∧
      env.securityVmEnoughMemory (bytesToPages len) = true) :
    listRegion env mm file addr len vmFlags = (ENOMEM.ptr, mm) := if_pos h

/-- INTERNAL: a failure after the charge. -/
theorem listRegion_failed {e : Errno} (h : ¬ (accountableMapping file vmFlags = true ∧
      env.securityVmEnoughMemory (bytesToPages len) = true)) (hmerges : env.merges = false)
    (herror : env.regionError = some e) :
    listRegion env mm file addr len vmFlags = (e.ptr, mm) := by
  unfold listRegion
  rw [if_neg h]
  dsimp only
  rw [hmerges, if_neg Bool.false_ne_true, herror]

/-- INTERNAL: the range becomes part of a neighbour. -/
theorem listRegion_merged (h : ¬ (accountableMapping file vmFlags = true ∧
      env.securityVmEnoughMemory (bytesToPages len) = true)) (hmerges : env.merges = true) :
    ∃ mapCount, listRegion env mm file addr len vmFlags =
      (addr, accountRegion env
        { mm with
          vmas := insertVma mm ⟨addr, addr + len, settledFlags env (chargedFlags file vmFlags)⟩
          mapCount := mapCount } (chargedFlags file vmFlags) (bytesToPages len)) := by
  unfold listRegion
  rw [if_neg h]
  dsimp only
  rw [if_pos hmerges]
  exact ⟨_, rfl⟩

/-- INTERNAL: the range becomes an area of its own, with the flags that the file has left. -/
theorem listRegion_new {flags : ULong} (h : ¬ (accountableMapping file vmFlags = true ∧
      env.securityVmEnoughMemory (bytesToPages len) = true)) (hmerges : env.merges = false)
    (herror : env.regionError = none)
    (hflags : (if file.isSome then env.regionFlags (chargedFlags file vmFlags)
      else chargedFlags file vmFlags) = flags) :
    ∃ mapCount, listRegion env mm file addr len vmFlags =
      (addr, accountRegion env
        { mm with
          vmas := insertVma mm ⟨addr, addr + len, settledFlags env flags⟩
          mapCount := mapCount } flags (bytesToPages len)) := by
  unfold listRegion
  rw [if_neg h]
  dsimp only
  rw [hmerges, if_neg Bool.false_ne_true, herror, ← hflags]
  exact ⟨_, rfl⟩

end List

section Tree

variable {as as' : AddressSpace} {req : RegionRequest} (env : MmEnv) (ans : RegionAnswers)

/-- INTERNAL: the limit refuses the range on the tree. -/
theorem treeRegion_refused (h : regionRefused env as.toMm req.addr req.len req.vmFlags) :
    as.mmapRegion env ans req = (.error ENOMEM, as) := if_pos h

/-- INTERNAL: the range cannot be unmapped on the tree. -/
theorem treeRegion_kept {e : Errno}
    (h : ¬ regionRefused env as.toMm req.addr req.len req.vmFlags)
    (hunmap : as.doVmiMunmap env ans.munmap req.addr req.len = (some e, as')) :
    as.mmapRegion env ans req = (.error ENOMEM, as') := by
  refine (if_neg h).trans ?_
  rw [hunmap]

/-- INTERNAL: the range is unmapped on the tree, and `chargeAndMap` goes on. -/
theorem treeRegion_unmapped (h : ¬ regionRefused env as.toMm req.addr req.len req.vmFlags)
    (hunmap : as.doVmiMunmap env ans.munmap req.addr req.len = (none, as')) :
    as.mmapRegion env ans req = as'.chargeAndMap env ans req := by
  refine (if_neg h).trans ?_
  rw [hunmap]

end Tree

section Map

variable {as : AddressSpace} {mm : MmStruct} {leak : ℤ} {req : RegionRequest} {file : Option File}

/-- INTERNAL: the two `accountable_mapping` are one function.
SOURCE: mm/mmap.c:1572-1582 -/
theorem SameFile.accountable (h : SameFile req.file file) (vmFlags : ULong) :
    accountableMapping file vmFlags = isAccountableMapping req.file vmFlags := by
  have hany : file.any (fun f => f.hugeShift.isSome) = req.file.any OpenFile.isHugepages := by
    unfold SameFile at h
    cases hreq : req.file with
    | none =>
      cases hfile : file with
      | none => rfl
      | some f =>
        rw [hreq, hfile] at h
        cases h
    | some g =>
      cases hfile : file with
      | none =>
        rw [hreq, hfile] at h
        cases h
      | some f =>
        rw [hreq, hfile] at h
        exact (Option.some.inj h).symm
  unfold accountableMapping isAccountableMapping
  rw [hany]

/-- INTERNAL: a mapping has a file in both models or in none. -/
theorem SameFile.isSome_eq (h : SameFile req.file file) : file.isSome = req.file.isSome := by
  have hmap := congrArg Option.isSome h
  rw [Option.isSome_map, Option.isSome_map] at hmap
  exact hmap.symm

/-- INTERNAL: the limit on the address space is checked on the same counters.
SOURCE: mm/mmap.c:3478-3501 -/
theorem Shows.mayExpandVm_eq (hs : Shows as mm) (h : Consistent as leak) (env : MmEnv)
    (c : CoarseAnswers) (flags npages : ULong) :
    mayExpandVm (answering env c) mm flags npages = mayExpandVm env as.toMm flags npages := by
  have htotal : mm.totalVm = as.toMm.totalVm := hs.counter_eq h .total
  have hdata : mm.dataVm = as.toMm.dataVm := hs.counter_eq h .data
  unfold mayExpandVm
  rw [htotal, hdata]
  rfl

/-- INTERNAL: the limits of `mmap_region` refuse in both models or in none.
SOURCE: mm/mmap.c:2757-2769 -/
theorem Shows.regionRefused_iff (hs : Shows as mm) (h : Consistent as leak) (env : MmEnv)
    (c : CoarseAnswers) (hr : PageRange req.addr req.stop) :
    regionRefused (answering env c) mm req.addr req.len req.vmFlags ↔
      regionRefused env as.toMm req.addr req.len req.vmFlags := by
  have hcount : countVmaPagesRange mm req.addr (req.addr + req.len) =
      countVmaPagesRange as.toMm req.addr (req.addr + req.len) :=
    countVmaPagesRange_congr h.shows_toMm.space.ok hs.space.ok
      (hs.meaning_eq.trans h.shows_toMm.meaning_eq.symm) hr
  unfold regionRefused
  rw [hs.mayExpandVm_eq h, hs.mayExpandVm_eq h, hcount]

/-- INTERNAL: an area without a file has the flags that were asked for. -/
theorem builtArea_flags {ans : RegionAnswers} {v : VmAreaStruct} (hfile : req.file = none)
    (h : builtArea ans req = .ok v) : v.vmFlags = req.vmFlags := by
  unfold builtArea at h
  rw [hfile] at h
  dsimp only at h
  split_ifs at h
  · cases hshmem : ans.shmemZeroSetup with
    | error e =>
      rw [hshmem] at h
      cases h
    | ok result =>
      rw [hshmem] at h
      obtain rfl := Except.ok.inj h
      rfl
  · obtain rfl := Except.ok.inj h
    rfl

/-- INTERNAL: the flags that are left to the pages, in both models. -/
theorem plainAttr_settledFlags (env : MmEnv) {attr : PageAttr} {vmFlags : ULong}
    (hflags : attr.flags = vmFlags &&& ~~~ VM_SOFTDIRTY)
    (hcounts : env.countsLocked = !attr.unlockable) :
    plainAttr (settledFlags env vmFlags) = plainAttr attr.settled.flags := by
  have hlocked : hasFlag attr.flags VM_LOCKED = hasFlag vmFlags VM_LOCKED := by
    rw [hflags, hasFlag_clear vmFlags VM_SOFTDIRTY VM_LOCKED (by decide)]
  have hcond : (hasFlag vmFlags VM_LOCKED = true ∧ ¬ env.countsLocked = true) ↔
      (hasFlag attr.flags VM_LOCKED = true ∧ attr.unlockable = true) := by
    rw [hlocked, hcounts]
    simp
  unfold settledFlags PageAttr.settled
  simp only [hcond]
  split_ifs
  · have hswap : vmFlags &&& ~~~ VM_SOFTDIRTY &&& ~~~ VM_LOCKED_MASK =
        vmFlags &&& ~~~ VM_LOCKED_MASK &&& ~~~ VM_SOFTDIRTY := by
      rw [BitVec.and_assoc, BitVec.and_comm (~~~ VM_SOFTDIRTY), ← BitVec.and_assoc]
    dsimp only
    rw [hflags, hswap, plainAttr_clear]
  · rw [hflags, plainAttr_clear]

/-- INTERNAL: the end of `mmap_region` in both models.
SOURCE: mm/mmap.c:2943-2968 -/
theorem Shows.region {as' : AddressSpace} (hs : Shows as mm) (env : MmEnv) {attr : PageAttr}
    {addr len vmFlags : ULong}
    (hb : Becomes as as' leak ((meaning as).assign addr.toNat (addr + len).toNat attr.settled))
    (hr : PageRange addr (addr + len))
    (hfree : ∀ a, addr.toNat ≤ a → a < (addr + len).toNat → meaning as a = none)
    (hflags : attr.flags = vmFlags &&& ~~~ VM_SOFTDIRTY)
    (hcounts : env.countsLocked = !attr.unlockable) (mapCount : ℤ) :
    Shows as' (accountRegion env
      { mm with
        vmas := insertVma mm ⟨addr, addr + len, settledFlags env vmFlags⟩
        mapCount := mapCount } vmFlags (bytesToPages len)) := by
  have hcounters := mmCounters_accountRegion env
    { mm with
      vmas := insertVma mm ⟨addr, addr + len, settledFlags env vmFlags⟩
      mapCount := mapCount } vmFlags (bytesToPages len)
  refine hs.mapped (v := ⟨addr, addr + len, settledFlags env vmFlags⟩) hb hr hfree
    (plainAttr_settledFlags env hflags hcounts) (accountRegion_vmas _ _ _ _) (fun k => ?_) ?_
  · rw [hcounters, vmaPages_length]
    rfl
  · rw [hcounters, countMapped_layout]
    rfl

/-- INTERNAL: what is mapped into a free range, in both models.
SOURCE: mm/mmap.c:2775-2996 -/
theorem chargeAndMap_shows {A B : List Cell} (env : MmEnv) (ans : RegionAnswers)
    (hdriver : DriverOk ans) (hflags : isAccounted req.vmFlags = false) (hholds : Holds as (A ++ B))
    (hacc : Accounted as (A ++ B) leak) (hlock : LockOk (cellsMeaning (A ++ B)))
    (hr : PageRange req.addr req.stop) (hA : ∀ c ∈ A, c.2.vmEnd.toNat ≤ req.addr.toNat)
    (hB : ∀ c ∈ B, req.stop.toNat ≤ c.2.vmStart.toNat) (hs : Shows as mm)
    (hfile : SameFile req.file file) (error : Option Errno) (maxMapCount : ℤ) :
    ∃ merges regionError flags countsLocked,
      SameOutcome (Prod.map resultWord id (as.chargeAndMap env ans req))
        (listRegion (answering env
          (coarse maxMapCount error merges regionError flags countsLocked)) mm file req.addr
          req.len req.vmFlags) := by
  have hmeaning := hholds.meaning_eq
  have hfree : ∀ a, req.addr.toNat ≤ a → a < req.stop.toNat → meaning as a = none :=
    hmeaning ▸ free_between hA hB
  have houtcome := chargeAndMap_outcome env ans hdriver hflags hholds hacc hlock hr hA hB
  rw [← hmeaning] at houtcome
  by_cases hdenied : accountableMapping file req.vmFlags = true ∧
      env.securityVmEnoughMemory (bytesToPages req.len) = true
  · have hlist := listRegion_denied mm req.addr
      (answering env (coarse maxMapCount error false none 0 true)) hdenied
    have htree : as.chargeAndMap env ans req = (.error ENOMEM, as) := by
      unfold AddressSpace.chargeAndMap
      rw [if_pos (hfile.accountable _ ▸ hdenied.1)]
      exact if_pos hdenied.2
    refine ⟨false, none, 0, true, ?_⟩
    rw [htree, hlist]
    exact ⟨rfl, hs⟩
  have hcharged : chargedFlags file req.vmFlags = (chargedRequest req).vmFlags := by
    unfold chargedFlags chargedRequest
    rw [hfile.accountable]
    split_ifs <;> rfl
  rcases houtcome with ⟨e, as', heq, hb⟩ | ⟨as', attr, heq, hattr, hb⟩
  · have hlist := listRegion_failed mm req.addr
      (answering env (coarse maxMapCount error false (some e) 0 true)) hdenied rfl rfl
    refine ⟨false, some e, 0, true, ?_⟩
    rw [heq, hlist]
    exact ⟨rfl, hs.unchanged hb⟩
  rcases hattr with rfl | ⟨v, hv, rfl⟩
  · -- the range was joined to a neighbour
    obtain ⟨mapCount, hlist⟩ := listRegion_merged mm req.addr
      (answering env (coarse maxMapCount error true none 0
        !(requestAttr (regionMerge (chargedRequest req))).unlockable)) hdenied rfl
    refine ⟨true, none, 0, !(requestAttr (regionMerge (chargedRequest req))).unlockable, ?_⟩
    rw [heq, hlist, hcharged]
    exact ⟨rfl, hs.region _ hb hr hfree rfl rfl mapCount⟩
  · -- a new area, or one that was merged after the file had changed its flags
    have hvflags : (if file.isSome then v.vmFlags else chargedFlags file req.vmFlags) =
        v.vmFlags := by
      split_ifs with hsome
      · rfl
      · rw [hfile.isSome_eq, Bool.not_eq_true, Option.isSome_eq_false_iff,
          Option.isNone_iff_eq_none] at hsome
        rw [hcharged]
        refine (builtArea_flags ?_ hv).symm
        unfold chargedRequest
        split_ifs
        · exact hsome
        · exact hsome
    obtain ⟨mapCount, hlist⟩ := listRegion_new mm req.addr
      (answering env (coarse maxMapCount error false none v.vmFlags !(areaAttr v).unlockable))
      hdenied rfl rfl hvflags
    refine ⟨false, none, v.vmFlags, !(areaAttr v).unlockable, ?_⟩
    rw [heq, hlist]
    exact ⟨rfl, hs.region _ hb hr hfree rfl rfl mapCount⟩

/-- MAIN: **`mmap_region`** in both models: for every outcome on the tree there are answers under
which the list model returns the same and shows the tree afterwards.
SOURCE: mm/mmap.c:2740-2996 -/
theorem mmapRegion_shows (env : MmEnv) (ans : RegionAnswers) (hdriver : DriverOk ans)
    (hlen : req.len.toNat % 4096 = 0) (hflags : isAccounted req.vmFlags = false)
    (h : Consistent as leak) (hs : Shows as mm) (hfile : SameFile req.file file) :
    ∃ c : CoarseAnswers,
      SameOutcome (Prod.map resultWord id (as.mmapRegion env ans req))
        (mmapRegion (answering env c) mm file req.addr req.len req.vmFlags) := by
  obtain ⟨cells, hholds, hacc⟩ := h.areas
  obtain ⟨error, hunmap⟩ := doVmiMunmap_shows env ans.munmap h hs req.addr req.len
  have hsame := hunmap (coarse (mm.mapCount + 1) error false none 0 true) rfl (lt_add_one _)
  have houtcome := doVmiMunmap_outcome env ans.munmap hholds req.addr req.len
  rw [pageAlign_of_mod req.len hlen] at houtcome
  rcases houtcome with heq | ⟨hr, -, hout⟩
  · -- the range is not one of pages, so whatever the limits say, the call fails
    have htree : as.mmapRegion env ans req = (.error ENOMEM, as) := by
      by_cases hlimit : regionRefused env as.toMm req.addr req.len req.vmFlags
      · exact treeRegion_refused env ans hlimit
      · exact treeRegion_kept env ans hlimit heq
    rw [heq] at hsame
    obtain ⟨mm', hmm', hs'⟩ := hsame.eq_pair
    refine ⟨coarse (mm.mapCount + 1) error false none 0 true, ?_⟩
    rw [htree]
    by_cases hlimit : regionRefused (answering env (coarse (mm.mapCount + 1) error false none 0
        true)) mm req.addr req.len req.vmFlags
    · rw [mmapRegion_refused _ _ _ hlimit]
      exact ⟨rfl, hs⟩
    · rw [mmapRegion_kept _ _ _ hlimit hmm']
      exact ⟨rfl, hs'⟩
  have hlimits : ∀ c : CoarseAnswers,
      regionRefused (answering env c) mm req.addr req.len req.vmFlags ↔
        regionRefused env as.toMm req.addr req.len req.vmFlags :=
    fun c => hs.regionRefused_iff h env c hr
  by_cases hlimit : regionRefused env as.toMm req.addr req.len req.vmFlags
  · refine ⟨coarse (mm.mapCount + 1) error false none 0 true, ?_⟩
    rw [treeRegion_refused env ans hlimit, mmapRegion_refused _ _ _ ((hlimits _).mpr hlimit)]
    exact ⟨rfl, hs⟩
  rcases hout with ⟨e, as1, cells1, heq, hsm⟩ | ⟨as1, A, M, B, heq, hun⟩
  · rw [heq] at hsame
    obtain ⟨mm', hmm', hs'⟩ := hsame.eq_pair
    refine ⟨coarse (mm.mapCount + 1) error false none 0 true, ?_⟩
    rw [treeRegion_kept env ans hlimit heq,
      mmapRegion_kept _ _ _ (fun hcon => hlimit ((hlimits _).mp hcon)) hmm']
    exact ⟨rfl, hs'⟩
  · rw [heq] at hsame
    obtain ⟨mm1, hmm1, hs1⟩ := hsame.eq_pair
    have hlock : LockOk (cellsMeaning (A ++ B)) :=
      hun.holds.meaning_eq ▸ (hun.becomes hholds hacc h.lockOk).consistent.lockOk
    obtain ⟨merges, regionError, flags, countsLocked, hregion⟩ := chargeAndMap_shows env ans hdriver
      hflags hun.holds (hacc.unmapped hholds hun) hlock hr hun.below hun.above hs1 hfile error
      (mm.mapCount + 1)
    -- unmapping does not depend on what the rest of the call is told
    have hindep : doVmiMunmap (answering env (coarse (mm.mapCount + 1) error merges regionError
        flags countsLocked)) mm req.addr req.len = (none, mm1) := hmm1
    refine ⟨coarse (mm.mapCount + 1) error merges regionError flags countsLocked, ?_⟩
    rw [treeRegion_unmapped env ans hlimit heq,
      mmapRegion_unmapped _ _ _ (fun hcon => hlimit ((hlimits _).mp hcon)) hindep]
    exact hregion

end Map

end UsacKernel.Analysis
