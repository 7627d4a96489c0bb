import UsacKernel.Model.SystemInfo

/-!
# What a memory snapshot reports

`julioz_capture_memory_snapshot` calls `si_meminfo` only, so the two members of its
`struct sysinfo` that are about swap hold what the stack held before, and they are
reported. The rest is about the state of the system: RAM always, the cached pages unless
the swap cache is ahead of the file pages, for which the test `cached < 0` of an unsigned
number does nothing.
-/

set_option autoImplicit false

namespace UsacKernel.Analysis

open UsacKernel.Computation UsacKernel.Model

/-! ## The sizes of `do_sysinfo` -/

/-- INTERNAL: for a unit that is a power of two the loop counts its exponent, unless the
total does not fit.
SOURCE: kernel/sys.c:2820-2829 -/
theorem unitBits_eq_some (k : ℕ) (memUnit : BitVec 32) (memTotal : ULong) (bitcount n : ℕ)
    (hunit : memUnit.toNat = 2 ^ k) (h : unitBits memUnit memTotal bitcount = some n) :
    n = bitcount + k ∧ memTotal.toNat * 2 ^ k < 2 ^ 64 := by
  have htotal := memTotal.isLt
  induction k generalizing memUnit memTotal bitcount with
  | zero =>
    have hone : ¬ memUnit > 1 := by
      rw [gt_iff_lt, BitVec.lt_def, hunit]
      decide
    rw [unitBits, dif_neg hone, Option.some.injEq] at h
    exact ⟨h.symm, by omega⟩
  | succ k ih =>
    have hmore : memUnit > 1 := by
      rw [gt_iff_lt, BitVec.lt_def, hunit, show (1 : BitVec 32).toNat = 1 from rfl, pow_succ]
      have hpos := Nat.two_pow_pos k
      omega
    have hhalf : (memUnit >>> 1).toNat = 2 ^ k := by
      rw [BitVec.toNat_ushiftRight, hunit, Nat.shiftRight_eq_div_pow, pow_succ]
      omega
    have hdouble : (memTotal <<< 1).toNat = memTotal.toNat * 2 % 2 ^ 64 := by
      rw [BitVec.toNat_shiftLeft, Nat.shiftLeft_eq, pow_one]
    rw [unitBits, dif_pos hmore] at h
    split_ifs at h with hwraps
    -- the doubled total is not below the total, so it did not wrap
    have hfits : memTotal.toNat * 2 < 2 ^ 64 := by
      rw [BitVec.lt_def, hdouble] at hwraps
      omega
    obtain ⟨hn, hbound⟩ := ih _ _ _ hhalf h (memTotal <<< 1).isLt
    rw [hdouble, Nat.mod_eq_of_lt hfits] at hbound
    refine ⟨by omega, ?_⟩
    rw [pow_succ, Nat.mul_comm (2 ^ k) 2, ← Nat.mul_assoc]
    exact hbound

/-- INTERNAL: whether it scales them or not, `do_sysinfo` reports the same sizes in bytes.
SOURCE: kernel/sys.c:2817-2849 -/
theorem scaleSysinfo_bytes (info : Sysinfo) (k : ℕ) (hunit : info.memUnit.toNat = 2 ^ k) :
    (scaleSysinfo info).totalram.toNat * (scaleSysinfo info).memUnit.toNat =
        info.totalram.toNat * info.memUnit.toNat ∧
      (scaleSysinfo info).totalswap.toNat * (scaleSysinfo info).memUnit.toNat =
        info.totalswap.toNat * info.memUnit.toNat := by
  unfold scaleSysinfo
  simp only
  split_ifs with hwraps
  · exact ⟨rfl, rfl⟩
  cases hbits : unitBits info.memUnit (info.totalram + info.totalswap) 0 with
  | none => exact ⟨rfl, rfl⟩
  | some n =>
    obtain ⟨hn, hbound⟩ := unitBits_eq_some k _ _ 0 n hunit hbits
    rw [Nat.zero_add] at hn
    subst hn
    have hsum : (info.totalram + info.totalswap).toNat =
        info.totalram.toNat + info.totalswap.toNat := by
      have hram := info.totalram.isLt
      have hswap := info.totalswap.isLt
      rw [BitVec.lt_def, BitVec.toNat_add] at hwraps
      rw [BitVec.toNat_add]
      omega
    rw [hsum, Nat.add_mul] at hbound
    have hshift (x : ULong) (hx : x.toNat * 2 ^ n < 2 ^ 64) :
        (x <<< n).toNat * (1 : BitVec 32).toNat = x.toNat * info.memUnit.toNat := by
      rw [hunit, BitVec.toNat_shiftLeft, Nat.shiftLeft_eq, Nat.mod_eq_of_lt hx]
      exact Nat.mul_one _
    exact ⟨hshift _ (by omega), hshift _ (by omega)⟩

/-! ## The snapshot -/

/-- INTERNAL: the snapshot arrives as it was taken, when the copy succeeds.
SOURCE: kernel/sys.c:2877-2905 -/
theorem snapshot_delivered (sys : SystemState) (dst : ULong) (previous : Sysinfo)
    (stack user : Bytes) :
    MemSnapshot.read (juliozCaptureMemorySnapshot sys dst 0 previous stack user).2 dst.toNat =
      takeSnapshot sys previous := by
  have hoffsets : memSnapshot.offset 0 = 0 ∧ memSnapshot.offset 1 = 8 ∧
      memSnapshot.offset 2 = 16 ∧ memSnapshot.offset 3 = 24 ∧ memSnapshot.offset 4 = 32 ∧
      memSnapshot.offset 5 = 40 ∧ memSnapshot.sizeof = 48 := by decide
  obtain ⟨h0, h1, h2, h3, h4, h5, hsize⟩ := hoffsets
  simp only [juliozCaptureMemorySnapshot, ne_eq, not_true_eq_false, if_false, copyToUser,
    Nat.sub_zero]
  generalize takeSnapshot sys previous = s
  have hload := load_copy_assignAll user stack dst.toNat memSnapshot.sizeof s.assignments
    (by simp [MemSnapshot.assignments, Assignment.Apart, h0, h1, h2, h3, h4, h5])
    (by simp [MemSnapshot.assignments])
    (by simp [MemSnapshot.assignments, h0, h1, h2, h3, h4, h5, hsize])
  simp only [MemSnapshot.assignments, List.forall_mem_cons] at hload
  obtain ⟨htotal, hfree, htotalSwap, hfreeSwap, hcached, hactive, -⟩ := hload
  simp only [MemSnapshot.read, MemSnapshot.assignments, htotal, hfree, htotalSwap, hfreeSwap,
    hcached, hactive]

/-- INTERNAL: a shift by two multiplies by four and loses the two highest bits. -/
theorem pagesToKb_toNat (pages : ULong) : (pagesToKb pages).toNat = 4 * (pages.toNat % 2 ^ 62) := by
  rw [pagesToKb, pageShift, BitVec.toNat_shiftLeft, Nat.shiftLeft_eq]
  omega

/-- The page counts that are reported are below `2^62`. -/
structure PageCountsBelow (sys : SystemState) : Prop where
  totalram : sys.totalram.toNat < 2 ^ 62
  freeram : sys.freeram.toNat < 2 ^ 62
  totalswap : sys.totalswap.toNat < 2 ^ 62
  freeswap : sys.freeswap.toNat < 2 ^ 62
  filePages : sys.nrFilePages.toNat < 2 ^ 62
  swapcachePages : sys.totalSwapcachePages.toNat < 2 ^ 62
  activeAnon : sys.nrActiveAnon.toNat < 2 ^ 62
  activeFile : sys.nrActiveFile.toNat < 2 ^ 62

/-- The snapshot holds, in kilobytes, the counts that `do_sysinfo` gathers, the file pages
that are not in the swap cache, and the active pages. -/
structure SnapshotExact (sys : SystemState) (s : MemSnapshot) : Prop where
  totalMemory : s.totalMemory.toNat = 4 * (gatherSysinfo sys).totalram.toNat
  freeMemory : s.freeMemory.toNat = 4 * (gatherSysinfo sys).freeram.toNat
  totalSwap : s.totalSwap.toNat = 4 * (gatherSysinfo sys).totalswap.toNat
  freeSwap : s.freeSwap.toNat = 4 * (gatherSysinfo sys).freeswap.toNat
  cachedPages : s.cachedPages.toNat =
    4 * (sys.nrFilePages.toNat - sys.totalSwapcachePages.toNat)
  activePages : s.activePages.toNat = 4 * (sys.nrActiveAnon.toNat + sys.nrActiveFile.toNat)

/-- INTERNAL: the cached pages are right exactly when the unsigned difference does not
wrap.
SOURCE: kernel/sys.c:2892-2894 -/
theorem cachedPages_iff (sys : SystemState) (previous : Sysinfo) (hpages : PageCountsBelow sys) :
    (takeSnapshot sys previous).cachedPages.toNat =
        4 * (sys.nrFilePages.toNat - sys.totalSwapcachePages.toNat) ↔
      sys.totalSwapcachePages.toNat ≤ sys.nrFilePages.toNat := by
  have hfile := hpages.filePages
  have hswapcache := hpages.swapcachePages
  have hnever : ¬ (sys.nrFilePages - sys.totalSwapcachePages < 0) := BitVec.not_lt_zero
  simp only [takeSnapshot]
  rw [if_neg hnever, pagesToKb_toNat, BitVec.toNat_sub]
  omega

/-- INTERNAL: the active pages are exact when their sum, in kilobytes, fits a word. -/
theorem activePages_iff (sys : SystemState) (previous : Sysinfo) (hpages : PageCountsBelow sys) :
    (takeSnapshot sys previous).activePages.toNat =
        4 * (sys.nrActiveAnon.toNat + sys.nrActiveFile.toNat) ↔
      sys.nrActiveAnon.toNat + sys.nrActiveFile.toNat < 2 ^ 62 := by
  have hanon := hpages.activeAnon
  have hactive := hpages.activeFile
  simp only [takeSnapshot]
  rw [pagesToKb_toNat, BitVec.toNat_add]
  omega

/-- INTERNAL: the kilobytes of a page count are those of another one when the two agree but for
the lost bits. -/
theorem pagesToKb_eq_iff (pages count : ULong) :
    (pagesToKb pages).toNat = 4 * count.toNat ↔ pages.toNat % 2 ^ 62 = count.toNat := by
  rw [pagesToKb_toNat]
  omega

/-- INTERNAL: the snapshot is exact when the stale swap fields agree with the system, the swap
cache is within the file pages, and the active pages fit. -/
theorem takeSnapshot_exact_iff (sys : SystemState) (previous : Sysinfo)
    (hpages : PageCountsBelow sys) :
    SnapshotExact sys (takeSnapshot sys previous) ↔
      previous.totalswap.toNat % 2 ^ 62 = sys.totalswap.toNat ∧
        previous.freeswap.toNat % 2 ^ 62 = sys.freeswap.toNat ∧
        sys.totalSwapcachePages.toNat ≤ sys.nrFilePages.toNat ∧
        sys.nrActiveAnon.toNat + sys.nrActiveFile.toNat < 2 ^ 62 := by
  have hcached := cachedPages_iff sys previous hpages
  have hactive := activePages_iff sys previous hpages
  have htotalSwap := pagesToKb_eq_iff previous.totalswap sys.totalswap
  have hfreeSwap := pagesToKb_eq_iff previous.freeswap sys.freeswap
  constructor
  · intro h
    exact ⟨htotalSwap.mp h.totalSwap, hfreeSwap.mp h.freeSwap, hcached.mp h.cachedPages,
      hactive.mp h.activePages⟩
  · rintro ⟨htotal, hfree, hle, hlt⟩
    exact ⟨(pagesToKb_eq_iff _ _).mpr (Nat.mod_eq_of_lt hpages.totalram),
      (pagesToKb_eq_iff _ _).mpr (Nat.mod_eq_of_lt hpages.freeram),
      htotalSwap.mpr htotal, hfreeSwap.mpr hfree, hcached.mpr hle, hactive.mpr hlt⟩

/-- INTERNAL: what a snapshot takes from the stack. -/
theorem takeSnapshot_eq_iff (sys : SystemState) (previous previous' : Sysinfo) :
    takeSnapshot sys previous = takeSnapshot sys previous' ↔
      previous.totalswap.toNat % 2 ^ 62 = previous'.totalswap.toNat % 2 ^ 62 ∧
        previous.freeswap.toNat % 2 ^ 62 = previous'.freeswap.toNat % 2 ^ 62 := by
  have hpages (x y : ULong) : pagesToKb x = pagesToKb y ↔ x.toNat % 2 ^ 62 = y.toNat % 2 ^ 62 := by
    rw [← BitVec.toNat_inj, pagesToKb_toNat, pagesToKb_toNat]
    omega
  simp only [takeSnapshot, siMeminfo, MemSnapshot.mk.injEq, hpages, true_and, and_true]

/-- MAIN: **what a memory snapshot depends on.** For page counts below `2^62` and any
previous content of the two local structs: the delivered snapshot has the values that
`do_sysinfo` gathers, the clamped cache and the sum of the active pages exactly when the
two swap members of the uninitialised `struct sysinfo` happen to hold the swap counts (in
their low 62 bits), the swap cache is not ahead of the file pages and the active pages are
below `2^62` together; two runs deliver the same snapshot exactly when their stacks agree
in those two members. The RAM size is always the one that `do_sysinfo` reports.
SOURCE: kernel/sys.c:2789-2850, 2877-2905 -/
theorem snapshot_exact_iff (sys : SystemState) (dst : ULong) (hpages : PageCountsBelow sys)
    (previous previous' : Sysinfo) (stack stack' user user' : Bytes) :
    let snapshot (previous : Sysinfo) (stack user : Bytes) : MemSnapshot :=
      MemSnapshot.read (juliozCaptureMemorySnapshot sys dst 0 previous stack user).2 dst.toNat
    (SnapshotExact sys (snapshot previous stack user) ↔
        previous.totalswap.toNat % 2 ^ 62 = sys.totalswap.toNat ∧
          previous.freeswap.toNat % 2 ^ 62 = sys.freeswap.toNat ∧
          sys.totalSwapcachePages.toNat ≤ sys.nrFilePages.toNat ∧
          sys.nrActiveAnon.toNat + sys.nrActiveFile.toNat < 2 ^ 62) ∧
      (snapshot previous stack user = snapshot previous' stack' user' ↔
        previous.totalswap.toNat % 2 ^ 62 = previous'.totalswap.toNat % 2 ^ 62 ∧
          previous.freeswap.toNat % 2 ^ 62 = previous'.freeswap.toNat % 2 ^ 62) ∧
      (sys.memUnit.toNat = pageSize →
        (snapshot previous stack user).totalMemory.toNat * 1024 =
          (doSysinfo sys).totalram.toNat * (doSysinfo sys).memUnit.toNat) := by
  intro snapshot
  have hsnapshot (previous : Sysinfo) (stack user : Bytes) :
      snapshot previous stack user = takeSnapshot sys previous :=
    snapshot_delivered sys dst previous stack user
  simp only [hsnapshot]
  refine ⟨takeSnapshot_exact_iff sys previous hpages, takeSnapshot_eq_iff sys previous previous', ?_⟩
  intro hunit
  have hbytes : (doSysinfo sys).totalram.toNat * (doSysinfo sys).memUnit.toNat =
      sys.totalram.toNat * sys.memUnit.toNat :=
    (scaleSysinfo_bytes (gatherSysinfo sys) 12 hunit).1
  have htotal : (takeSnapshot sys previous).totalMemory.toNat = 4 * sys.totalram.toNat :=
    (pagesToKb_eq_iff _ _).mpr (Nat.mod_eq_of_lt hpages.totalram)
  rw [hbytes, htotal, hunit, pageSize]
  omega

/-- A system with 2000 pages of swap and ten pages in the file cache. -/
def swappingSystem (swapcache : ULong) : SystemState where
  totalram := 100000
  freeram := 50000
  sharedram := 0
  bufferram := 0
  totalhigh := 0
  freehigh := 0
  memUnit := 4096
  totalswap := 2000
  freeswap := 1500
  nrFilePages := 10
  totalSwapcachePages := swapcache
  nrActiveAnon := 5
  nrActiveFile := 5
  bootSec := 0
  bootNsec := 0
  avenrun := fun _ => 0
  nrThreads := 1

/-- INTERNAL: two stacks, and two different amounts of swap; and a swap cache that is ahead
of the file pages. -/
theorem snapshot_reports_stack :
    let snapshot (previous : Sysinfo) : MemSnapshot :=
      MemSnapshot.read (juliozCaptureMemorySnapshot (swappingSystem 12) 4096 0 previous
        (fun _ => 0) (fun _ => 0)).2 4096
    (snapshot .zero).totalSwap = 0 ∧ (snapshot { Sysinfo.zero with totalswap := 7 }).totalSwap = 28 ∧
      (snapshot .zero).cachedPages = 0xfffffffffffffff8 := by
  intro snapshot
  have hsnapshot (previous : Sysinfo) : snapshot previous =
      takeSnapshot (swappingSystem 12) previous :=
    snapshot_delivered (swappingSystem 12) 4096 previous _ _
  simp only [hsnapshot]
  exact ⟨by decide, by decide, by decide⟩

/-- INTERNAL: a stack that happens to hold the right swap figures gives an exact snapshot. -/
theorem snapshot_exact_lucky_stack :
    SnapshotExact (swappingSystem 4)
      (MemSnapshot.read (juliozCaptureMemorySnapshot (swappingSystem 4) 4096 0
        { Sysinfo.zero with totalswap := 2000, freeswap := 1500 } (fun _ => 0) (fun _ => 0)).2
        4096) :=
  (snapshot_exact_iff (swappingSystem 4) 4096 (by constructor <;> decide)
    { Sysinfo.zero with totalswap := 2000, freeswap := 1500 } .zero (fun _ => 0) (fun _ => 0)
    (fun _ => 0) (fun _ => 0)).1.mpr ⟨by decide, by decide, by decide, by decide⟩

end UsacKernel.Analysis
