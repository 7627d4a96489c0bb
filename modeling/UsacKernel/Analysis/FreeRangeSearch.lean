import UsacKernel.Analysis.LimitEnforcement
import UsacKernel.Model.FreeRange

/-!
# What the search for a free range finds

`vm_unmapped_area` ends after at most one attempt more than there are areas. What it finds
lies between the limits, meets no area, has the requested alignment and keeps the guard gap of
the area above it. Searching upwards without an alignment it finds the lowest such range, and
fails only when there is none; searching downwards no range that keeps clear of every guard
gap lies above the one it finds.

The downward search computes `high_limit - 1`. An area that begins within its own guard gap
sets `high_limit` to zero and so opens the search to the whole 64-bit range: instead of
`-ENOMEM` it then gives the last range of that range, far outside the limits. `EndOfSpace` is
this outcome, and `GuardRoom` the condition that excludes it.
-/

set_option autoImplicit false

namespace UsacKernel.Analysis

open UsacKernel.Computation UsacKernel.Model

/-- The areas in address order, none empty. -/
abbrev InOrder (areas : List VmArea) : Prop :=
  GapSearch.Ascending (fun v : VmArea => v.vmStart.toNat) (fun v => v.vmEnd.toNat) areas

/-- `[a, a + size)` meets no area. -/
abbrev FreeAt (areas : List VmArea) (size a : ℕ) : Prop :=
  GapSearch.Fits (fun v : VmArea => v.vmStart.toNat) (fun v => v.vmEnd.toNat) size areas a

/-- Every area that grows down begins above its guard gap. -/
def GuardRoom (env : MmEnv) (areas : List VmArea) : Prop :=
  ∀ v ∈ areas, hasStartGap v = true → env.stackGuardGap.toNat < v.vmStart.toNat

/-- The areas lie in user space. -/
def InUserSpace (areas : List VmArea) : Prop :=
  ∀ v ∈ areas, v.vmEnd.toNat ≤ 2 ^ 56

/-- What a caller of `vm_unmapped_area` passes: a length, an upper limit in user space and a
mask of low bits. -/
structure SearchRequest (info : VmUnmappedAreaInfo) : Prop where
  length_pos : 0 < info.length.toNat
  high_pos : 0 < info.highLimit.toNat
  high_le : info.highLimit.toNat ≤ 2 ^ 56
  mask : ∃ k < 64, info.alignMask = lowMask 64 k

/-- Everything the search compares is a multiple of the page size. -/
structure PageSearch (env : MmEnv) (areas : List VmArea) (info : VmUnmappedAreaInfo) : Prop where
  area : ∀ v ∈ areas, v.vmStart.toNat % 4096 = 0 ∧ v.vmEnd.toNat % 4096 = 0
  guardGap : env.stackGuardGap.toNat % 4096 = 0
  minAddr : env.mmapMinAddr.toNat % 4096 = 0
  low : info.lowLimit.toNat % 4096 = 0
  length : info.length.toNat % 4096 = 0

/-- The range that `vm_unmapped_area` promises.
SOURCE: mm/mmap.c:1689-1696 -/
structure Suits (env : MmEnv) (areas : List VmArea) (info : VmUnmappedAreaInfo) (r : ULong) :
    Prop where
  low : (searchLowLimit env info).toNat ≤ r.toNat
  high : r.toNat + info.length.toNat ≤ info.highLimit.toNat
  free : FreeAt areas info.length.toNat r.toNat
  align : r &&& info.alignMask = info.alignOffset &&& info.alignMask

/-- The range ends before the guard gap of the next area above it. -/
def KeepsGuard (env : MmEnv) (areas : List VmArea) (len a : ℕ) : Prop :=
  ∀ v, GapSearch.nextOf (fun v : VmArea => v.vmStart.toNat) areas a = some v →
    a + len ≤ (vmStartGap env v).toNat

/-- The range ends before the guard gap of every area above it. -/
def KeepsAllGuards (env : MmEnv) (areas : List VmArea) (len a : ℕ) : Prop :=
  ∀ v ∈ areas, a ≤ v.vmStart.toNat → a + len ≤ (vmStartGap env v).toNat

/-! ## The parts of an attempt -/

/-- INTERNAL: the start of an area that grows down is moved down by the guard gap, but not below
zero. -/
theorem vmStartGap_toNat (env : MmEnv) (v : VmArea) :
    (vmStartGap env v).toNat =
      v.vmStart.toNat - (if hasStartGap v then env.stackGuardGap.toNat else 0) := by
  unfold vmStartGap hasStartGap
  cases hasFlag v.vmFlags VM_GROWSDOWN with
  | false => simp
  | true =>
    simp only [if_true, gt_iff_lt, BitVec.lt_def, BitVec.toNat_sub]
    split_ifs with hwrap
    · rw [show (0 : ULong).toNat = 0 from rfl]
      omega
    · rw [BitVec.toNat_sub]
      omega

/-- INTERNAL: an area that does not grow down has no gap below it. -/
theorem vmStartGap_of_not_hasStartGap {env : MmEnv} {v : VmArea} (h : hasStartGap v = false) :
    (vmStartGap env v).toNat = v.vmStart.toNat := by
  rw [vmStartGap_toNat, h]
  simp

/-- INTERNAL: the gap lies below the area. -/
theorem vmStartGap_le (env : MmEnv) (v : VmArea) :
    (vmStartGap env v).toNat ≤ v.vmStart.toNat := by
  rw [vmStartGap_toNat]
  omega

/-- INTERNAL: the last address before an end that is not zero. -/
theorem toNat_sub_one {x : ULong} (h : 0 < x.toNat) : (x - 1).toNat + 1 = x.toNat := by
  rw [BitVec.toNat_sub]
  simp only [BitVec.reduceToNat]
  omega

/-- INTERNAL: also where `x` is the last address and `x + 1` wraps. -/
theorem toNat_add_one_sub {x y : ULong} (hpos : 0 < y.toNat) (hle : y.toNat ≤ x.toNat + 1) :
    (x + 1 - y).toNat = x.toNat + 1 - y.toNat := by
  rw [BitVec.toNat_sub, BitVec.toNat_add]
  simp only [BitVec.reduceToNat]
  omega

section Attempts

variable {env : MmEnv} {areas : List VmArea} {info : VmUnmappedAreaInfo}

/-- INTERNAL: the lowest gap, as the loop asks for it. -/
theorem masEmptyArea_some {low high size index : ULong} (h : InOrder areas)
    (hhigh : 0 < high.toNat) (hr : masEmptyArea areas low (high - 1) size = some index) :
    IsLeast {a | low.toNat ≤ a ∧ a + size.toNat ≤ high.toNat ∧ FreeAt areas size.toNat a}
        index.toNat ∧
      (index = low ∨ ∃ v ∈ areas, index = v.vmEnd) := by
  unfold masEmptyArea at hr
  split_ifs at hr with hzero
  obtain ⟨r, hgap, rfl⟩ := Option.map_eq_some_iff.mp hr
  rw [toNat_sub_one hhigh] at hgap
  have hleast := GapSearch.lowestGap_isLeast h hgap
  have hsize : 0 < size.toNat := by
    rw [Nat.pos_iff_ne_zero]
    intro h0
    exact hzero (BitVec.eq_of_toNat_eq h0)
  have hbound := hleast.1.2.1
  have hmod : r % 2 ^ 64 = r := Nat.mod_eq_of_lt (by omega)
  constructor
  · rw [BitVec.toNat_ofNat, hmod]
    exact hleast
  · rcases GapSearch.lowestGap_eq_some hgap with rfl | ⟨v, hv, rfl⟩
    · exact Or.inl (by simp)
    · exact Or.inr ⟨v, hv, by simp⟩

/-- INTERNAL: the tree search upwards gives up only when no place within the limits is free. -/
theorem masEmptyArea_none {low high size : ULong} (h : InOrder areas) (hsize : 0 < size.toNat)
    (hhigh : 0 < high.toNat) (hr : masEmptyArea areas low (high - 1) size = none) :
    ∀ a, low.toNat ≤ a → a + size.toNat ≤ high.toNat → ¬ FreeAt areas size.toNat a := by
  unfold masEmptyArea at hr
  have hzero : size ≠ 0 := by
    rintro rfl
    exact absurd hsize (by simp)
  rw [if_neg hzero, Option.map_eq_none_iff, toNat_sub_one hhigh] at hr
  exact GapSearch.lowestGap_eq_none h hr

/-- INTERNAL: the highest gap, as the loop asks for it; `last` is its last byte. -/
theorem masEmptyAreaRev_some {low max size last : ULong} (h : InOrder areas)
    (hr : masEmptyAreaRev areas low max size = some last) :
    size.toNat ≤ last.toNat + 1 ∧
      IsGreatest {a | low.toNat ≤ a ∧ a + size.toNat ≤ max.toNat + 1 ∧ FreeAt areas size.toNat a}
        (last.toNat + 1 - size.toNat) := by
  unfold masEmptyAreaRev at hr
  split_ifs at hr with hzero
  obtain ⟨stop, hgap, rfl⟩ := Option.map_eq_some_iff.mp hr
  have hsize : 0 < size.toNat := by
    rw [Nat.pos_iff_ne_zero]
    intro h0
    exact hzero (BitVec.eq_of_toNat_eq h0)
  obtain ⟨hle, hgreatest⟩ := GapSearch.highestGap_isGreatest hsize h
    (fun v _ => v.vmEnd.isLt.le) max.isLt hgap
  have hbound := hgreatest.1.2.1
  have hmod : (stop - 1) % 2 ^ 64 + 1 = stop := by
    rw [Nat.mod_eq_of_lt (by omega)]
    omega
  rw [BitVec.toNat_ofNat, hmod]
  exact ⟨hle, hgreatest⟩

/-- INTERNAL: no gap is found only where there is none. -/
theorem masEmptyAreaRev_none {low max size : ULong} (h : InOrder areas) (hsize : 0 < size.toNat)
    (hr : masEmptyAreaRev areas low max size = none) :
    ∀ a, low.toNat ≤ a → a + size.toNat ≤ max.toNat + 1 → ¬ FreeAt areas size.toNat a := by
  unfold masEmptyAreaRev at hr
  have hzero : size ≠ 0 := by
    rintro rfl
    exact absurd hsize (by simp)
  rw [if_neg hzero, Option.map_eq_none_iff] at hr
  exact GapSearch.highestGap_eq_none h (fun v _ => v.vmEnd.isLt.le) max.isLt hr

/-- INTERNAL: above user space everything is free, so the highest gap of the whole 64-bit range
ends with it. -/
theorem masEmptyAreaRev_whole {low size : ULong} (h : InOrder areas) (huser : InUserSpace areas)
    (hsize : 0 < size.toNat) (hlow : low.toNat + size.toNat ≤ 2 ^ 56) :
    masEmptyAreaRev areas low (0 - 1) size = some (0 - 1) := by
  have hmax : ((0 : ULong) - 1).toNat + 1 = 2 ^ 64 := by decide
  have htop : FreeAt areas size.toNat (2 ^ 64 - size.toNat) := by
    intro v hv
    have hend := huser v hv
    show _ ∨ v.vmEnd.toNat ≤ _
    omega
  cases hempty : masEmptyAreaRev areas low (0 - 1) size with
  | none =>
    refine absurd htop (masEmptyAreaRev_none h hsize hempty _ (by omega) ?_)
    rw [hmax]
    omega
  | some last =>
    obtain ⟨hle, -, hgreatest⟩ := masEmptyAreaRev_some h hempty
    have hlast : 2 ^ 64 - size.toNat ≤ last.toNat + 1 - size.toNat :=
      hgreatest ⟨by omega, by rw [hmax]; omega, htop⟩
    have hlt := last.isLt
    exact congrArg some (BitVec.eq_of_toNat_eq (by omega))

/-- INTERNAL: a free place lies below or above each area. -/
theorem FreeAt.clear {size a : ℕ} (h : FreeAt areas size a) {v : VmArea} (hv : v ∈ areas) :
    a + size ≤ v.vmStart.toNat ∨ v.vmEnd.toNat ≤ a :=
  h v hv

/-- INTERNAL: an address of the same gap has the same area above it. -/
theorem masNext_of_mem_gap {size a b : ℕ} (h : InOrder areas) (hfree : FreeAt areas size a)
    (hle : a ≤ b) (hlt : b ≤ a + size) :
    GapSearch.nextOf (fun v : VmArea => v.vmStart.toNat) areas b =
      GapSearch.nextOf (fun v : VmArea => v.vmStart.toNat) areas a := by
  refine GapSearch.nextOf_congr fun v hv => ?_
  have hne := h.nonempty v hv
  have hv' := FreeAt.clear hfree hv
  omega

/-- INTERNAL: part of a free range is free. -/
theorem FreeAt.mono {size size' a b : ℕ} (h : FreeAt areas size a) (hle : a ≤ b)
    (hend : b + size' ≤ a + size) : FreeAt areas size' b := by
  intro v hv
  have hv' := FreeAt.clear h hv
  show b + size' ≤ v.vmStart.toNat ∨ v.vmEnd.toNat ≤ b
  omega

/-- INTERNAL: the area below the gap never sends the search back. -/
theorem masPrev_le {index gap : ULong} {tmp : VmArea} (h : masPrev areas index = some tmp)
    (hgap : index.toNat ≤ gap.toNat) : ¬ vmEndGap tmp > gap := by
  have hend := (GapSearch.prevOf_eq_some h).2
  rw [vmEndGap, gt_iff_lt, BitVec.lt_def]
  omega

end Attempts

/-! ## Searching upwards -/

section Upwards

variable {env : MmEnv} {areas : List VmArea} {info : VmUnmappedAreaInfo}

/-- A gap that the upward search cannot pass by: it has room for the length and the alignment,
and the guard gap above it leaves room for the alignment once more. -/
structure RoomUp (env : MmEnv) (areas : List VmArea) (info : VmUnmappedAreaInfo) (a : ℕ) :
    Prop where
  low : (searchLowLimit env info).toNat ≤ a
  high : a + (info.length.toNat + info.alignMask.toNat) ≤ info.highLimit.toNat
  free : FreeAt areas (info.length.toNat + info.alignMask.toNat) a
  guard : ∀ v, GapSearch.nextOf (fun v : VmArea => v.vmStart.toNat) areas a = some v →
    hasStartGap v = true →
      a + (info.length.toNat + info.alignMask.toNat) + info.alignMask.toNat ≤
        (vmStartGap env v).toNat

/-- What `unmapped_area` answers. -/
def UpResult (env : MmEnv) (areas : List VmArea) (info : VmUnmappedAreaInfo) (r : ULong) : Prop :=
  (r = ENOMEM.ptr ∧ ∀ a, ¬ RoomUp env areas info a) ∨
    Suits env areas info r ∧
      (PageSearch env areas info → KeepsGuard env areas info.length.toNat r.toNat) ∧
      (PageSearch env areas info → info.alignMask.toNat = 0 → r.toNat % 4096 = 0) ∧
      ∀ a, RoomUp env areas info a → r.toNat ≤ a + info.alignMask.toNat

/-- The invariant at `retry:`: no gap has been passed by. -/
structure UpInv (env : MmEnv) (areas : List VmArea) (info : VmUnmappedAreaInfo)
    (lowLimit : ULong) : Prop where
  low : (searchLowLimit env info).toNat ≤ lowLimit.toNat
  room : ∀ a, RoomUp env areas info a → lowLimit.toNat ≤ a
  page : PageSearch env areas info → lowLimit.toNat % 4096 = 0

/-- INTERNAL: the address that the upward search computes from a gap. -/
theorem alignedUp_toNat (k : ℕ) (index offset : ULong)
    (hroom : index.toNat + (lowMask 64 k).toNat < 2 ^ 64) :
    index.toNat ≤ (index + ((offset - index) &&& lowMask 64 k)).toNat ∧
      (index + ((offset - index) &&& lowMask 64 k)).toNat ≤
        index.toNat + (lowMask 64 k).toNat := by
  have hle : ((offset - index) &&& lowMask 64 k).toNat ≤ (lowMask 64 k).toNat := by
    rw [BitVec.toNat_and]
    exact Nat.and_le_right
  rw [BitVec.toNat_add, Nat.mod_eq_of_lt (by omega)]
  omega

/-- INTERNAL: one attempt of the upward search finds a range or passes by no gap. -/
theorem unmappedAreaAttempt_meets (h : InOrder areas) (hreq : SearchRequest info) {length : ULong}
    (hlength : length.toNat = info.length.toNat + info.alignMask.toNat) (low : ULong)
    (hinv : UpInv env areas info low) :
    (unmappedAreaAttempt env areas info length low).Meets (UpInv env areas info)
      (fun low => areas.countP (fun v => decide (low < v.vmEnd))) (UpResult env areas info)
      (areas.countP (fun v => decide (low < v.vmEnd))) := by
  have hpos := hreq.length_pos
  have hhigh := hreq.high_le
  unfold unmappedAreaAttempt
  cases hempty : masEmptyArea areas low (info.highLimit - 1) length with
  | none =>
    refine Or.inl ⟨rfl, fun a ha => ?_⟩
    refine masEmptyArea_none h (by omega) hreq.high_pos hempty a (hinv.room a ha) ?_ ?_
    · rw [hlength]
      exact ha.high
    · rw [hlength]
      exact ha.free
  | some index =>
    obtain ⟨⟨⟨hlow, hend, hfree⟩, hleast⟩, hindex⟩ := masEmptyArea_some h hreq.high_pos hempty
    obtain ⟨k, hk, hmask⟩ := hreq.mask
    have hgap := alignedUp_toNat k index info.alignOffset (by rw [← hmask]; omega)
    rw [← hmask] at hgap
    have hfirst : ∀ a, RoomUp env areas info a → index.toNat ≤ a := by
      intro a ha
      refine hleast ⟨hinv.room a ha, ?_, ?_⟩
      · rw [hlength]
        exact ha.high
      · rw [hlength]
        exact ha.free
    set gap := index + ((info.alignOffset - index) &&& info.alignMask) with hdef
    have hnext := masNext_of_mem_gap h hfree hgap.1 (by omega)
    have hsuits : Suits env areas info gap :=
      { low := by have := hinv.low; omega
        high := by omega
        free := hfree.mono hgap.1 (by omega)
        align := by
          rw [hdef, hmask]
          exact add_distance_and_lowMask k hk index info.alignOffset }
    have hpage : PageSearch env areas info → index.toNat % 4096 = 0 := by
      intro hp
      rcases hindex with rfl | ⟨v, hv, rfl⟩
      · exact hinv.page hp
      · exact (hp.area v hv).2
    -- the answer, once the guard gap above is known to be kept
    have hdone : (PageSearch env areas info → KeepsGuard env areas info.length.toNat gap.toNat) →
        UpResult env areas info gap := by
      intro hguard
      refine Or.inr ⟨hsuits, hguard, fun hp hzero => ?_, fun a ha => ?_⟩
      · have hidx := hpage hp
        omega
      · have hle := hfirst a ha
        omega
    dsimp only
    cases hfilter : (masNext areas index).filter hasStartGap with
    | some tmp =>
      obtain ⟨htmp, hgrow⟩ := Option.filter_eq_some_iff.mp hfilter
      obtain ⟨hmem, habove⟩ := GapSearch.nextOf_eq_some htmp
      have hne := h.nonempty tmp hmem
      have htest : (gap + length - 1).toNat = gap.toNat + length.toNat - 1 := by
        rw [BitVec.toNat_sub, BitVec.toNat_add]
        simp only [BitVec.reduceToNat]
        omega
      dsimp only
      split_ifs with hguard
      · -- the guard gap is in the way: go on behind the area
        rw [BitVec.lt_def, htest] at hguard
        refine ⟨⟨by have := hinv.low; omega, fun a ha => ?_, fun hp => (hp.area tmp hmem).2⟩, ?_⟩
        · have hle := hfirst a ha
          have hclear := FreeAt.clear ha.free hmem
          by_contra hlt
          have hsame : GapSearch.nextOf (fun v : VmArea => v.vmStart.toNat) areas a = some tmp := by
            rw [← htmp]
            refine GapSearch.nextOf_congr fun v hv => ⟨fun hv' => by omega, fun hv' => ?_⟩
            have := h.nextOf_le htmp hv hv'
            omega
          have := ha.guard tmp hsame hgrow
          omega
        · refine countP_lt_countP hmem (decide_eq_true ?_) (decide_eq_false ?_) ?_
          · rw [BitVec.lt_def]
            omega
          · exact BitVec.lt_irrefl _
          · intro v _ hv
            have hv := of_decide_eq_true hv
            rw [BitVec.lt_def] at hv
            refine decide_eq_true ?_
            rw [BitVec.lt_def]
            omega
      · rw [BitVec.lt_def, htest] at hguard
        refine hdone fun hp v hv => ?_
        rw [hnext, ← masNext, htmp, Option.some.injEq] at hv
        subst hv
        -- the test leaves one byte open, which page alignment closes
        have hstart := (hp.area tmp hmem).1
        have hgapsize := hp.guardGap
        have hlen := hp.length
        have hidx := hpage hp
        rw [vmStartGap_toNat, if_pos hgrow] at hguard ⊢
        by_cases hm : info.alignMask.toNat = 0
        · omega
        · omega
    | none =>
      have hguard : PageSearch env areas info →
          KeepsGuard env areas info.length.toNat gap.toNat := by
        intro _ v hv
        rw [hnext] at hv
        obtain ⟨hmem, habove⟩ := GapSearch.nextOf_eq_some hv
        have hne := h.nonempty v hmem
        have hclear := FreeAt.clear hfree hmem
        have hnogap : hasStartGap v = false := by
          by_contra hcon
          rw [masNext, hv, Option.filter_some_pos (by simpa using hcon)] at hfilter
          cases hfilter
        rw [vmStartGap_of_not_hasStartGap hnogap]
        omega
      dsimp only
      cases hprev : masPrev areas index with
      | none => exact hdone hguard
      | some tmp =>
        dsimp only
        rw [if_neg (masPrev_le hprev hgap.1)]
        exact hdone hguard

/-- INTERNAL: `unmapped_area` as a whole. -/
theorem unmappedArea_result (env : MmEnv) (h : InOrder areas) (hreq : SearchRequest info) :
    ∃ r, unmappedArea env areas info = some r ∧ UpResult env areas info r := by
  unfold unmappedArea
  dsimp only
  split_ifs with hwrap
  · -- the length and the alignment together exceed the range
    refine ⟨_, rfl, Or.inl ⟨rfl, fun a ha => ?_⟩⟩
    rw [BitVec.lt_def, BitVec.toNat_add] at hwrap
    have hhigh := ha.high
    have hle := hreq.high_le
    omega
  · have hlength : (info.length + info.alignMask).toNat =
        info.length.toNat + info.alignMask.toNat := by
      rw [BitVec.lt_def, BitVec.toNat_add] at hwrap
      rw [BitVec.toNat_add]
      omega
    refine retry_spec (unmappedAreaAttempt_meets h hreq hlength) _ _ ⟨le_rfl, ?_, ?_⟩ ?_
    · exact fun a ha => ha.low
    · intro hp
      unfold searchLowLimit
      split_ifs
      · exact hp.minAddr
      · exact hp.low
    · exact Nat.lt_succ_of_le List.countP_le_length

end Upwards

/-! ## Searching downwards -/

section Downwards

variable {env : MmEnv} {areas : List VmArea} {info : VmUnmappedAreaInfo}

/-- A gap that the downward search cannot pass by: it keeps clear of every guard gap. -/
structure RoomDown (env : MmEnv) (areas : List VmArea) (info : VmUnmappedAreaInfo) (a : ℕ) :
    Prop where
  low : (searchLowLimit env info).toNat ≤ a
  high : a + (info.length.toNat + info.alignMask.toNat) ≤ info.highLimit.toNat
  free : FreeAt areas (info.length.toNat + info.alignMask.toNat) a
  guard : KeepsAllGuards env areas (info.length.toNat + info.alignMask.toNat) a

/-- What the downward search gives once it has set `high_limit` to zero: the last range with
the length and the alignment of the 64-bit range. An area begins within its own guard gap, and
there was nothing to find. -/
structure EndOfSpace (env : MmEnv) (areas : List VmArea) (info : VmUnmappedAreaInfo) (r : ULong) :
    Prop where
  guard : ¬ GuardRoom env areas
  nothing : ∀ a, ¬ RoomDown env areas info a
  inside : r.toNat + info.length.toNat ≤ 2 ^ 64
  last : 2 ^ 64 ≤ r.toNat + (info.length.toNat + info.alignMask.toNat)
  outside : info.highLimit.toNat < r.toNat

/-- What `unmapped_area_topdown` answers. -/
def DownResult (env : MmEnv) (areas : List VmArea) (info : VmUnmappedAreaInfo) (r : ULong) :
    Prop :=
  (r = ENOMEM.ptr ∧ ∀ a, ¬ RoomDown env areas info a) ∨
    (Suits env areas info r ∧ KeepsGuard env areas info.length.toNat r.toNat ∧
      ∀ a, RoomDown env areas info a → a ≤ r.toNat) ∨
    EndOfSpace env areas info r

/-- The invariant at `retry:`: no gap has been passed by. -/
structure DownInv (env : MmEnv) (areas : List VmArea) (info : VmUnmappedAreaInfo)
    (highLimit : ULong) : Prop where
  pos : 0 < highLimit.toNat
  high : highLimit.toNat ≤ info.highLimit.toNat
  room : ∀ a, RoomDown env areas info a →
    a + (info.length.toNat + info.alignMask.toNat) ≤ highLimit.toNat

/-- The state at `retry:` after a guard gap that reaches down to address zero. -/
structure DownWrapped (env : MmEnv) (areas : List VmArea) (info : VmUnmappedAreaInfo)
    (highLimit : ULong) : Prop where
  zero : highLimit = 0
  guard : ¬ GuardRoom env areas
  nothing : ∀ a, ¬ RoomDown env areas info a
  fits : (searchLowLimit env info).toNat + (info.length.toNat + info.alignMask.toNat) ≤ 2 ^ 56

/-- INTERNAL: the address that the downward search computes from the last byte of a gap. -/
theorem alignedDown_toNat (k : ℕ) (last length offset : ULong) (hlength : 0 < length.toNat)
    (hroom : length.toNat + (lowMask 64 k).toNat ≤ last.toNat + 1) :
    (last + 1 - length - ((last + 1 - length - offset) &&& lowMask 64 k)).toNat +
        length.toNat ≤ last.toNat + 1 ∧
      last.toNat + 1 ≤
        (last + 1 - length - ((last + 1 - length - offset) &&& lowMask 64 k)).toNat +
          (length.toNat + (lowMask 64 k).toNat) := by
  have hle : ((last + 1 - length - offset) &&& lowMask 64 k).toNat ≤ (lowMask 64 k).toNat := by
    rw [BitVec.toNat_and]
    exact Nat.and_le_right
  have hgap := toNat_add_one_sub hlength (by omega : length.toNat ≤ last.toNat + 1)
  generalize ((last + 1 - length - offset) &&& lowMask 64 k) = shift at hle ⊢
  rw [BitVec.toNat_sub, hgap]
  omega

/-- INTERNAL: one attempt of the downward search finds a range, passes by no gap or comes to a
guard gap that reaches down to address zero. -/
theorem unmappedAreaTopdownAttempt_meets (h : InOrder areas) (hreq : SearchRequest info)
    {length : ULong} (hlength : length.toNat = info.length.toNat + info.alignMask.toNat)
    (high : ULong) (hinv : DownInv env areas info high) :
    (unmappedAreaTopdownAttempt env areas info length high).Meets
      (fun high => DownInv env areas info high ∨ DownWrapped env areas info high)
      (fun high => areas.countP (fun v => decide (vmStartGap env v < high)))
      (DownResult env areas info) (areas.countP (fun v => decide (vmStartGap env v < high))) := by
  have hpos := hreq.length_pos
  have hhigh := hreq.high_le
  have hhigh' := hinv.high
  have hmax := toNat_sub_one hinv.pos
  unfold unmappedAreaTopdownAttempt
  cases hempty : masEmptyAreaRev areas (searchLowLimit env info) (high - 1) length with
  | none =>
    refine Or.inl ⟨rfl, fun a ha => ?_⟩
    refine masEmptyAreaRev_none h (by omega) hempty a ha.low ?_ ?_
    · rw [hmax, hlength]
      exact hinv.room a ha
    · rw [hlength]
      exact ha.free
  | some last =>
    obtain ⟨hsize, ⟨hlow, hend, hfree⟩, hgreatest⟩ := masEmptyAreaRev_some h hempty
    rw [hmax] at hend
    obtain ⟨k, hk, hmask⟩ := hreq.mask
    have hgap := alignedDown_toNat k last info.length info.alignOffset hpos
      (by rw [← hmask]; omega)
    rw [← hmask] at hgap
    have hlastRoom : ∀ a, RoomDown env areas info a →
        a ≤ last.toNat + 1 - length.toNat := by
      intro a ha
      refine hgreatest ⟨ha.low, ?_, ?_⟩
      · rw [hmax, hlength]
        exact hinv.room a ha
      · rw [hlength]
        exact ha.free
    set gap := last + 1 - info.length - ((last + 1 - info.length - info.alignOffset) &&&
      info.alignMask) with hdef
    have hnext : GapSearch.nextOf (fun v : VmArea => v.vmStart.toNat) areas gap.toNat =
        masNext areas last := by
      rw [masNext, masNext_of_mem_gap h hfree (b := gap.toNat) (by omega) (by omega),
        masNext_of_mem_gap h hfree (b := last.toNat) (by omega) (by omega)]
    have hsuits : Suits env areas info gap :=
      { low := by omega
        high := by omega
        free := hfree.mono (by omega) (by omega)
        align := by
          rw [hdef, hmask]
          exact sub_distance_and_lowMask k hk (last + 1 - info.length) info.alignOffset }
    have hdone : KeepsGuard env areas info.length.toNat gap.toNat →
        DownResult env areas info gap := by
      intro hguard
      refine Or.inr (Or.inl ⟨hsuits, hguard, fun a ha => ?_⟩)
      have hle := hlastRoom a ha
      omega
    dsimp only
    cases hfilter : (masNext areas last).filter hasStartGap with
    | some tmp =>
      obtain ⟨htmp, hgrow⟩ := Option.filter_eq_some_iff.mp hfilter
      obtain ⟨hmem, habove⟩ := GapSearch.nextOf_eq_some htmp
      dsimp only
      split_ifs with hguard
      · -- the guard gap is in the way: go on below it, if anything is below it
        rw [BitVec.le_def] at hguard
        have hbelow : ∀ a, RoomDown env areas info a →
            a + (info.length.toNat + info.alignMask.toNat) ≤ (vmStartGap env tmp).toNat := by
          intro a ha
          have hle := hlastRoom a ha
          exact ha.guard tmp hmem (by omega)
        refine ⟨?_, ?_⟩
        · by_cases hzero : vmStartGap env tmp = 0
          · have hstart : (vmStartGap env tmp).toNat = 0 := by rw [hzero]; rfl
            refine Or.inr ⟨hzero, fun hroom => ?_, fun a ha => ?_, by omega⟩
            · have hlt := hroom tmp hmem hgrow
              rw [vmStartGap_toNat, if_pos hgrow] at hstart
              omega
            · have hle := hbelow a ha
              omega
          · have hstart : 0 < (vmStartGap env tmp).toNat :=
              Nat.pos_of_ne_zero (fun h0 => hzero (BitVec.eq_of_toNat_eq h0))
            exact Or.inl ⟨hstart, by omega, hbelow⟩
        · refine countP_lt_countP hmem (decide_eq_true ?_) (decide_eq_false ?_) ?_
          · rw [BitVec.lt_def]
            omega
          · exact BitVec.lt_irrefl _
          · intro v _ hv
            have hv := of_decide_eq_true hv
            rw [BitVec.lt_def] at hv
            refine decide_eq_true ?_
            rw [BitVec.lt_def]
            omega
      · rw [BitVec.le_def] at hguard
        refine hdone fun v hv => ?_
        rw [hnext, htmp, Option.some.injEq] at hv
        subst hv
        omega
    | none =>
      have hguard : KeepsGuard env areas info.length.toNat gap.toNat := by
        intro v hv
        rw [hnext] at hv
        obtain ⟨hmem, habove⟩ := GapSearch.nextOf_eq_some hv
        have hne := h.nonempty v hmem
        have hclear := FreeAt.clear hfree hmem
        have hnogap : hasStartGap v = false := by
          by_contra hcon
          rw [hv, Option.filter_some_pos (by simpa using hcon)] at hfilter
          cases hfilter
        rw [vmStartGap_of_not_hasStartGap hnogap]
        omega
      have hindex := toNat_add_one_sub (by omega : 0 < length.toNat) hsize
      dsimp only
      cases hprev : masPrev areas (last + 1 - length) with
      | none => exact hdone hguard
      | some tmp =>
        have hkeep : ¬ vmEndGap tmp > gap := masPrev_le hprev (by omega)
        dsimp only
        rw [if_neg hkeep]
        exact hdone hguard

/-- INTERNAL: with `high_limit` at zero the attempt finds the end of the 64-bit range. -/
theorem unmappedAreaTopdownAttempt_wrapped (h : InOrder areas) (huser : InUserSpace areas)
    (hreq : SearchRequest info) {length : ULong}
    (hlength : length.toNat = info.length.toNat + info.alignMask.toNat) {high : ULong}
    (hinv : DownWrapped env areas info high) :
    ∃ r, unmappedAreaTopdownAttempt env areas info length high = .done r ∧
      EndOfSpace env areas info r := by
  have hpos := hreq.length_pos
  have hhigh := hreq.high_le
  have hfits := hinv.fits
  have hlast : ((0 : ULong) - 1).toNat + 1 = 2 ^ 64 := by decide
  obtain ⟨k, -, hmask⟩ := hreq.mask
  have hgap := alignedDown_toNat k (0 - 1) info.length info.alignOffset hpos
    (by rw [← hmask]; omega)
  rw [← hmask, hlast] at hgap
  have hempty := masEmptyAreaRev_whole h huser (by omega : 0 < length.toNat)
    (by omega : (searchLowLimit env info).toNat + length.toNat ≤ 2 ^ 56)
  have hnext : masNext areas (0 - 1) = none := by
    cases hnext : masNext areas (0 - 1) with
    | none => rfl
    | some v =>
      obtain ⟨hmem, habove⟩ := GapSearch.nextOf_eq_some hnext
      have hne := h.nonempty v hmem
      have hend := huser v hmem
      omega
  unfold unmappedAreaTopdownAttempt
  rw [hinv.zero, hempty]
  dsimp only
  rw [hnext, Option.filter_none]
  set gap := 0 - 1 + 1 - info.length - ((0 - 1 + 1 - info.length - info.alignOffset) &&&
    info.alignMask) with hdef
  have hend : EndOfSpace env areas info gap :=
    ⟨hinv.guard, hinv.nothing, hgap.1, hgap.2, by omega⟩
  have hindex := toNat_add_one_sub (x := 0 - 1) (by omega : 0 < length.toNat) (by omega)
  cases hprev : masPrev areas (0 - 1 + 1 - length) with
  | none => exact ⟨gap, rfl, hend⟩
  | some tmp =>
    have hkeep : ¬ vmEndGap tmp > gap := masPrev_le hprev (by omega)
    dsimp only
    rw [if_neg hkeep]
    exact ⟨gap, rfl, hend⟩

/-- INTERNAL: `unmapped_area_topdown` as a whole. -/
theorem unmappedAreaTopdown_result (env : MmEnv) (h : InOrder areas) (huser : InUserSpace areas)
    (hreq : SearchRequest info) :
    ∃ r, unmappedAreaTopdown env areas info = some r ∧ DownResult env areas info r := by
  unfold unmappedAreaTopdown
  dsimp only
  split_ifs with hwrap
  · refine ⟨_, rfl, Or.inl ⟨rfl, fun a ha => ?_⟩⟩
    rw [BitVec.lt_def, BitVec.toNat_add] at hwrap
    have hhigh := ha.high
    have hle := hreq.high_le
    omega
  · have hlength : (info.length + info.alignMask).toNat =
        info.length.toNat + info.alignMask.toNat := by
      rw [BitVec.lt_def, BitVec.toNat_add] at hwrap
      rw [BitVec.toNat_add]
      omega
    have hstep : ∀ high, DownInv env areas info high ∨ DownWrapped env areas info high →
        (unmappedAreaTopdownAttempt env areas info (info.length + info.alignMask) high).Meets
          (fun high => DownInv env areas info high ∨ DownWrapped env areas info high)
          (fun high => areas.countP (fun v => decide (vmStartGap env v < high)))
          (DownResult env areas info)
          (areas.countP (fun v => decide (vmStartGap env v < high))) := by
      rintro high (hinv | hinv)
      · exact unmappedAreaTopdownAttempt_meets h hreq hlength high hinv
      · obtain ⟨r, hr, hend⟩ := unmappedAreaTopdownAttempt_wrapped h huser hreq hlength hinv
        rw [hr]
        exact Or.inr (Or.inr hend)
    refine retry_spec hstep _ _ (Or.inl ⟨hreq.high_pos, le_rfl, fun a ha => ha.high⟩) ?_
    exact Nat.lt_succ_of_le List.countP_le_length

/-- INTERNAL: whatever an attempt answers is free, wherever the areas lie. -/
theorem unmappedAreaTopdownAttempt_free (h : InOrder areas) (hreq : SearchRequest info)
    {length : ULong} (hlength : length.toNat = info.length.toNat + info.alignMask.toNat)
    {high r : ULong} (hr : unmappedAreaTopdownAttempt env areas info length high = .done r) :
    r = ENOMEM.ptr ∨ FreeAt areas info.length.toNat r.toNat := by
  unfold unmappedAreaTopdownAttempt at hr
  cases hempty : masEmptyAreaRev areas (searchLowLimit env info) (high - 1) length with
  | none =>
    rw [hempty] at hr
    exact Or.inl (Attempt.done.inj hr).symm
  | some last =>
    obtain ⟨hsize, ⟨-, -, hfree⟩, -⟩ := masEmptyAreaRev_some h hempty
    obtain ⟨k, -, hmask⟩ := hreq.mask
    have hgap := alignedDown_toNat k last info.length info.alignOffset hreq.length_pos
      (by rw [← hmask]; omega)
    rw [← hmask] at hgap
    rw [hempty] at hr
    dsimp only at hr
    have hdone : r = last + 1 - info.length -
        ((last + 1 - info.length - info.alignOffset) &&& info.alignMask) := by
      split at hr
      · split_ifs at hr
        exact (Attempt.done.inj hr).symm
      · split at hr
        · split_ifs at hr
          exact (Attempt.done.inj hr).symm
        · exact (Attempt.done.inj hr).symm
    rw [← hdone] at hgap
    exact Or.inr (hfree.mono (by omega) (by omega))

/-- INTERNAL: so is what `unmapped_area_topdown` answers, if it ends. -/
theorem unmappedAreaTopdown_free (h : InOrder areas) (hreq : SearchRequest info) {r : ULong}
    (hr : unmappedAreaTopdown env areas info = some r) :
    r = ENOMEM.ptr ∨ FreeAt areas info.length.toNat r.toNat := by
  unfold unmappedAreaTopdown at hr
  dsimp only at hr
  split_ifs at hr with hwrap
  · exact Or.inl (Option.some.inj hr).symm
  · have hlength : (info.length + info.alignMask).toNat =
        info.length.toNat + info.alignMask.toNat := by
      rw [BitVec.lt_def, BitVec.toNat_add] at hwrap
      rw [BitVec.toNat_add]
      omega
    obtain ⟨high, hdone⟩ := retry_eq_some hr
    exact unmappedAreaTopdownAttempt_free h hreq hlength hdone

end Downwards

/-! ## The contract of `vm_unmapped_area` -/

section Contract

variable {env : MmEnv} {areas : List VmArea} {info : VmUnmappedAreaInfo}

/-- The places that a search without alignment is for. -/
structure Place (env : MmEnv) (areas : List VmArea) (info : VmUnmappedAreaInfo) (a : ℕ) :
    Prop where
  low : (searchLowLimit env info).toNat ≤ a
  high : a + info.length.toNat ≤ info.highLimit.toNat
  free : FreeAt areas info.length.toNat a
  guard : KeepsGuard env areas info.length.toNat a

/-- INTERNAL: a place that suits a search without alignment is one that its first step can find.
-/
theorem Place.roomUp {a : ℕ} (hmask : info.alignMask = 0) (h : Place env areas info a) :
    RoomUp env areas info a := by
  have hzero : info.alignMask.toNat = 0 := by rw [hmask]; rfl
  refine ⟨h.low, ?_, ?_, fun v hv _ => ?_⟩
  · rw [hzero]
    exact h.high
  · rw [hzero]
    exact h.free
  · rw [hzero]
    exact h.guard v hv

/-- A heap low in the address space and a stack at its top. -/
def stackAreas : List VmArea :=
  [⟨0x555555000000, 0x555555010000, VM_READ ||| VM_WRITE⟩,
    ⟨0x7ffffff00000, 0x7ffffff20000, VM_READ ||| VM_WRITE ||| VM_GROWSDOWN⟩]

/-- INTERNAL: the heap and the stack of the examples are in order. -/
theorem stackAreas_inOrder : InOrder stackAreas := by
  constructor
  · decide
  · decide

/-- INTERNAL: the heap and the stack of the examples are in user space. -/
theorem stackAreas_inUserSpace : InUserSpace stackAreas := by
  unfold InUserSpace
  decide

/-- A stack that has grown down to within its guard gap of address zero. -/
def lowStack : List VmArea := [⟨0x20000, 0x7fffffe00000, VM_READ ||| VM_WRITE ||| VM_GROWSDOWN⟩]

/-- A search for one page below the top of that stack. -/
def pageBelow : VmUnmappedAreaInfo where
  topdown := true
  length := 0x1000
  lowLimit := 0x1000
  highLimit := 0x7fffffe00000
  alignMask := 0
  alignOffset := 0

/-- INTERNAL: the exceptional case does occur. The only gap between the limits lies in the guard
gap of the stack, and the answer is the last page of the 64-bit range instead of `-ENOMEM`.
SOURCE: mm/mmap.c:1669-1676 -/
theorem vmUnmappedArea_lowStack :
    vmUnmappedArea quietEnv lowStack pageBelow = some 0xfffffffffffff000 ∧
      ¬ Suits quietEnv lowStack pageBelow 0xfffffffffffff000 ∧ ¬ GuardRoom quietEnv lowStack := by
  refine ⟨by decide, fun hsuits => absurd hsuits.high (by decide), ?_⟩
  unfold GuardRoom
  decide

/-- MAIN: **searching upwards finds the lowest place**, and fails only when there is none.
SOURCE: mm/mmap.c:1594-1634 -/
theorem vmUnmappedArea_lowest (h : InOrder areas) (hreq : SearchRequest info)
    (hpage : PageSearch env areas info) (hup : info.topdown = false) (hmask : info.alignMask = 0) :
    ∃ r, vmUnmappedArea env areas info = some r ∧
      ((r = ENOMEM.ptr ∧ ∀ a, ¬ Place env areas info a) ∨
        IsLeast {a | Place env areas info a} r.toNat) := by
  have hzero : info.alignMask.toNat = 0 := by rw [hmask]; rfl
  obtain ⟨r, hr, hresult⟩ := unmappedArea_result env h hreq
  refine ⟨r, by rw [vmUnmappedArea, hup, if_neg Bool.false_ne_true, hr], ?_⟩
  rcases hresult with ⟨hfail, hnone⟩ | ⟨hsuits, hguard, _, hleast⟩
  · exact Or.inl ⟨hfail, fun a ha => hnone a (ha.roomUp hmask)⟩
  · refine Or.inr ⟨⟨hsuits.low, hsuits.high, hsuits.free, hguard hpage⟩, fun a ha => ?_⟩
    have hle := hleast a (ha.roomUp hmask)
    omega

/-- The same length above the heap, with no alignment. -/
def plainSearch : VmUnmappedAreaInfo where
  topdown := false
  length := 0x200000
  lowLimit := 0x555555001000
  highLimit := 0x7ffffffff000
  alignMask := 0
  alignOffset := 0

/-- INTERNAL: a search upwards finds the first place behind the heap. -/
theorem vmUnmappedArea_lowest_heap :
    vmUnmappedArea quietEnv stackAreas plainSearch = some 0x555555010000 ∧
    ∃ r, vmUnmappedArea quietEnv stackAreas plainSearch = some r ∧
      ((r = ENOMEM.ptr ∧ ∀ a, ¬ Place quietEnv stackAreas plainSearch a) ∨
        IsLeast {a | Place quietEnv stackAreas plainSearch a} r.toNat) :=
  ⟨by decide, vmUnmappedArea_lowest stackAreas_inOrder
    ⟨by decide, by decide, by decide, 0, by decide, rfl⟩
    ⟨by decide, by decide, by decide, by decide, by decide⟩ rfl rfl⟩

/-- MAIN: **searching downwards passes by no place that keeps clear of every guard gap**. The
range it gives need only keep the guard gap of the next area above it. When it gives the end of
the 64-bit range, an area begins within its own guard gap and there is no such place.
SOURCE: mm/mmap.c:1646-1686 -/
theorem vmUnmappedArea_highest (h : InOrder areas) (huser : InUserSpace areas)
    (hreq : SearchRequest info) (hdown : info.topdown = true) (hmask : info.alignMask = 0) :
    ∃ r, vmUnmappedArea env areas info = some r ∧
      (((r = ENOMEM.ptr ∨ ¬ GuardRoom env areas ∧ r.toNat + info.length.toNat = 2 ^ 64) ∧
          ∀ a, Place env areas info a → ¬ KeepsAllGuards env areas info.length.toNat a) ∨
        Place env areas info r.toNat ∧
          ∀ a, Place env areas info a → KeepsAllGuards env areas info.length.toNat a →
            a ≤ r.toNat) := by
  have hzero : info.alignMask.toNat = 0 := by rw [hmask]; rfl
  have hroom : ∀ a, Place env areas info a → KeepsAllGuards env areas info.length.toNat a →
      RoomDown env areas info a := by
    intro a ha hall
    constructor
    · exact ha.low
    · rw [hzero]
      exact ha.high
    · rw [hzero]
      exact ha.free
    · rw [hzero]
      exact hall
  obtain ⟨r, hr, hresult⟩ := unmappedAreaTopdown_result env h huser hreq
  refine ⟨r, by rw [vmUnmappedArea, hdown, if_pos rfl, hr], ?_⟩
  rcases hresult with ⟨hfail, hnone⟩ | ⟨hsuits, hguard, hgreatest⟩ | hend
  · exact Or.inl ⟨Or.inl hfail, fun a ha hall => hnone a (hroom a ha hall)⟩
  · exact Or.inr ⟨⟨hsuits.low, hsuits.high, hsuits.free, hguard⟩,
      fun a ha hall => hgreatest a (hroom a ha hall)⟩
  · have hinside := hend.inside
    have hlast := hend.last
    rw [hzero] at hlast
    exact Or.inl ⟨Or.inr ⟨hend.guard, by omega⟩,
      fun a ha hall => hend.nothing a (hroom a ha hall)⟩

/-- INTERNAL: a search downwards finds the last place below the gap of the stack. -/
theorem vmUnmappedArea_highest_stack :
    vmUnmappedArea quietEnv stackAreas { plainSearch with topdown := true } =
        some 0x7fffffc00000 ∧
    ∃ r, vmUnmappedArea quietEnv stackAreas { plainSearch with topdown := true } = some r ∧
      (((r = ENOMEM.ptr ∨
            ¬ GuardRoom quietEnv stackAreas ∧ r.toNat + plainSearch.length.toNat = 2 ^ 64) ∧
          ∀ a, Place quietEnv stackAreas { plainSearch with topdown := true } a →
            ¬ KeepsAllGuards quietEnv stackAreas plainSearch.length.toNat a) ∨
        Place quietEnv stackAreas { plainSearch with topdown := true } r.toNat ∧
          ∀ a, Place quietEnv stackAreas { plainSearch with topdown := true } a →
            KeepsAllGuards quietEnv stackAreas plainSearch.length.toNat a → a ≤ r.toNat) :=
  ⟨by decide, vmUnmappedArea_highest stackAreas_inOrder stackAreas_inUserSpace
    ⟨by decide, by decide, by decide, 0, by decide, rfl⟩ rfl rfl⟩

end Contract

end UsacKernel.Analysis
