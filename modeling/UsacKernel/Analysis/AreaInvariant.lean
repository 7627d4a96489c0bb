import UsacKernel.Interface.AddressMap

/-!
# The areas of an address space

`Holds as cells` is the invariant of the maple tree: tree and areas agree, every area is a page
range of its own, and `map_count` is their number. The list `cells` is the address space as a
list of areas in address order; the operations are described by what they do to it, and the
meaning of the address space can be read off from it (`Holds.meaning_eq`).
-/

set_option autoImplicit false

namespace UsacKernel.Analysis

open UsacKernel.Computation UsacKernel.Model UsacKernel.Interface IndexedHeap

/-- An area with its address. -/
abbrev Cell := Ptr × VmAreaStruct

/-- An area that is in the tree: whole pages of user space, not marked as detached, and
without a chain when it has no `anon_vma`. -/
structure AreaOk (v : VmAreaStruct) : Prop where
  startPage : v.vmStart.toNat % 4096 = 0
  endPage : v.vmEnd.toNat % 4096 = 0
  user : v.vmEnd.toNat ≤ 2 ^ 56
  chain : v.anonVma = none → v.anonVmaChain = []
  attached : v.detached = false

/-- The address space consists of these areas. -/
structure Holds (as : AddressSpace) (cells : List Cell) : Prop where
  rep : Represents as.heap as.mt cells
  fresh : ∀ c ∈ cells, c.1 < as.fresh
  count : as.mapCount = cells.length
  ok : ∀ c ∈ cells, AreaOk c.2

/-- `w` is the area `v` with other flags, pages or objects, in the same place of the address space
and with the same `anon_vma`. -/
structure SamePlace (v w : VmAreaStruct) : Prop where
  vmStart : w.vmStart = v.vmStart
  vmEnd : w.vmEnd = v.vmEnd
  anonVma : w.anonVma = v.anonVma
  anonVmaChain : w.anonVmaChain = v.anonVmaChain
  detached : w.detached = v.detached

/-- INTERNAL: an area is well formed by where it is, so a change that keeps the place keeps it
so. -/
theorem AreaOk.samePlace {v w : VmAreaStruct} (h : AreaOk v) (hsame : SamePlace v w) :
    AreaOk w where
  startPage := hsame.vmStart ▸ h.startPage
  endPage := hsame.vmEnd ▸ h.endPage
  user := hsame.vmEnd ▸ h.user
  chain hnone := hsame.anonVmaChain ▸ h.chain (hsame.anonVma ▸ hnone)
  attached := hsame.detached ▸ h.attached

/-- The meaning of a list of areas. -/
def cellsMeaning (cells : List Cell) : AddressMap :=
  fun a => (recordAt cells a).map (fun c => areaAttr c.2)

/-- The `anon_vma` at an address. -/
def cellsAnonVma (cells : List Cell) (a : ℕ) : Option Handle :=
  (recordAt cells a).bind (fun c => c.2.anonVma)

section Cells

variable {as : AddressSpace} {cells A B : List Cell} {a : ℕ}

/-- INTERNAL: the record found at an address is one of the list. -/
theorem recordAt_mem {c : Cell} (h : recordAt cells a = some c) : c ∈ cells :=
  List.mem_of_find?_eq_some h

/-- INTERNAL: the map that a tree means is the one its list of records means. -/
theorem Holds.meaning_eq (h : Holds as cells) : meaning as = cellsMeaning cells := by
  funext a
  unfold meaning cellsMeaning
  rw [h.rep.lookup, Option.map_map]
  cases hrec : recordAt cells a with
  | none => rfl
  | some c => exact congrArg (fun v => some (areaAttr v)) (h.rep.read c (recordAt_mem hrec))

/-- INTERNAL: the `anon_vma` that a tree has at an address is the one its list of records has.
-/
theorem Holds.anonVmaAt_eq (h : Holds as cells) (a : ℕ) :
    anonVmaAt as a = cellsAnonVma cells a := by
  unfold anonVmaAt cellsAnonVma
  rw [h.rep.lookup]
  cases hrec : recordAt cells a with
  | none => rfl
  | some c => exact congrArg VmAreaStruct.anonVma (h.rep.read c (recordAt_mem hrec))

/-- INTERNAL: the first of two lists decides where it has a record. -/
theorem cellsMeaning_append (A B : List Cell) (a : ℕ) :
    cellsMeaning (A ++ B) a = (cellsMeaning A a).or (cellsMeaning B a) := by
  unfold cellsMeaning
  rw [recordAt_append]
  cases recordAt A a with
  | none => rfl
  | some c => rfl

/-- INTERNAL: the first record decides within its range. -/
theorem cellsMeaning_cons (c : Cell) (cells : List Cell) (a : ℕ) :
    cellsMeaning (c :: cells) a =
      if c.2.vmStart.toNat ≤ a ∧ a < c.2.vmEnd.toNat then some (areaAttr c.2)
      else cellsMeaning cells a := by
  unfold cellsMeaning
  rw [recordAt_cons]
  show Option.map _ (if c.2.vmStart.toNat ≤ a ∧ a < c.2.vmEnd.toNat then _ else _) = _
  split_ifs <;> rfl

/-- INTERNAL: the same with the bounds and the meaning of the area as they are known. -/
theorem cellsMeaning_cons_of {p : Ptr} {v : VmAreaStruct} {lo hi : ULong} {attr : PageAttr}
    (hlo : v.vmStart = lo) (hhi : v.vmEnd = hi) (hattr : areaAttr v = attr) (cells : List Cell)
    (a : ℕ) :
    cellsMeaning ((p, v) :: cells) a =
      if lo.toNat ≤ a ∧ a < hi.toNat then some attr else cellsMeaning cells a := by
  rw [← hlo, ← hhi, ← hattr]
  exact cellsMeaning_cons (p, v) cells a

/-- INTERNAL: no records map nothing. -/
@[simp] theorem cellsMeaning_nil (a : ℕ) : cellsMeaning [] a = none := rfl

/-- INTERNAL: an address outside every record is not mapped. -/
theorem cellsMeaning_eq_none (h : ∀ c ∈ cells, ¬ (c.2.vmStart.toNat ≤ a ∧ a < c.2.vmEnd.toNat)) :
    cellsMeaning cells a = none := by
  unfold cellsMeaning
  rw [recordAt_eq_none h, Option.map_none]

/-- INTERNAL: the first of two lists gives the `anon_vma` where it has a record. -/
theorem cellsAnonVma_append (A B : List Cell) (a : ℕ) :
    cellsAnonVma (A ++ B) a =
      if (recordAt A a).isSome then cellsAnonVma A a else cellsAnonVma B a := by
  unfold cellsAnonVma
  rw [recordAt_append]
  cases recordAt A a with
  | none => rfl
  | some c => rfl

/-- INTERNAL: the first record gives the `anon_vma` within its range. -/
theorem cellsAnonVma_cons (c : Cell) (cells : List Cell) (a : ℕ) :
    cellsAnonVma (c :: cells) a =
      if c.2.vmStart.toNat ≤ a ∧ a < c.2.vmEnd.toNat then c.2.anonVma
      else cellsAnonVma cells a := by
  unfold cellsAnonVma
  rw [recordAt_cons]
  show Option.bind (if c.2.vmStart.toNat ≤ a ∧ a < c.2.vmEnd.toNat then _ else _) _ = _
  split_ifs <;> rfl

/-- INTERNAL: the same for a record known by its bounds and its `anon_vma` only. -/
theorem cellsAnonVma_cons_of {p : Ptr} {v : VmAreaStruct} {lo hi : ULong} {x : Option Handle}
    (hlo : v.vmStart = lo) (hhi : v.vmEnd = hi) (hanon : v.anonVma = x) (cells : List Cell)
    (a : ℕ) :
    cellsAnonVma ((p, v) :: cells) a =
      if lo.toNat ≤ a ∧ a < hi.toNat then x else cellsAnonVma cells a := by
  rw [← hlo, ← hhi, ← hanon]
  exact cellsAnonVma_cons (p, v) cells a

/-- INTERNAL: no records have no `anon_vma`. -/
@[simp] theorem cellsAnonVma_nil (a : ℕ) : cellsAnonVma [] a = none := rfl

/-- INTERNAL: an area of the list is found at its addresses. -/
theorem Holds.recordAt_of_mem (h : Holds as cells) {c : Cell} (hc : c ∈ cells)
    (hin : c.2.vmStart.toNat ≤ a ∧ a < c.2.vmEnd.toNat) : recordAt cells a = some c := by
  obtain ⟨L, R, rfl⟩ := List.append_of_mem hc
  rw [recordAt_append, recordAt_eq_none, Option.none_or, recordAt_cons]
  · exact if_pos hin
  · intro d hd hcon
    have hle : d.2.vmEnd.toNat ≤ c.2.vmStart.toNat := h.rep.below hd List.mem_cons_self
    have hcon' : d.2.vmStart.toNat ≤ a ∧ a < d.2.vmEnd.toNat := hcon
    omega

/-- INTERNAL: an area of the list decides what its addresses mean. -/
theorem Holds.meaning_of_mem (h : Holds as cells) {c : Cell} (hc : c ∈ cells)
    (hin : c.2.vmStart.toNat ≤ a ∧ a < c.2.vmEnd.toNat) :
    cellsMeaning cells a = some (areaAttr c.2) := by
  unfold cellsMeaning
  rw [h.recordAt_of_mem hc hin, Option.map_some]

/-- MAIN: **`validate_mm` finds nothing wrong** with an address space that the invariant
holds of.
SOURCE: mm/mmap.c:291-339 -/
theorem Holds.validateMm_eq (h : Holds as cells) : validateMm as = true := by
  unfold validateMm
  rw [h.rep.spans, Bool.and_eq_true, List.all_eq_true]
  constructor
  · intro s hs
    obtain ⟨c, hc, rfl⟩ := List.mem_map.mp hs
    refine decide_eq_true ?_
    show (as.heap c.1).vmEnd.toNat = _ ∧ (as.heap c.1).vmStart.toNat = _
    rw [h.rep.read c hc]
    exact ⟨rfl, rfl⟩
  · refine decide_eq_true ?_
    rw [List.length_map, h.count]

end Cells

/-! ## Rewriting a part of the list -/

section Rewriting

variable {as as' : AddressSpace} {A M M' B : List Cell}

/-- INTERNAL: the middle part of a list may be read with the last one. -/
theorem Holds.assoc (h : Holds as (A ++ M ++ B)) : Holds as (A ++ (M ++ B)) := by
  rwa [List.append_assoc] at h

/-- INTERNAL: an area before another ends before it begins. -/
theorem Holds.le (h : Holds as (A ++ B)) {c d : Cell} (hc : c ∈ A) (hd : d ∈ B) :
    c.2.vmEnd.toNat ≤ d.2.vmStart.toNat :=
  h.rep.below hc hd

/-- INTERNAL: no area of a well-formed tree is empty. -/
theorem Holds.lt {cells : List Cell} (h : Holds as cells) {c : Cell} (hc : c ∈ cells) :
    c.2.vmStart.toNat < c.2.vmEnd.toNat :=
  h.rep.nonempty hc

/-- INTERNAL: the record of the list is what the heap has at its pointer. -/
theorem Holds.read {cells : List Cell} (h : Holds as cells) {c : Cell} (hc : c ∈ cells) :
    as.heap c.1 = c.2 :=
  h.rep.read c hc

/-- INTERNAL: the invariant after the middle of the list was rewritten. -/
theorem Holds.of_replace (h : Holds as (A ++ M ++ B))
    (hrep : Represents as'.heap as'.mt (A ++ M' ++ B)) (hfresh : as.fresh ≤ as'.fresh)
    (hnew : ∀ c ∈ M', c.1 < as'.fresh)
    (hcount : as'.mapCount = as.mapCount - M.length + M'.length)
    (hok : ∀ c ∈ M', AreaOk c.2) : Holds as' (A ++ M' ++ B) := by
  have hmem : ∀ c ∈ A ++ M' ++ B, c ∈ M' ∨ c ∈ A ++ M ++ B := by
    intro c hc
    simp only [List.mem_append] at hc ⊢
    tauto
  refine ⟨hrep, ?_, ?_, ?_⟩
  · intro c hc
    rcases hmem c hc with hc | hc
    · exact hnew c hc
    · exact lt_of_lt_of_le (h.fresh c hc) hfresh
  · have hold := h.count
    simp only [List.length_append, Nat.cast_add] at hold ⊢
    omega
  · intro c hc
    rcases hmem c hc with hc | hc
    · exact hok c hc
    · exact h.ok c hc

/-- INTERNAL: when the middle part assigns a range, the whole list does. -/
theorem cellsMeaning_assign {lo hi : ℕ} {attr : PageAttr}
    (hA : ∀ c ∈ A, c.2.vmEnd.toNat ≤ lo)
    (h : ∀ a, cellsMeaning M' a = if lo ≤ a ∧ a < hi then some attr else cellsMeaning M a) :
    cellsMeaning (A ++ M' ++ B) = (cellsMeaning (A ++ M ++ B)).assign lo hi attr := by
  funext a
  unfold AddressMap.assign
  simp only [cellsMeaning_append, h a]
  split_ifs with hin
  · rw [cellsMeaning_eq_none (fun c hc hcon => by have := hA c hc; omega)]
    rfl
  · rfl

/-- INTERNAL: when the middle part means the same, the whole list does. -/
theorem cellsMeaning_congr (h : ∀ a, cellsMeaning M' a = cellsMeaning M a) :
    cellsMeaning (A ++ M' ++ B) = cellsMeaning (A ++ M ++ B) := by
  funext a
  simp only [cellsMeaning_append, h a]

end Rewriting

end UsacKernel.Analysis
