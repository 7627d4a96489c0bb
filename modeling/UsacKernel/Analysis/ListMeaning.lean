import UsacKernel.Analysis.HeapBreak
import UsacKernel.Computation.Intervals

/-!
# What a list of areas means

`MmStruct` keeps its areas as a list and may keep one area in several pieces. What such a list
means is what the same areas would mean in a tree, without their files (`listMeaning`). Unmapping
removes a range from this meaning, mapping a free range assigns it, and the counters of
`MmStruct` follow it as those of the tree do. What the functions on the list find out about a
range depends on the meaning only, so the pieces do not matter.
-/

set_option autoImplicit false

namespace UsacKernel.Analysis

open UsacKernel.Computation UsacKernel.Model UsacKernel.Interface IndexedHeap

/-! ## Meaning -/

/-- An area of the list as a record, without a file. -/
def plainArea (v : VmArea) : VmAreaStruct :=
  newArea v.vmStart v.vmEnd v.vmFlags (bytesToPages v.vmStart)

/-- The meaning of pages of which the flags are known only. -/
def plainAttr (flags : ULong) : PageAttr where
  flags := flags &&& ~~~ VM_SOFTDIRTY
  file := none
  base := 0
  policy := none
  uffdCtx := none
  anonName := none

/-- The areas of a list as cells. A list has no pointers. -/
def plainCells (vmas : List VmArea) : List Cell := vmas.map (fun v => (0, plainArea v))

/-- What a list of areas means. -/
def listMeaning (vmas : List VmArea) : AddressMap := cellsMeaning (plainCells vmas)

/-- The areas are ranges of whole pages, in ascending order. -/
structure ListOk (vmas : List VmArea) : Prop where
  area : ∀ v ∈ vmas, PageRange v.vmStart v.vmEnd
  ordered : vmas.Pairwise (fun v w => v.vmEnd.toNat ≤ w.vmStart.toNat)

section Meaning

variable {vmas : List VmArea} {v : VmArea} {start stop : ULong} {a : ℕ}

/-- INTERNAL: the meaning of an area of the list. -/
theorem areaAttr_plainArea (v : VmArea) : areaAttr (plainArea v) = plainAttr v.vmFlags := by
  unfold areaAttr plainArea newArea plainAttr
  dsimp only
  rw [sub_self]

/-- INTERNAL: nothing is mapped in an empty list. -/
@[simp] theorem listMeaning_nil : listMeaning [] a = none := rfl

/-- INTERNAL: the first area that contains an address decides about it. -/
theorem listMeaning_cons :
    listMeaning (v :: vmas) a =
      if v.vmStart.toNat ≤ a ∧ a < v.vmEnd.toNat then some (plainAttr v.vmFlags)
      else listMeaning vmas a := by
  rw [← areaAttr_plainArea]
  exact cellsMeaning_cons (0, plainArea v) (plainCells vmas) a

/-- INTERNAL: the first of two lists that has an address decides about it. -/
theorem listMeaning_append (ws : List VmArea) :
    listMeaning (vmas ++ ws) a = (listMeaning vmas a).or (listMeaning ws a) := by
  unfold listMeaning plainCells
  rw [List.map_append]
  exact cellsMeaning_append _ _ a

/-- INTERNAL: an address outside of all areas is not mapped. -/
theorem listMeaning_eq_none
    (h : ∀ v ∈ vmas, ¬ (v.vmStart.toNat ≤ a ∧ a < v.vmEnd.toNat)) : listMeaning vmas a = none := by
  refine cellsMeaning_eq_none fun c hc => ?_
  obtain ⟨v, hv, rfl⟩ := List.mem_map.mp hc
  exact h v hv

/-- INTERNAL: the area that contains an address is known from its place in the order. -/
theorem ListOk.listMeaning_of_mem (h : ListOk vmas) (hv : v ∈ vmas) (hlo : v.vmStart.toNat ≤ a)
    (hhi : a < v.vmEnd.toNat) : listMeaning vmas a = some (plainAttr v.vmFlags) := by
  obtain ⟨A, B, rfl⟩ := List.append_of_mem hv
  have hA : listMeaning A a = none := by
    refine listMeaning_eq_none fun w hw hcon => ?_
    have hle := (List.pairwise_append.mp h.ordered).2.2 w hw v List.mem_cons_self
    omega
  rw [listMeaning_append, hA, listMeaning_cons, if_pos ⟨hlo, hhi⟩]
  rfl

/-- INTERNAL: an area meets a range, in numbers. -/
theorem meets_iff : v.meets start stop = true ↔
    v.vmStart.toNat < stop.toNat ∧ start.toNat < v.vmEnd.toNat := by
  unfold VmArea.meets
  rw [decide_eq_true_iff, BitVec.lt_def, BitVec.lt_def]

/-- INTERNAL: a piece that is left of an area is a range of pages inside it. -/
theorem mem_cut (hv : PageRange v.vmStart v.vmEnd) (hr : PageRange start stop) {w : VmArea}
    (hw : w ∈ v.cut start stop) :
    PageRange w.vmStart w.vmEnd ∧ v.vmStart.toNat ≤ w.vmStart.toNat ∧
      w.vmEnd.toNat ≤ v.vmEnd.toNat := by
  unfold VmArea.cut at hw
  by_cases hmeets : v.meets start stop = true
  · obtain ⟨hbelow, habove⟩ := meets_iff.mp hmeets
    rw [if_pos hmeets, List.mem_append] at hw
    rcases hw with hw | hw
    · split_ifs at hw with hleft
      · rw [List.mem_singleton.mp hw]
        exact ⟨⟨BitVec.lt_def.mp hleft, hv.addrPage, hr.addrPage, habove.le.trans hv.user⟩, le_rfl,
          habove.le⟩
      · cases hw
    · split_ifs at hw with hright
      · rw [List.mem_singleton.mp hw]
        exact ⟨⟨BitVec.lt_def.mp hright, hr.stopPage, hv.stopPage, hv.user⟩, hbelow.le, le_rfl⟩
      · cases hw
  · rw [if_neg hmeets] at hw
    rw [List.mem_singleton.mp hw]
    exact ⟨hv, le_rfl, le_rfl⟩

/-- INTERNAL: the pieces that are left of an area are in order. -/
theorem cut_ordered (v : VmArea) (hle : start.toNat ≤ stop.toNat) :
    (v.cut start stop).Pairwise (fun w u => w.vmEnd.toNat ≤ u.vmStart.toNat) := by
  unfold VmArea.cut
  split_ifs
  · exact List.pairwise_pair.mpr hle
  · exact List.pairwise_singleton _ _
  · exact List.pairwise_singleton _ _
  · exact List.Pairwise.nil
  · exact List.pairwise_singleton _ _

/-- INTERNAL: cutting keeps the order. -/
theorem ListOk.cut (h : ListOk vmas) (hr : PageRange start stop) :
    ListOk (vmas.flatMap (fun v => v.cut start stop)) := by
  constructor
  · intro w hw
    obtain ⟨v, hv, hw⟩ := List.mem_flatMap.mp hw
    exact (mem_cut (h.area v hv) hr hw).1
  · rw [List.pairwise_flatMap]
    refine ⟨fun v _ => cut_ordered v hr.lt.le, h.ordered.imp_of_mem ?_⟩
    intro v w hv hw hle x hx y hy
    exact (mem_cut (h.area v hv) hr hx).2.2.trans
      (hle.trans (mem_cut (h.area w hw) hr hy).2.1)

/-- INTERNAL: a new area in a free range finds its place in the order. -/
theorem ListOk.insert {mm : MmStruct} (h : ListOk mm.vmas) (hv : PageRange v.vmStart v.vmEnd)
    (hfree : ∀ w ∈ mm.vmas, v.vmEnd.toNat ≤ w.vmStart.toNat ∨ w.vmEnd.toNat ≤ v.vmStart.toNat) :
    ListOk (insertVma mm v) := by
  have hperm := insertVma_perm mm v
  have harea : ∀ w ∈ insertVma mm v, PageRange w.vmStart w.vmEnd := by
    intro w hw
    rcases List.mem_cons.mp (hperm.mem_iff.mp hw) with rfl | hw
    · exact hv
    · exact h.area w hw
  refine ⟨harea, ?_⟩
  have hsorted : (insertVma mm v).Pairwise (fun w u => w.vmStart.toNat ≤ u.vmStart.toNat) := by
    have htrans : IsTrans VmArea (fun w u => w.vmStart.toNat ≤ u.vmStart.toNat) :=
      ⟨fun _ _ _ => le_trans⟩
    have htotal : Std.Total (fun w u : VmArea => w.vmStart.toNat ≤ u.vmStart.toNat) :=
      ⟨fun _ _ => le_total _ _⟩
    refine List.Pairwise.orderedInsert v mm.vmas (h.ordered.imp_of_mem ?_)
    intro w u hw _ hle
    exact (h.area w hw).lt.le.trans hle
  have hapart : (insertVma mm v).Pairwise
      (Intervals.Apart (fun v => v.vmStart.toNat) (fun v => v.vmEnd.toNat)) := by
    refine (hperm.pairwise_iff (fun {x y} hxy => Intervals.Apart.symm hxy)).mpr ?_
    exact List.pairwise_cons.mpr ⟨hfree, h.ordered.imp Or.inl⟩
  refine (hsorted.and hapart).imp_of_mem ?_
  rintro w u hw hu ⟨hle, hwu | huw⟩
  · exact hwu
  · have hlt := (harea u hu).lt
    dsimp only at huw
    omega

/-- INTERNAL: cutting an area removes the range from its meaning. -/
theorem listMeaning_cut (v : VmArea) (hlt : start.toNat < stop.toNat) (a : ℕ) :
    listMeaning (v.cut start stop) a =
      if start.toNat ≤ a ∧ a < stop.toNat then none else listMeaning [v] a := by
  unfold VmArea.cut
  by_cases hmeets : v.meets start stop = true
  · have hmeets' := meets_iff.mp hmeets
    rw [if_pos hmeets]
    simp only [BitVec.lt_def]
    split_ifs <;> simp only [List.nil_append, List.append_nil, List.cons_append, listMeaning_cons,
      listMeaning_nil] <;> split_ifs <;> first | rfl | omega
  · rw [if_neg hmeets]
    rw [meets_iff] at hmeets
    split_ifs with hin
    · rw [listMeaning_cons, if_neg (by omega), listMeaning_nil]
    · rfl

/-- INTERNAL: cutting all areas removes the range. -/
theorem listMeaning_flatMap_cut (vmas : List VmArea) (hlt : start.toNat < stop.toNat) :
    listMeaning (vmas.flatMap (fun v => v.cut start stop)) =
      (listMeaning vmas).remove start.toNat stop.toNat := by
  funext a
  unfold AddressMap.remove
  induction vmas with
  | nil =>
    rw [List.flatMap_nil, listMeaning_nil]
    split_ifs <;> rfl
  | cons v vmas ih =>
    have hcons : v :: vmas = [v] ++ vmas := rfl
    rw [List.flatMap_cons, listMeaning_append, ih, listMeaning_cut v hlt, hcons, listMeaning_append]
    split_ifs <;> rfl

/-- INTERNAL: a new area in a free range assigns the range. -/
theorem listMeaning_insertVma (mm : MmStruct) (v : VmArea)
    (hfree : ∀ w ∈ mm.vmas, v.vmEnd.toNat ≤ w.vmStart.toNat ∨ w.vmEnd.toNat ≤ v.vmStart.toNat) :
    listMeaning (insertVma mm v) =
      (listMeaning mm.vmas).assign v.vmStart.toNat v.vmEnd.toNat (plainAttr v.vmFlags) := by
  funext a
  unfold insertVma AddressMap.assign
  generalize mm.vmas = vmas at hfree
  induction vmas with
  | nil =>
    rw [List.orderedInsert_nil, listMeaning_cons]
  | cons w vmas ih =>
    have hw := hfree w List.mem_cons_self
    rw [List.orderedInsert_cons]
    split_ifs with hle hin hin
    · rw [listMeaning_cons, if_pos hin]
    · rw [listMeaning_cons, if_neg hin]
    · rw [listMeaning_cons, if_neg (by omega), ih fun u hu => hfree u (List.mem_cons_of_mem w hu),
        if_pos hin]
    · rw [listMeaning_cons, ih fun u hu => hfree u (List.mem_cons_of_mem w hu), if_neg hin,
        listMeaning_cons]

end Meaning

/-! ## Pages -/

/-- The pages of the areas with such flags. -/
def listPages (f : ULong → Bool) (vmas : List VmArea) : ℕ := sumPages f (plainCells vmas)

section Pages

variable {f : ULong → Bool} {vmas : List VmArea} {v : VmArea} {start stop : ULong}

/-- INTERNAL: the pages of an area that is given by its length. -/
theorem vmaPages_length (addr len flags : ULong) :
    vmaPages ⟨addr, addr + len, flags⟩ = bytesToPages len := by
  unfold vmaPages
  refine congrArg bytesToPages ?_
  ring

/-- INTERNAL: an empty list has no pages. -/
@[simp] theorem listPages_nil : listPages f [] = 0 := rfl

/-- INTERNAL: the pages of the first area and of the others. -/
@[simp] theorem listPages_cons :
    listPages f (v :: vmas) = (if f v.vmFlags then (vmaPages v).toNat else 0) + listPages f vmas :=
  sumPages_cons _

/-- INTERNAL: the pages of two lists. -/
@[simp] theorem listPages_append (vs ws : List VmArea) :
    listPages f (vs ++ ws) = listPages f vs + listPages f ws := by
  unfold listPages plainCells
  rw [List.map_append, sumPages_append]

/-- INTERNAL: the pages of an ordered list are those of its meaning. -/
theorem ListOk.pagesWhere_eq (h : ListOk vmas) (hf : IgnoresSoftDirty f) :
    pagesWhere (listMeaning vmas) f = listPages f vmas := by
  have harea : ∀ c ∈ plainCells vmas, ∃ v ∈ vmas, c = (0, plainArea v) := by
    intro c hc
    obtain ⟨v, hv, hcv⟩ := List.mem_map.mp hc
    exact ⟨v, hv, hcv.symm⟩
  refine pagesWhere_cellsMeaning hf ⟨?_, ?_⟩ ?_
  · intro s hs
    obtain ⟨c, hc, rfl⟩ := List.mem_map.mp hs
    obtain ⟨v, hv, rfl⟩ := harea c hc
    exact (h.area v hv).lt
  · unfold plainCells
    rw [List.map_map, List.pairwise_map]
    exact h.ordered
  · intro c hc
    obtain ⟨v, hv, rfl⟩ := harea c hc
    have hr := h.area v hv
    exact ⟨hr.addrPage, hr.stopPage, hr.user, fun _ => rfl, rfl⟩

/-- INTERNAL: the pages of an area are shared between the part inside a range and the parts
outside. -/
theorem clip_cut_eq (hv : PageRange v.vmStart v.vmEnd) (hr : PageRange start stop)
    (hmeets : v.meets start stop = true) :
    listPages f [v.clip start stop] + listPages f (v.cut start stop) = listPages f [v] := by
  obtain ⟨hbelow, habove⟩ := meets_iff.mp hmeets
  have hlt := hv.lt
  have hlt' := hr.lt
  have hclip : (vmaPages (v.clip start stop)).toNat =
      (min stop.toNat v.vmEnd.toNat - max start.toNat v.vmStart.toNat) / 4096 := by
    obtain ⟨hstart, hstop⟩ := clip_toNat v start stop
    rw [vmaPages_toNat _ (by omega), hstart, hstop]
  have hstartPage := hv.addrPage
  have hendPage := hv.stopPage
  have hloPage := hr.addrPage
  have hhiPage := hr.stopPage
  have hflags : (v.clip start stop).vmFlags = v.vmFlags := rfl
  by_cases hf : f v.vmFlags = true
  · rw [VmArea.cut, if_pos hmeets, listPages_append]
    -- an area can stick out of the range on both sides, on one, or on none
    by_cases hleft : v.vmStart < start <;> by_cases hright : stop < v.vmEnd <;>
      simp only [hleft, hright, if_true, if_false, listPages_cons, listPages_nil, hflags, hf,
        hclip, vmaPages_toNat v hlt.le] <;>
      rw [BitVec.lt_def] at hleft hright
    · rw [vmaPages_toNat _ (by simpa using hleft.le), vmaPages_toNat _ (by simpa using hright.le)]
      simp only
      omega
    · rw [vmaPages_toNat _ (by simpa using hleft.le)]
      simp only
      omega
    · rw [vmaPages_toNat _ (by simpa using hright.le)]
      simp only
      omega
    · omega
  · have hcut : listPages f (v.cut start stop) = 0 := by
      unfold VmArea.cut
      split_ifs <;> simp [hf]
    rw [hcut]
    simp [hflags, hf]

/-- INTERNAL: the same for all areas. -/
theorem detached_cut_eq {mm : MmStruct} (h : ∀ v ∈ mm.vmas, PageRange v.vmStart v.vmEnd)
    (hr : PageRange start stop) :
    listPages f (detached mm start stop) +
      listPages f (mm.vmas.flatMap (fun v => v.cut start stop)) = listPages f mm.vmas := by
  unfold detached
  generalize mm.vmas = vmas at h
  induction vmas with
  | nil => rfl
  | cons v vmas ih =>
    have hrest := ih fun w hw => h w (List.mem_cons_of_mem v hw)
    have hcons : ∀ (w : VmArea) (ws : List VmArea),
        listPages f (w :: ws) = listPages f [w] + listPages f ws :=
      fun w ws => listPages_append [w] ws
    rw [List.flatMap_cons, listPages_append, hcons v]
    by_cases hmeets : v.meets start stop = true
    · have hv := clip_cut_eq (f := f) (h v List.mem_cons_self) hr hmeets
      rw [List.filter_cons, if_pos hmeets, List.map_cons, hcons (v.clip start stop)]
      omega
    · rw [List.filter_cons, if_neg hmeets, VmArea.cut, if_neg hmeets]
      omega

end Pages

/-! ## What depends on the meaning only -/

section Congr

variable {vmas : List VmArea} {mm mm' : MmStruct} {v : VmArea} {start stop : ULong}

/-- INTERNAL: a sum of page numbers, as a word. -/
theorem sum_vmaPages (vmas : List VmArea) :
    (vmas.map vmaPages).sum = BitVec.ofNat 64 (listPages PageClass.total.holds vmas) := by
  induction vmas with
  | nil => rfl
  | cons v vmas ih =>
    rw [List.map_cons, List.sum_cons, ih, listPages_cons, PageClass.holds, if_pos rfl,
      BitVec.ofNat_add, BitVec.ofNat_toNat, BitVec.setWidth_eq]

/-- INTERNAL: `count_vma_pages_range` counts what is mapped in the range.
SOURCE: mm/mmap.c:377-392 -/
theorem countVmaPagesRange_congr (h : ListOk mm.vmas) (h' : ListOk mm'.vmas)
    (hmeaning : listMeaning mm'.vmas = listMeaning mm.vmas) (hr : PageRange start stop) :
    countVmaPagesRange mm' start stop = countVmaPagesRange mm start stop := by
  have htotal := PageClass.total.ignoresSoftDirty
  have hall : listPages PageClass.total.holds mm'.vmas =
      listPages PageClass.total.holds mm.vmas := by
    rw [← h.pagesWhere_eq htotal, ← h'.pagesWhere_eq htotal, hmeaning]
  have hleft : listPages PageClass.total.holds (mm'.vmas.flatMap (fun v => v.cut start stop)) =
      listPages PageClass.total.holds (mm.vmas.flatMap (fun v => v.cut start stop)) := by
    rw [← (h.cut hr).pagesWhere_eq htotal, ← (h'.cut hr).pagesWhere_eq htotal,
      listMeaning_flatMap_cut _ hr.lt, listMeaning_flatMap_cut _ hr.lt, hmeaning]
  have hsplit := detached_cut_eq (f := PageClass.total.holds) h.area hr
  have hsplit' := detached_cut_eq (f := PageClass.total.holds) h'.area hr
  unfold countVmaPagesRange
  rw [sum_vmaPages, sum_vmaPages]
  congr 1
  omega

/-- INTERNAL: the area that `vma_find` finds begins at the first mapped address of the range, or
contains its start. -/
theorem vmaFind_first (h : ListOk mm.vmas)
    (hfind : vmaFind mm start stop = some v) :
    v.vmStart.toNat < stop.toNat ∧
      listMeaning mm.vmas (max start.toNat v.vmStart.toNat) = some (plainAttr v.vmFlags) ∧
      ∀ a, start.toNat ≤ a → a < v.vmStart.toNat → listMeaning mm.vmas a = none := by
  obtain ⟨hmeets, A, B, hvmas, hA⟩ := List.find?_eq_some_iff_append.mp hfind
  have hv : v ∈ mm.vmas := by
    rw [hvmas]
    exact List.mem_append_right A List.mem_cons_self
  obtain ⟨hbelow, habove⟩ := meets_iff.mp hmeets
  have hself := (h.area v hv).lt
  refine ⟨hbelow, h.listMeaning_of_mem hv (by omega) (by omega), ?_⟩
  intro a hlo hhi
  refine listMeaning_eq_none fun w hw hcon => ?_
  rw [hvmas] at hw
  rcases List.mem_append.mp hw with hw | hw
  · -- the areas before the one that was found do not meet the range
    have hout : ¬ w.meets start stop = true := by
      have := hA w hw
      simpa using this
    rw [meets_iff] at hout
    omega
  · rcases List.mem_cons.mp hw with rfl | hw
    · omega
    · have hord := h.ordered
      rw [hvmas] at hord
      have hle := (List.pairwise_cons.mp (List.pairwise_append.mp hord).2.1).1 w hw
      omega

/-- INTERNAL: `vma_find` finds nothing where nothing is mapped. -/
theorem vmaFind_eq_none_iff (h : ListOk mm.vmas) (hlt : start.toNat < stop.toNat) :
    vmaFind mm start stop = none ↔
      ∀ a, start.toNat ≤ a → a < stop.toNat → listMeaning mm.vmas a = none := by
  constructor
  · intro hnone a hlo hhi
    refine listMeaning_eq_none fun v hv hcon => ?_
    have hout : ¬ v.meets start stop = true := by
      have := List.find?_eq_none.mp hnone v hv
      exact this
    rw [meets_iff] at hout
    omega
  · intro hfree
    cases hfind : vmaFind mm start stop with
    | none => rfl
    | some v =>
      obtain ⟨hbelow, hmapped, -⟩ := vmaFind_first h hfind
      rw [hfree _ (le_max_left _ _) (max_lt hlt hbelow)] at hmapped
      cases hmapped

/-- INTERNAL: what two lists with the same meaning find in a range begins at the same address of
the range and has the same flags. -/
theorem vmaFind_congr {v' : VmArea} (h : ListOk mm.vmas) (h' : ListOk mm'.vmas)
    (hmeaning : listMeaning mm'.vmas = listMeaning mm.vmas)
    (hfind : vmaFind mm start stop = some v) (hfind' : vmaFind mm' start stop = some v') :
    max start.toNat v'.vmStart.toNat = max start.toNat v.vmStart.toNat ∧
      plainAttr v'.vmFlags = plainAttr v.vmFlags := by
  obtain ⟨-, hat, hfree⟩ := vmaFind_first h hfind
  obtain ⟨-, hat', hfree'⟩ := vmaFind_first h' hfind'
  rw [hmeaning] at hat' hfree'
  have hle : max start.toNat v.vmStart.toNat ≤ max start.toNat v'.vmStart.toNat := by
    by_contra hcon
    rw [hfree _ (le_max_left _ _) (by omega)] at hat'
    cases hat'
  have hle' : max start.toNat v'.vmStart.toNat ≤ max start.toNat v.vmStart.toNat := by
    by_contra hcon
    rw [hfree' _ (le_max_left _ _) (by omega)] at hat
    cases hat
  have heq := le_antisymm hle' hle
  rw [heq, hat] at hat'
  exact ⟨heq, (Option.some.inj hat').symm⟩

/-- INTERNAL: whether `brk` keeps its distance from the next area.
SOURCE: mm/mmap.c:262-265 -/
theorem guardGap_congr (env : MmEnv) {top : ULong} (h : ListOk mm.vmas) (h' : ListOk mm'.vmas)
    (hmeaning : listMeaning mm'.vmas = listMeaning mm.vmas) (hlt : start.toNat < stop.toNat)
    (htop : start.toNat < top.toNat) :
    (vmaFind mm' start stop).any (fun next => decide (top > vmStartGap env next)) =
      (vmaFind mm start stop).any (fun next => decide (top > vmStartGap env next)) := by
  cases hfind : vmaFind mm start stop with
  | none =>
    rw [vmaFind_eq_none_iff h hlt, ← hmeaning, ← vmaFind_eq_none_iff h' hlt] at hfind
    rw [hfind]
  | some v =>
    cases hfind' : vmaFind mm' start stop with
    | none =>
      rw [vmaFind_eq_none_iff h' hlt, hmeaning, ← vmaFind_eq_none_iff h hlt, hfind] at hfind'
      cases hfind'
    | some v' =>
      obtain ⟨hstart, hflags⟩ := vmaFind_congr h h' hmeaning hfind hfind'
      simp only [Option.any_some]
      by_cases hinside : v.vmStart.toNat ≤ start.toNat
      · -- an area over the old break is too near, wherever it begins
        have hle := vmStartGap_le env v
        have hle' := vmStartGap_le env v'
        rw [decide_eq_true (BitVec.lt_def.mpr (by omega)),
          decide_eq_true (BitVec.lt_def.mpr (by omega))]
      · have hsame : v'.vmStart = v.vmStart := BitVec.eq_of_toNat_eq (by omega)
        have hgrows : hasFlag v'.vmFlags VM_GROWSDOWN = hasFlag v.vmFlags VM_GROWSDOWN := by
          have hclear := congrArg (fun attr => hasFlag attr.flags VM_GROWSDOWN) hflags
          simp only [plainAttr] at hclear
          rwa [hasFlag_clear _ VM_SOFTDIRTY VM_GROWSDOWN (by decide),
            hasFlag_clear _ VM_SOFTDIRTY VM_GROWSDOWN (by decide)] at hclear
        unfold vmStartGap
        rw [hsame, hgrows]

end Congr

/-! ## Counters -/

/-- The counters of an address space that is a list. What is committed is not part of it. -/
def mmCounters (mm : MmStruct) : Counters where
  brk := mm.brk
  startBrk := mm.startBrk
  startData := mm.startData
  endData := mm.endData
  totalVm := mm.totalVm
  execVm := mm.execVm
  stackVm := mm.stackVm
  dataVm := mm.dataVm
  lockedVm := mm.lockedVm
  defFlags := mm.defFlags
  committed := 0

/-- The areas are in order, and every counter is the number of the pages of its class. -/
structure ListSpace (mm : MmStruct) : Prop where
  ok : ListOk mm.vmas
  counters : ∀ k : PageClass,
    k.counter (mmCounters mm) = BitVec.ofNat 64 (listPages k.holds mm.vmas)

section Counters

variable {mm : MmStruct} {start stop : ULong}

/-- INTERNAL: the two `vm_stat_account` are one function.
SOURCE: mm/mmap.c:3503-3513 -/
theorem mmCounters_vmStatAccount (mm : MmStruct) (flags npages : ULong) :
    mmCounters (vmStatAccount mm flags npages) = (mmCounters mm).vmStatAccount flags npages := by
  unfold vmStatAccount Counters.vmStatAccount
  dsimp only
  split_ifs <;> rfl

/-- INTERNAL: `mm->locked_vm += npages`. -/
theorem mmCounters_lockedVm (mm : MmStruct) (npages : ULong) :
    mmCounters { mm with lockedVm := mm.lockedVm + npages } = (mmCounters mm).addLockedVm npages :=
  rfl

/-- INTERNAL: taking one piece off the counters is counting its pages backwards. -/
theorem mmCounters_removeMt_one (mm : MmStruct) (v : VmArea) :
    mmCounters (removeMt mm [v]) = countMapped (mmCounters mm) v.vmFlags (-vmaPages v) := by
  unfold removeMt countMapped
  simp only [List.foldl_cons, List.foldl_nil]
  split_ifs
  · rw [sub_eq_add_neg, mmCounters_lockedVm, mmCounters_vmStatAccount]
  · rw [mmCounters_vmStatAccount]

/-- INTERNAL: `remove_mt` takes the pages of the pieces off every counter.
SOURCE: mm/mmap.c:2298-2314 -/
theorem counter_removeMt (k : PageClass) (mm : MmStruct) (pieces : List VmArea) :
    k.counter (mmCounters (removeMt mm pieces)) =
        k.counter (mmCounters mm) - BitVec.ofNat 64 (listPages k.holds pieces) ∧
      layout (mmCounters (removeMt mm pieces)) = layout (mmCounters mm) := by
  induction pieces generalizing mm with
  | nil => exact ⟨(sub_zero _).symm, rfl⟩
  | cons v pieces ih =>
    have hstep : removeMt mm (v :: pieces) = removeMt (removeMt mm [v]) pieces := rfl
    obtain ⟨hrest, hlayout⟩ := ih (removeMt mm [v])
    rw [hstep, hrest, hlayout, mmCounters_removeMt_one, counter_countMapped, countMapped_layout,
      listPages_cons, BitVec.ofNat_add]
    refine ⟨?_, rfl⟩
    split_ifs
    · rw [BitVec.ofNat_toNat, BitVec.setWidth_eq]
      ring
    · rw [add_zero, BitVec.zero_add]

/-- INTERNAL: the end of `mmap_region` counts the pages as the flags that are left to them say.
SOURCE: mm/mmap.c:2943-2954 -/
theorem mmCounters_accountRegion (env : MmEnv) (mm : MmStruct) (vmFlags pages : ULong) :
    mmCounters (accountRegion env mm vmFlags pages) =
      countMapped (mmCounters mm) (settledFlags env vmFlags) pages := by
  unfold accountRegion
  dsimp only
  by_cases hlocked : hasFlag vmFlags VM_LOCKED = true
  · by_cases hcounts : env.countsLocked = true
    · have hsettled : settledFlags env vmFlags = vmFlags := if_neg fun hcon => hcon.2 hcounts
      rw [if_pos ⟨hlocked, hcounts⟩, hsettled, countMapped, if_pos hlocked, mmCounters_lockedVm,
        mmCounters_vmStatAccount]
    · have hsettled : settledFlags env vmFlags = vmFlags &&& ~~~ VM_LOCKED_MASK :=
        if_pos ⟨hlocked, hcounts⟩
      rw [if_neg (fun hcon => hcounts hcon.2), hsettled, countMapped, hasFlag_clear_locked,
        if_neg Bool.false_ne_true, mmCounters_vmStatAccount,
        vmStatAccount_clear _ vmFlags pages VM_LOCKED_MASK PageClass.mask_locked]
  · have hsettled : settledFlags env vmFlags = vmFlags := if_neg fun hcon => hlocked hcon.1
    rw [if_neg (fun hcon => hlocked hcon.1), hsettled, countMapped, if_neg hlocked,
      mmCounters_vmStatAccount]

/-- INTERNAL: unmapping keeps the counters exact.
SOURCE: mm/mmap.c:2529-2678 -/
theorem ListSpace.unmapped (h : ListSpace mm) (hr : PageRange start stop) (mapCount : ℤ) :
    ListSpace { removeMt mm (detached mm start stop) with
      vmas := mm.vmas.flatMap (fun v => v.cut start stop), mapCount := mapCount } := by
  refine ⟨h.ok.cut hr, fun k => ?_⟩
  have hsplit := detached_cut_eq (f := k.holds) h.ok.area hr
  have hremove := (counter_removeMt k mm (detached mm start stop)).1
  have hsame : k.counter (mmCounters { removeMt mm (detached mm start stop) with
      vmas := mm.vmas.flatMap (fun v => v.cut start stop), mapCount := mapCount }) =
      k.counter (mmCounters (removeMt mm (detached mm start stop))) := rfl
  rw [hsame, hremove, h.counters k, ← hsplit, BitVec.ofNat_add]
  ring

/-- INTERNAL: mapping a free range keeps the counters exact. -/
theorem ListSpace.mapped {mm' : MmStruct} {v : VmArea} (h : ListSpace mm)
    (hr : PageRange v.vmStart v.vmEnd)
    (hfree : ∀ a, v.vmStart.toNat ≤ a → a < v.vmEnd.toNat → listMeaning mm.vmas a = none)
    (hvmas : mm'.vmas = insertVma mm v)
    (hcounters : ∀ k : PageClass, k.counter (mmCounters mm') =
      k.counter (countMapped (mmCounters mm) v.vmFlags (vmaPages v))) :
    ListSpace mm' ∧ listMeaning mm'.vmas =
      (listMeaning mm.vmas).assign v.vmStart.toNat v.vmEnd.toNat (plainAttr v.vmFlags) := by
  have hapart : ∀ w ∈ mm.vmas,
      v.vmEnd.toNat ≤ w.vmStart.toNat ∨ w.vmEnd.toNat ≤ v.vmStart.toNat := by
    intro w hw
    have hself := (h.ok.area w hw).lt
    have hlt := hr.lt
    by_contra hcon
    have hmapped := h.ok.listMeaning_of_mem hw (a := max v.vmStart.toNat w.vmStart.toNat)
      (by omega) (by omega)
    rw [hfree _ (by omega) (by omega)] at hmapped
    cases hmapped
  refine ⟨⟨hvmas ▸ h.ok.insert hr hapart, fun k => ?_⟩,
    hvmas ▸ listMeaning_insertVma mm v hapart⟩
  have hperm : listPages k.holds (insertVma mm v) = listPages k.holds (v :: mm.vmas) :=
    (((insertVma_perm mm v).map _).map _).sum_eq
  rw [hcounters k, counter_countMapped, h.counters k, hvmas, hperm, listPages_cons,
    BitVec.ofNat_add]
  split_ifs
  · rw [BitVec.ofNat_toNat, BitVec.setWidth_eq, add_comm]
  · rw [BitVec.ofNat_eq_ofNat, add_comm]

end Counters

end UsacKernel.Analysis
