import UsacKernel.Analysis.MergeCases

/-!
# `vma_merge`

`vma_merge` is called for a range that is not mapped, or that lies inside one area which is
about to change (`MergeSite`). From the tree it finds the area that is to change and the
successor (`mergeCurr_eq`, `mergeNext_cases`), and one of the eight cases applies. Whatever the
case and whichever allocation fails, the outcome is that of `vmaMerge_outcome`.
-/

set_option autoImplicit false

namespace UsacKernel.Analysis

open UsacKernel.Computation UsacKernel.Model UsacKernel.Interface IndexedHeap

/-- The situations in which `vma_merge` is called, with the area before the range. -/
inductive MergeSite (cells : List Cell) (prev : Option Ptr) (req : MergeRequest) : Prop where
  /-- `mmap`, `brk` and `mremap`: nothing is mapped in the range. -/
  | unmapped (A B : List Cell) (hcells : cells = A ++ B)
      (hA : ∀ c ∈ A, c.2.vmEnd.toNat ≤ req.addr.toNat)
      (hB : ∀ c ∈ B, req.stop.toNat ≤ c.2.vmStart.toNat)
      (hprev : prev = A.getLast?.map Prod.fst)
  /-- `mprotect` and the like: the range starts an area and keeps its file, page and
  `anon_vma`. -/
  | atStart (A : List Cell) (c : Ptr) (w : VmAreaStruct) (B : List Cell)
      (hcells : cells = A ++ [(c, w)] ++ B) (hstart : w.vmStart = req.addr)
      (hstop : req.stop.toNat ≤ w.vmEnd.toNat) (hprev : prev = A.getLast?.map Prod.fst)
      (hanon : req.anonVma = w.anonVma) (hpgoff : req.pgoff = w.vmPgoff)
  /-- The same for a range that begins inside an area, which is then `prev`. -/
  | inside (A : List Cell) (p : Ptr) (v : VmAreaStruct) (B : List Cell)
      (hcells : cells = A ++ [(p, v)] ++ B) (hstart : v.vmStart.toNat < req.addr.toNat)
      (hstop : req.stop.toNat ≤ v.vmEnd.toNat) (hprev : prev = some p)
      (hanon : req.anonVma = v.anonVma)
      (hpgoff : req.pgoff = v.vmPgoff + bytesToPages (req.addr - v.vmStart))

section Neighbours

variable {as : AddressSpace} {A K B : List Cell} {req : MergeRequest} {prev : Option Ptr}

/-- INTERNAL: the last area of a part of the list ends it. -/
theorem Holds.le_last (h : Holds as (A ++ B)) {d : Cell} (hd : A.getLast? = some d) :
    ∀ c ∈ A, c.2.vmEnd.toNat ≤ d.2.vmEnd.toNat := by
  obtain ⟨A', rfl⟩ := List.getLast?_eq_some_iff.mp hd
  have hlt := h.lt (c := d) (by simp)
  intro c hc
  rcases List.mem_append.mp hc with hc | hc
  · have hle := h.assoc.le (d := d) hc (by simp)
    omega
  · rw [List.mem_singleton.mp hc]

/-- INTERNAL: the predecessor, as an area. -/
theorem prev_cases (hprev : prev = A.getLast?.map Prod.fst) :
    (A = [] ∧ prev = none) ∨ ∃ A' p v, A = A' ++ [(p, v)] ∧ prev = some p := by
  cases hlast : A.getLast? with
  | none =>
    rw [hlast] at hprev
    exact Or.inl ⟨List.getLast?_eq_none_iff.mp hlast, hprev⟩
  | some d =>
    obtain ⟨A', rfl⟩ := List.getLast?_eq_some_iff.mp hlast
    rw [hlast] at hprev
    exact Or.inr ⟨A', d.1, d.2, rfl, hprev⟩

/-- INTERNAL: the areas up to the predecessor do not count for `curr`. -/
theorem prevEnd_le (h : Holds as (A ++ B)) (hprev : prev = A.getLast?.map Prod.fst) :
    ∀ c ∈ A, c.2.vmEnd.toNat ≤ (prev.elim 0 (fun p => (as.heap p).vmEnd)).toNat := by
  rcases prev_cases hprev with ⟨rfl, _⟩ | ⟨A', p, v, rfl, rfl⟩
  · simp
  · have hread : as.heap p = v := h.read (c := (p, v)) (by simp)
    intro c hc
    show c.2.vmEnd.toNat ≤ (as.heap p).vmEnd.toNat
    rw [hread]
    exact h.le_last (d := (p, v)) (by simp) c hc

/-- INTERNAL: the predecessor is an area of the first part. -/
theorem prev_mem (h : Holds as (A ++ B)) (hprev : prev = A.getLast?.map Prod.fst) :
    ∀ p ∈ prev, (p, as.heap p) ∈ A := by
  intro p hp
  rcases prev_cases hprev with ⟨rfl, rfl⟩ | ⟨A', q, v, rfl, rfl⟩
  · cases hp
  · obtain rfl := Option.some.inj hp
    rw [h.read (c := (q, v)) (by simp)]
    simp

/-- INTERNAL: the previous area ends at or below the request. -/
theorem prevEnd_le_addr (h : Holds as (A ++ B)) (hprev : prev = A.getLast?.map Prod.fst)
    (hA : ∀ c ∈ A, c.2.vmEnd.toNat ≤ req.addr.toNat) :
    ∀ p ∈ prev, (as.heap p).vmEnd.toNat ≤ req.addr.toNat :=
  fun p hp => hA _ (prev_mem h hprev p hp)

/-- INTERNAL: the previous area starts below the request. -/
theorem prevStart_lt (h : Holds as (A ++ B)) (hprev : prev = A.getLast?.map Prod.fst)
    (hA : ∀ c ∈ A, c.2.vmEnd.toNat ≤ req.addr.toNat) :
    ∀ p ∈ prev, (as.heap p).vmStart.toNat < req.addr.toNat := fun p hp =>
  lt_of_lt_of_le (h.lt (List.mem_append_left B (prev_mem h hprev p hp)))
    (prevEnd_le_addr h hprev hA p hp)

/-- INTERNAL: nothing is found as `curr` when nothing lies in the range. -/
theorem mergeCurr_unmapped (h : Holds as (A ++ B)) (hprev : prev = A.getLast?.map Prod.fst)
    (hB : ∀ c ∈ B, req.stop.toNat ≤ c.2.vmStart.toNat) : mergeCurr as prev req = none := by
  unfold mergeCurr AddressSpace.findVmaIntersection
  rw [h.rep.find, Option.map_eq_none_iff, List.find?_eq_none]
  intro c hc hmeets
  have hmeets' : _ < _ ∧ _ < c.2.vmEnd.toNat ∧ c.2.vmStart.toNat < req.stop.toNat :=
    of_decide_eq_true hmeets
  rcases List.mem_append.mp hc with hc | hc
  · have := prevEnd_le h hprev c hc
    omega
  · have := hB c hc
    omega

/-- INTERNAL: the area that starts with the range is found as `curr`. -/
theorem mergeCurr_atStart {c : Ptr} {w : VmAreaStruct} (h : Holds as (A ++ [(c, w)] ++ B))
    (hlt : req.addr.toNat < req.stop.toNat) (hprev : prev = A.getLast?.map Prod.fst)
    (hA : ∀ c ∈ A, c.2.vmEnd.toNat ≤ req.addr.toNat) (hstart : w.vmStart = req.addr)
    (hstop : req.stop.toNat ≤ w.vmEnd.toNat) : mergeCurr as prev req = some c := by
  have hle : (prev.elim 0 (fun p => (as.heap p).vmEnd)).toNat ≤ req.addr.toNat := by
    cases hp : prev with
    | none => exact Nat.zero_le _
    | some p => exact prevEnd_le_addr h.assoc hprev hA p hp
  have hstart' := congrArg BitVec.toNat hstart
  have hbelow : A.find? (fun d => (span d).meets
      (prev.elim 0 (fun p => (as.heap p).vmEnd)).toNat req.stop.toNat) = none := by
    rw [List.find?_eq_none]
    intro d hd hmeets
    have hmeets' : _ < _ ∧ _ < d.2.vmEnd.toNat ∧ d.2.vmStart.toNat < req.stop.toNat :=
      of_decide_eq_true hmeets
    have := prevEnd_le h.assoc hprev d hd
    omega
  have hhit : (span (c, w)).meets (prev.elim 0 (fun p => (as.heap p).vmEnd)).toNat
      req.stop.toNat = true := by
    refine decide_eq_true ⟨by omega, ?_, ?_⟩
    · show _ < w.vmEnd.toNat
      omega
    · show w.vmStart.toNat < req.stop.toNat
      omega
  unfold mergeCurr AddressSpace.findVmaIntersection
  rw [h.assoc.rep.find, List.find?_append, hbelow, List.singleton_append, List.find?_cons, hhit]
  rfl

/-- INTERNAL: what is found at the end of the range begins there, if nothing reaches over it. -/
theorem vmaLookup_next {x : ULong} {n : Ptr} (h : Holds as (A ++ B))
    (hA : ∀ c ∈ A, c.2.vmEnd.toNat ≤ x.toNat) (hB : ∀ c ∈ B, x.toNat ≤ c.2.vmStart.toNat)
    (hn : as.vmaLookup x = some n) : ∃ u B', B = (n, u) :: B' ∧ u.vmStart = x := by
  unfold AddressSpace.vmaLookup at hn
  rw [h.rep.lookup, Option.map_eq_some_iff] at hn
  obtain ⟨d, hd, rfl⟩ := hn
  have hbounds := recordAt_contains hd
  rcases List.mem_append.mp (recordAt_mem hd) with hmem | hmem
  · have := hA d hmem
    omega
  · obtain ⟨L, R, rfl⟩ := List.append_of_mem hmem
    have hstart := hB d hmem
    cases L with
    | nil => exact ⟨d.2, R, rfl, BitVec.eq_of_toNat_eq (by omega)⟩
    | cons e L =>
      -- an area before `d` would be empty
      exfalso
      have hle : e.2.vmEnd.toNat ≤ d.2.vmStart.toNat := by
        have hsplit : A ++ (e :: L ++ d :: R) = (A ++ e :: L) ++ (d :: R) := by simp
        rw [hsplit] at h
        exact h.le (by simp) (by simp)
      have hlt := h.lt (c := e) (by simp)
      have := hB e (by simp)
      omega

/-- INTERNAL: the predecessor that the range joins. -/
theorem joined_prev {p : Ptr} (h : Holds as (A ++ B)) (hprev : prev = A.getLast?.map Prod.fst)
    (hp : prev.filter (joinsPrev as req) = some p) :
    ∃ A' v, A = A' ++ [(p, v)] ∧ v.vmEnd = req.addr ∧ areaAttr v = requestAttr req ∧
      Compatible req.anonVma v.anonVma := by
  obtain ⟨hsome, hjoins⟩ := Option.filter_eq_some_iff.mp hp
  rcases prev_cases hprev with ⟨_, hnone⟩ | ⟨A', q, v, rfl, hq⟩
  · rw [hnone] at hsome
    cases hsome
  · rw [hq] at hsome
    obtain rfl := Option.some.inj hsome
    have hread : as.heap q = v := h.read (c := (q, v)) (by simp)
    have hattr := joinsPrev_attr hjoins (hread ▸ h.ok (q, v) (by simp))
      (hread ▸ h.lt (c := (q, v)) (by simp))
    rw [hread] at hattr
    exact ⟨A', v, rfl, hattr⟩

/-- INTERNAL: the successor that the range joins. -/
theorem joined_next {n : Ptr} (h : Holds as (A ++ B)) (hr : PageRange req.addr req.stop)
    (hA : ∀ c ∈ A, c.2.vmEnd.toNat ≤ req.stop.toNat)
    (hB : ∀ c ∈ B, req.stop.toNat ≤ c.2.vmStart.toNat)
    (hn : (as.vmaLookup req.stop).filter (joinsNext as req) = some n) :
    ∃ u B', B = (n, u) :: B' ∧ u.vmStart = req.stop ∧ areaAttr u = requestAttr req ∧
      Compatible req.anonVma u.anonVma := by
  obtain ⟨hsome, hjoins⟩ := Option.filter_eq_some_iff.mp hn
  obtain ⟨u, B', rfl, hstart⟩ := vmaLookup_next h hA hB hsome
  have hread : as.heap n = u := h.read (c := (n, u)) (by simp)
  have hattr := joinsNext_attr hjoins (hread ▸ hstart) hr.addrPage hr.lt.le
  rw [hread] at hattr
  exact ⟨u, B', rfl, hstart, hattr⟩

end Neighbours

/-! ## The three situations -/

section Sites

variable {as : AddressSpace} {A B : List Cell} {req : MergeRequest} {prev : Option Ptr}

/-- `vma_merge` without its assertions. -/
theorem vmaMerge_eq (ans : MergeAnswers) (hlt : req.addr.toNat < req.stop.toNat)
    (hprev : ∀ p ∈ prev, (as.heap p).vmStart.toNat < req.addr.toNat)
    (hcurr : ∀ c ∈ mergeCurr as prev req, (as.heap c).vmStart = req.addr ∧
      req.stop.toNat ≤ (as.heap c).vmEnd.toNat) :
    vmaMerge ans as prev req =
      if hasFlag req.vmFlags VM_SPECIAL then (none, as)
      else
        match prev.filter (joinsPrev as req),
          (mergeNext as (mergeCurr as prev req) req).filter (joinsNext as req) with
        | none, none => (none, as)
        | some p, none => commitMerge ans (planAfter ans as p (mergeCurr as prev req) req.stop)
        | some p, some n =>
          if isMergeableAnonVma (as.heap p).anonVma (as.heap n).anonVma none then
            commitMerge ans (planBoth ans as p n (mergeCurr as prev req))
          else commitMerge ans (planAfter ans as p (mergeCurr as prev req) req.stop)
        | none, some n =>
          commitMerge ans (planBefore ans as prev n (mergeCurr as prev req) req) := by
  have hwarn1 : ¬ (prev.any (fun p => decide (req.addr ≤ (as.heap p).vmStart)) = true) := by
    rw [Option.any_eq_true]
    rintro ⟨p, hp, hle⟩
    have hlt := hprev p hp
    have hle' := BitVec.le_def.mp (of_decide_eq_true hle)
    omega
  have hwarn2 : ¬ ((mergeCurr as prev req).any (fun c =>
      decide (req.addr ≠ (as.heap c).vmStart ∨ req.stop > (as.heap c).vmEnd)) = true) := by
    rw [Option.any_eq_true]
    rintro ⟨c, hc, hcond⟩
    obtain ⟨hstart, hstop⟩ := hcurr c hc
    rcases of_decide_eq_true hcond with hne | hgt
    · exact hne hstart.symm
    · have hgt' := BitVec.lt_def.mp hgt
      omega
  have hwarn3 : ¬ req.addr ≥ req.stop := by
    intro hge
    have hge' := BitVec.le_def.mp hge
    omega
  unfold vmaMerge
  dsimp only
  rewrite [AddressSpace.warnOn_of_not as hwarn1, AddressSpace.warnOn_of_not as hwarn2,
    AddressSpace.warnOn_of_not as hwarn3]
  rfl

/-- INTERNAL: `vma_merge` for a range that is not mapped yet. -/
theorem vmaMerge_unmapped (ans : MergeAnswers) (h : Holds as (A ++ B))
    (hr : PageRange req.addr req.stop) (hA : ∀ c ∈ A, c.2.vmEnd.toNat ≤ req.addr.toNat)
    (hB : ∀ c ∈ B, req.stop.toNat ≤ c.2.vmStart.toNat)
    (hprev : prev = A.getLast?.map Prod.fst) :
    MergeOutcome as (A ++ B) req (vmaMerge ans as prev req) := by
  have hprevEnd := prevEnd_le_addr h hprev hA
  have hcurr := mergeCurr_unmapped h hprev hB
  rw [vmaMerge_eq ans hr.lt (prevStart_lt h hprev hA) (by rw [hcurr]; simp), hcurr]
  have hAstop : ∀ c ∈ A, c.2.vmEnd.toNat ≤ req.stop.toNat := fun c hc =>
    (hA c hc).trans hr.lt.le
  split_ifs with hspecial
  · exact Or.inl rfl
  · have hnext : mergeNext as none req = as.vmaLookup req.stop := rfl
    rw [hnext]
    cases hp : prev.filter (joinsPrev as req) with
    | none =>
      cases hn : (as.vmaLookup req.stop).filter (joinsNext as req) with
      | none => exact Or.inl rfl
      | some n =>
        obtain ⟨u, B', rfl, hstart, hattr, _⟩ := joined_next h hr hAstop hB hn
        rw [show A ++ (n, u) :: B' = A ++ [(n, u)] ++ B' by simp] at h ⊢
        exact merge_case3 ans h hr hA hprevEnd hstart hattr
    | some p =>
      obtain ⟨A', v, rfl, hend, hattr, hanon⟩ := joined_prev h hprev hp
      cases hn : (as.vmaLookup req.stop).filter (joinsNext as req) with
      | none => exact merge_case2 ans h hr hend hattr hB
      | some n =>
        dsimp only
        split_ifs with hboth
        · obtain ⟨u, B', rfl, hstart, hattr', _⟩ := joined_next h hr hAstop hB hn
          rw [h.read (c := (p, v)) (by simp), h.read (c := (n, u)) (by simp)] at hboth
          rw [show A' ++ [(p, v)] ++ (n, u) :: B' = A' ++ [(p, v), (n, u)] ++ B' by simp] at h ⊢
          exact merge_case1 ans h hr hend hattr hstart hattr' (isMergeableAnonVma_cases hboth)
        · exact merge_case2 ans h hr hend hattr hB

/-- INTERNAL: `vma_merge` for a range at the start of a mapped area. -/
theorem vmaMerge_atStart (ans : MergeAnswers) {c : Ptr} {w : VmAreaStruct}
    (h : Holds as (A ++ [(c, w)] ++ B)) (hr : PageRange req.addr req.stop)
    (hstart : w.vmStart = req.addr) (hstop : req.stop.toNat ≤ w.vmEnd.toNat)
    (hprev : prev = A.getLast?.map Prod.fst) (hanon : req.anonVma = w.anonVma)
    (hpgoff : req.pgoff = w.vmPgoff) :
    MergeOutcome as (A ++ [(c, w)] ++ B) req (vmaMerge ans as prev req) := by
  have hread : as.heap c = w := h.read (c := (c, w)) (by simp)
  have hA : ∀ d ∈ A, d.2.vmEnd.toNat ≤ req.addr.toNat := by
    intro d hd
    rw [← hstart]
    exact h.assoc.le (d := (c, w)) hd (by simp)
  have hprevEnd := prevEnd_le_addr h.assoc hprev hA
  have hcurr := mergeCurr_atStart h hr.lt hprev hA hstart hstop
  rw [vmaMerge_eq ans hr.lt (prevStart_lt h.assoc hprev hA), hcurr]
  swap
  · rw [hcurr]
    rintro _ ⟨⟩
    rw [hread]
    exact ⟨hstart, hstop⟩
  split_ifs with hspecial
  · exact Or.inl rfl
  · by_cases hwhole : req.stop = w.vmEnd
    · have hnext : mergeNext as (some c) req = as.vmaLookup req.stop := by
        unfold mergeNext
        rw [if_pos]
        simp [hread, hwhole]
      have hAc : ∀ d ∈ A ++ [(c, w)], d.2.vmEnd.toNat ≤ req.stop.toNat := by
        intro d hd
        rcases List.mem_append.mp hd with hd | hd
        · exact (hA d hd).trans hr.lt.le
        · rw [List.mem_singleton.mp hd, hwhole]
      have hB : ∀ d ∈ B, req.stop.toNat ≤ d.2.vmStart.toNat := by
        intro d hd
        rw [hwhole]
        exact h.le (c := (c, w)) (by simp) hd
      rw [hnext]
      cases hp : prev.filter (joinsPrev as req) with
      | none =>
        cases hn : (as.vmaLookup req.stop).filter (joinsNext as req) with
        | none => exact Or.inl rfl
        | some n =>
          obtain ⟨u, B', rfl, hstartu, hattr, hanonu⟩ := joined_next h hr hAc hB hn
          rw [show A ++ [(c, w)] ++ (n, u) :: B' = A ++ [(c, w), (n, u)] ++ B' by simp] at h ⊢
          exact merge_case8 ans h hr hA hprevEnd hstart hwhole.symm hpgoff hstartu hattr
            (hanon ▸ hanonu)
      | some p =>
        obtain ⟨A', v, rfl, hend, hattr, hanonv⟩ := joined_prev h.assoc hprev hp
        have hafter : MergeOutcome as (A' ++ [(p, v)] ++ [(c, w)] ++ B) req
            (commitMerge ans (planAfter ans as p (some c) req.stop)) := by
          rw [show A' ++ [(p, v)] ++ [(c, w)] ++ B = A' ++ [(p, v), (c, w)] ++ B by simp] at h ⊢
          exact merge_case7 ans h hr hend hattr hstart hwhole.symm (hanon ▸ hanonv).symm
        cases hn : (as.vmaLookup req.stop).filter (joinsNext as req) with
        | none => exact hafter
        | some n =>
          dsimp only
          split_ifs with hboth
          · obtain ⟨u, B', rfl, hstartu, hattr', hanonu⟩ := joined_next h hr hAc hB hn
            rw [h.read (c := (p, v)) (by simp), h.read (c := (n, u)) (by simp)] at hboth
            rw [show A' ++ [(p, v)] ++ [(c, w)] ++ (n, u) :: B' =
              A' ++ [(p, v), (c, w), (n, u)] ++ B' by simp] at h ⊢
            exact merge_case6 ans h hr hend hattr hstart hwhole.symm hstartu hattr'
              (isMergeableAnonVma_cases hboth) (hanon ▸ hanonv).symm (hanon ▸ hanonu)
          · exact hafter
    · -- the range ends inside the area, so there is no successor
      have hinside : req.stop.toNat < w.vmEnd.toNat := by
        have hne : req.stop.toNat ≠ w.vmEnd.toNat := fun heq => hwhole (BitVec.eq_of_toNat_eq heq)
        omega
      have hnext : mergeNext as (some c) req = none := by
        unfold mergeNext
        rw [if_neg]
        simp [hread, hwhole]
      rw [hnext]
      cases hp : prev.filter (joinsPrev as req) with
      | none => exact Or.inl rfl
      | some p =>
        obtain ⟨A', v, rfl, hend, hattr, hanonv⟩ := joined_prev h.assoc hprev hp
        rw [show A' ++ [(p, v)] ++ [(c, w)] ++ B = A' ++ [(p, v), (c, w)] ++ B by simp] at h ⊢
        exact merge_case5 ans h hr hend hattr hstart hinside (hanon ▸ hanonv).symm

/-- INTERNAL: `vma_merge` for a range that starts within a mapped area. -/
theorem vmaMerge_inside (ans : MergeAnswers) {p : Ptr} {v : VmAreaStruct}
    (h : Holds as (A ++ [(p, v)] ++ B)) (hr : PageRange req.addr req.stop)
    (hstart : v.vmStart.toNat < req.addr.toNat) (hstop : req.stop.toNat ≤ v.vmEnd.toNat)
    (hprev : prev = some p) (hanon : req.anonVma = v.anonVma)
    (hpgoff : req.pgoff = v.vmPgoff + bytesToPages (req.addr - v.vmStart)) :
    MergeOutcome as (A ++ [(p, v)] ++ B) req (vmaMerge ans as prev req) := by
  have hread : as.heap p = v := h.read (c := (p, v)) (by simp)
  have hvok : AreaOk v := h.ok (p, v) (by simp)
  have hlt := hr.lt
  have hcurr : mergeCurr as prev req = none := by
    unfold mergeCurr AddressSpace.findVmaIntersection
    rw [h.rep.find, Option.map_eq_none_iff, List.find?_eq_none]
    intro c _ hmeets
    have hmeets' := of_decide_eq_true hmeets
    rw [hprev, Option.elim_some, hread] at hmeets'
    omega
  have hjoins : prev.filter (joinsPrev as req) = none := by
    rw [Option.filter_eq_none_iff]
    intro q hq hjoins
    rw [hprev] at hq
    obtain rfl := Option.some.inj hq
    simp only [joinsPrev, Bool.and_eq_true, decide_eq_true_eq, hread] at hjoins
    have haddr := congrArg BitVec.toNat hjoins.1.1
    omega
  rw [vmaMerge_eq ans hlt (by rw [hprev]; rintro _ ⟨⟩; rwa [hread]) (by rw [hcurr]; simp), hcurr,
    hjoins]
  split_ifs with hspecial
  · exact Or.inl rfl
  · have hnext : mergeNext as none req = as.vmaLookup req.stop := rfl
    rw [hnext]
    cases hn : (as.vmaLookup req.stop).filter (joinsNext as req) with
    | none => exact Or.inl rfl
    | some n =>
      by_cases hwhole : req.stop = v.vmEnd
      · have hAp : ∀ d ∈ A ++ [(p, v)], d.2.vmEnd.toNat ≤ req.stop.toNat := by
          intro d hd
          rw [hwhole]
          exact h.le_last (d := (p, v)) (by simp) d hd
        have hB : ∀ d ∈ B, req.stop.toNat ≤ d.2.vmStart.toNat := by
          intro d hd
          rw [hwhole]
          exact h.le (c := (p, v)) (by simp) hd
        obtain ⟨u, B', rfl, hstartu, hattr, hanonu⟩ := joined_next h hr hAp hB hn
        rw [show A ++ [(p, v)] ++ (n, u) :: B' = A ++ [(p, v), (n, u)] ++ B' by simp] at h ⊢
        rw [hprev]
        exact merge_case4 ans h hr hstart hwhole.symm hstartu hattr (hanon ▸ hanonu)
      · -- the area behind the range is the changed area itself, which starts at another page
        exfalso
        obtain ⟨hsome, hjoinsn⟩ := Option.filter_eq_some_iff.mp hn
        have hne : req.stop.toNat ≠ v.vmEnd.toNat := fun heq => hwhole (BitVec.eq_of_toNat_eq heq)
        have hself : n = p := by
          unfold AddressSpace.vmaLookup at hsome
          rw [h.rep.lookup, List.append_assoc, recordAt_append, recordAt_eq_none,
            List.singleton_append, recordAt_cons, if_pos] at hsome
          · exact (Option.some.inj hsome).symm
          · exact ⟨show v.vmStart.toNat ≤ _ by omega, show _ < v.vmEnd.toNat by omega⟩
          · intro d hd hcon
            have hle := h.assoc.le (d := (p, v)) hd (by simp)
            have hcon' : d.2.vmStart.toNat ≤ req.stop.toNat ∧ req.stop.toNat < d.2.vmEnd.toNat :=
              hcon
            dsimp only at hle
            omega
        rw [hself] at hjoinsn
        simp only [joinsNext, canVmaMergeBefore, Bool.and_eq_true, hread] at hjoinsn
        obtain ⟨_, hmerge⟩ := hjoinsn
        split_ifs at hmerge
        have hpages := of_decide_eq_true hmerge
        rw [hpgoff, MergeRequest.pglen, bytesToPages_sub hstart.le hvok.startPage,
          bytesToPages_sub hlt.le hr.addrPage] at hpages
        have hsame : bytesToPages v.vmStart = bytesToPages req.stop := by
          have hzero : bytesToPages req.stop - bytesToPages v.vmStart = 0 := by
            linear_combination -hpages
          exact (sub_eq_zero.mp hzero).symm
        have hsame' := congrArg BitVec.toNat hsame
        rw [bytesToPages_toNat, bytesToPages_toNat] at hsame'
        have := hvok.startPage
        have := hr.addrPage
        have := hr.stopPage
        omega

end Sites

/-- INTERNAL: `vma_merge` in every situation it is called in. -/
theorem vmaMerge_outcome {as : AddressSpace} {cells : List Cell} {prev : Option Ptr}
    {req : MergeRequest} (ans : MergeAnswers) (h : Holds as cells)
    (hr : PageRange req.addr req.stop) (hsite : MergeSite cells prev req) :
    MergeOutcome as cells req (vmaMerge ans as prev req) := by
  cases hsite with
  | unmapped A B hcells hA hB hprev =>
    subst hcells
    exact vmaMerge_unmapped ans h hr hA hB hprev
  | atStart A c w B hcells hstart hstop hprev hanon hpgoff =>
    subst hcells
    exact vmaMerge_atStart ans h hr hstart hstop hprev hanon hpgoff
  | inside A p v B hcells hstart hstop hprev hanon hpgoff =>
    subst hcells
    exact vmaMerge_inside ans h hr hstart hstop hprev hanon hpgoff

end UsacKernel.Analysis
