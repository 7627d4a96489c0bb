import UsacKernel.Analysis.PageCounts
import UsacKernel.Model.AreaMap

/-!
# Expanding a neighbour

`vma_expand` grows one area over a free range, and over the area behind it when that becomes part
of it. It is a merge whose plan the caller has made, so its effect is read off from the cases of
`vma_merge` (`vmaExpand_cases`). `mmap_region` makes this plan by itself and without the memory
policy, the userfaultfd context and the name of a range; `expandRegion_outcome` says that this
comes to the same as a merge.
-/

set_option autoImplicit false

namespace UsacKernel.Analysis

open UsacKernel.Computation UsacKernel.Model UsacKernel.Interface IndexedHeap

section Expand

variable {as : AddressSpace} {vma : Ptr} {start stop pgoff : ULong} {next : Option Ptr}

/-- INTERNAL: `dup_anon_vma` for the area that will be removed, if there is one. -/
theorem expandDup_cases (cloneFails : Bool) (hok : AreaOk (as.heap vma)) (removeNext : Option Ptr) :
    (∃ e, expandDup cloneFails as vma removeNext = (some e, as, none)) ∨
      ∃ dup, expandDup cloneFails as vma removeNext =
          (none, as.modify vma (fun v => withAnonOf v (as.heap (removeNext.getD vma))), dup) ∧
        undoDup (as.modify vma (fun v => withAnonOf v (as.heap (removeNext.getD vma)))) dup =
          as := by
  cases removeNext with
  | some n => exact dupAnonVma_cases cloneFails as vma n hok.chain
  | none =>
    have hself : as.modify vma (fun v => withAnonOf v (as.heap vma)) = as :=
      as.modify_self vma _ (withAnonOf_self _)
    refine Or.inr ⟨none, ?_, ?_⟩
    · rw [Option.getD_none, hself]
      rfl
    · rw [Option.getD_none, hself]
      rfl

/-- INTERNAL: the rest of `vma_expand` carries out a plan. -/
theorem expandCommit_eq {removeNext : Option Ptr} (preallocFails : Bool) (dup : Option Ptr)
    (hgrows : start < (as.heap vma).vmStart ∨ (as.heap vma).vmEnd < stop)
    (hstart : start.toNat ≤ (as.heap vma).vmStart.toNat)
    (hstop : (as.heap vma).vmEnd.toNat ≤ stop.toNat)
    (hnext : removeNext = none → ∀ n ∈ next, n ≠ vma → stop.toNat ≤ (as.heap n).vmStart.toNat) :
    expandCommit preallocFails as dup vma start stop pgoff next removeNext =
      if preallocFails then (some ENOMEM, undoDup as dup)
      else (none, applyPlan as ⟨vma, vma, start, stop, pgoff, none, 0, removeNext, none⟩) := by
  have hwarn1 : ¬ (removeNext = none ∧
      next.any (fun n => decide (n ≠ vma ∧ stop > (as.heap n).vmStart)) = true) := by
    rintro ⟨hnone, hany⟩
    obtain ⟨n, hn, hcond⟩ := (Option.any_eq_true _ _).mp hany
    obtain ⟨hne, hgt⟩ := of_decide_eq_true hcond
    have hle := hnext hnone n hn hne
    have hgt' := BitVec.lt_def.mp hgt
    omega
  have hwarn2 : ¬ ((as.heap vma).vmStart < start ∨ (as.heap vma).vmEnd > stop) := by
    rintro (hlt | hgt)
    · have hlt' := BitVec.lt_def.mp hlt
      omega
    · have hgt' := BitVec.lt_def.mp hgt
      omega
  unfold expandCommit applyPlan
  simp only [AddressSpace.warnOn_of_not as hwarn1, AddressSpace.warnOn_of_not as hwarn2,
    Option.any_none, hgrows, decide_true, if_true, adjustNeighbour]
  rw [AddressSpace.warnOn_of_not as (by simp)]

/-- INTERNAL: `vma_expand` fails and changes nothing, or carries out its plan.
SOURCE: mm/mmap.c:640-685 -/
theorem vmaExpand_cases (pgoff : ULong) (ans : MergeAnswers) (hok : AreaOk (as.heap vma))
    (hgrows : start < (as.heap vma).vmStart ∨ (as.heap vma).vmEnd < stop)
    (hstart : start.toNat ≤ (as.heap vma).vmStart.toNat)
    (hstop : (as.heap vma).vmEnd.toNat ≤ stop.toNat) {removeNext : Option Ptr}
    (hremove : next.filter (fun n => decide (n ≠ vma ∧ stop = (as.heap n).vmEnd)) = removeNext)
    (hnext : removeNext = none → ∀ n ∈ next, n ≠ vma → stop.toNat ≤ (as.heap n).vmStart.toNat) :
    (∃ e, vmaExpand ans as vma start stop pgoff next = (some e, as)) ∨
      vmaExpand ans as vma start stop pgoff next =
        (none, applyPlan (as.modify vma (fun v => withAnonOf v (as.heap (removeNext.getD vma))))
          ⟨vma, vma, start, stop, pgoff, none, 0, removeNext, none⟩) := by
  unfold vmaExpand
  simp only [hremove]
  rcases expandDup_cases ans.cloneFails hok removeNext with ⟨e, heq⟩ | ⟨dup, heq, hundo⟩
  · rw [heq]
    exact Or.inl ⟨e, rfl⟩
  · rw [heq]
    dsimp only
    rw [expandCommit_eq]
    · split_ifs
      · exact Or.inl ⟨ENOMEM, by rw [hundo]⟩
      · exact Or.inr rfl
    · simpa using hgrows
    · simpa using hstart
    · simpa using hstop
    · intro hnone n hn hne
      rw [AddressSpace.modify_heap_of_ne _ _ _ hne]
      exact hnext hnone n hn hne

end Expand

/-! ## The attempt of `mmap_region` -/

/-- What `mmap_region` asks for, as a request to merge. -/
def regionMerge (req : RegionRequest) : MergeRequest where
  addr := req.addr
  stop := req.stop
  vmFlags := req.vmFlags
  anonVma := none
  file := req.file
  pgoff := req.pgoff
  policy := none
  uffdCtx := none
  anonName := none

section Region

variable {as : AddressSpace} {A B : List Cell} {prev next : Option Ptr} {req : RegionRequest}

/-- INTERNAL: the merge of `mmap_region` has the pages of the request. -/
theorem regionMerge_pglen : (regionMerge req).pglen = req.pglen := by
  unfold MergeRequest.pglen RegionRequest.pglen
  refine congrArg bytesToPages ?_
  show req.addr + req.len - req.addr = req.len
  ring

/-- INTERNAL: the test of the next area is that of `vma_merge`. -/
theorem expandsNext_joins {n : Ptr} (h : as.expandsNext req n = true) :
    (as.heap n).vmStart = req.stop ∧ joinsNext as (regionMerge req) n = true := by
  simp only [AddressSpace.expandsNext, Bool.and_eq_true, decide_eq_true_eq] at h
  obtain ⟨⟨hstart, hpolicy⟩, hmerge⟩ := h
  refine ⟨hstart, ?_⟩
  unfold joinsNext
  rw [regionMerge_pglen, Bool.and_eq_true]
  exact ⟨decide_eq_true (Option.isNone_iff_eq_none.mp hpolicy).symm, hmerge⟩

/-- INTERNAL: the test of the previous area is that of `vma_merge`, with the `anon_vma` of the
next area if that is joined as well. -/
theorem expandsPrev_joins {p : Ptr} (vma : Option Ptr) (h : as.expandsPrev req vma p = true)
    (huffd : ∀ n ∈ vma, (as.heap n).vmUserfaultfdCtx = none) :
    joinsPrev as { regionMerge req with anonVma := vma.bind (fun n => (as.heap n).anonVma) } p =
      true := by
  unfold AddressSpace.expandsPrev at h
  rw [Bool.and_eq_true, Bool.and_eq_true] at h
  obtain ⟨⟨hend, hpolicy⟩, hmerge⟩ := h
  unfold joinsPrev
  rw [Bool.and_eq_true, Bool.and_eq_true]
  refine ⟨⟨decide_eq_true (of_decide_eq_true hend).symm,
    decide_eq_true (Option.isNone_iff_eq_none.mp hpolicy)⟩, ?_⟩
  cases vma with
  | none => exact hmerge
  | some n =>
    dsimp only at hmerge
    rw [huffd n rfl] at hmerge
    exact hmerge

/-- INTERNAL: the next area, as an area. -/
theorem next_cases (hnext : next = B.head?.map Prod.fst) :
    (B = [] ∧ next = none) ∨ ∃ n u B', B = (n, u) :: B' ∧ next = some n := by
  cases B with
  | nil => exact Or.inl ⟨rfl, hnext⟩
  | cons d B' => exact Or.inr ⟨d.1, d.2, B', rfl, hnext⟩

/-- INTERNAL: the next area that can be expanded. -/
theorem expanded_next {n : Ptr} (h : Holds as (A ++ B)) (hr : PageRange req.addr req.stop)
    (hnext : next = B.head?.map Prod.fst) (hn : next.filter (as.expandsNext req) = some n) :
    ∃ u B', B = (n, u) :: B' ∧ u.vmStart = req.stop ∧
      areaAttr u = requestAttr (regionMerge req) := by
  obtain ⟨hsome, hexpands⟩ := Option.filter_eq_some_iff.mp hn
  rcases next_cases hnext with ⟨_, hnone⟩ | ⟨q, u, B', rfl, hq⟩
  · rw [hnone] at hsome
    cases hsome
  · rw [hq] at hsome
    obtain rfl := Option.some.inj hsome
    have hread : as.heap q = u := h.read (c := (q, u)) (by simp)
    obtain ⟨hstart, hjoins⟩ := expandsNext_joins hexpands
    have hattr := (joinsNext_attr hjoins hstart hr.addrPage hr.lt.le).1
    rw [hread] at hstart hattr
    exact ⟨u, B', rfl, hstart, hattr⟩

/-- INTERNAL: the previous area that can be expanded. -/
theorem expanded_prev {p : Ptr} (vma : Option Ptr) (h : Holds as (A ++ B))
    (hprev : prev = A.getLast?.map Prod.fst)
    (huffd : ∀ n ∈ vma, (as.heap n).vmUserfaultfdCtx = none)
    (hp : prev.filter (as.expandsPrev req vma) = some p) :
    ∃ A' v, A = A' ++ [(p, v)] ∧ v.vmEnd = req.addr ∧
      areaAttr v = requestAttr (regionMerge req) ∧
      Compatible (vma.bind (fun n => (as.heap n).anonVma)) v.anonVma := by
  have hjoins : prev.filter (joinsPrev as
      { regionMerge req with anonVma := vma.bind (fun n => (as.heap n).anonVma) }) = some p := by
    obtain ⟨hsome, hexpands⟩ := Option.filter_eq_some_iff.mp hp
    exact Option.filter_eq_some_iff.mpr ⟨hsome, expandsPrev_joins vma hexpands huffd⟩
  exact joined_prev h hprev hjoins

/-- INTERNAL: `vma_expand` as it is called by `mmap_region`. -/
theorem expand_outcome {vma : Ptr} {start stop pgoff : ULong} {cells : List Cell}
    {mreq : MergeRequest} (removeNext : Option Ptr) (ans : MergeAnswers)
    (hok : AreaOk (as.heap vma))
    (hgrows : start < (as.heap vma).vmStart ∨ (as.heap vma).vmEnd < stop)
    (hstart : start.toNat ≤ (as.heap vma).vmStart.toNat)
    (hstop : (as.heap vma).vmEnd.toNat ≤ stop.toNat)
    (hremove : next.filter (fun n => decide (n ≠ vma ∧ stop = (as.heap n).vmEnd)) = removeNext)
    (hnext : removeNext = none → ∀ n ∈ next, n ≠ vma → stop.toNat ≤ (as.heap n).vmStart.toNat)
    (hmerged : ∃ cells', MergedInto as (applyPlan
        (as.modify vma (fun v => withAnonOf v (as.heap (removeNext.getD vma))))
        ⟨vma, vma, start, stop, pgoff, none, 0, removeNext, none⟩) cells mreq vma cells') :
    MergeOutcome as cells mreq
      (match vmaExpand ans as vma start stop pgoff next with
      | (none, as) => (some vma, as)
      | (some _, as) => (none, as)) := by
  rcases vmaExpand_cases pgoff ans hok hgrows hstart hstop hremove hnext with
    ⟨e, heq⟩ | heq
  · rw [heq]
    exact Or.inl rfl
  · obtain ⟨cells', hmerged⟩ := hmerged
    rw [heq]
    exact Or.inr ⟨vma, _, cells', rfl, hmerged⟩

/-- INTERNAL: the attempt to expand a neighbour over a free range ends as an attempt to merge
does.
SOURCE: mm/mmap.c:2793-2824 -/
theorem expandRegion_outcome (ans : MergeAnswers) (h : Holds as (A ++ B))
    (hr : PageRange req.addr req.stop)
    (hB : ∀ c ∈ B, req.stop.toNat ≤ c.2.vmStart.toNat)
    (hA : ∀ c ∈ A, c.2.vmEnd.toNat ≤ req.addr.toNat)
    (hprev : prev = A.getLast?.map Prod.fst) (hnext : next = B.head?.map Prod.fst) :
    MergeOutcome as (A ++ B) (regionMerge req) (as.expandRegion ans prev next req) := by
  have hlt := hr.lt
  unfold AddressSpace.expandRegion
  dsimp only
  cases hvma : next.filter (as.expandsNext req) with
  | none =>
    cases hp : prev.filter (as.expandsPrev req none) with
    | none => exact Or.inl rfl
    | some p =>
      obtain ⟨A', v, rfl, hend, hattr, -⟩ := expanded_prev none h hprev (by simp) hp
      have hread : as.heap p = v := h.read (c := (p, v)) (by simp)
      have hv := h.lt (c := (p, v)) (by simp)
      have hend' := congrArg BitVec.toNat hend
      dsimp only at hv
      -- the next area begins behind the range
      have hbehind : ∀ n ∈ next, req.stop.toNat ≤ (as.heap n).vmStart.toNat ∧
          req.stop.toNat < (as.heap n).vmEnd.toNat := by
        intro n hn
        rcases next_cases hnext with ⟨_, hnone⟩ | ⟨q, u, B', rfl, hq⟩
        · rw [hnone] at hn
          cases hn
        · rw [hq] at hn
          obtain rfl := Option.some.inj hn
          rw [h.read (c := (q, u)) (by simp)]
          have hle := hB (q, u) (by simp)
          have hu := h.lt (c := (q, u)) (by simp)
          exact ⟨hle, lt_of_le_of_lt hle hu⟩
      have hremove : next.filter
          (fun n => decide (n ≠ p ∧ req.stop = (as.heap n).vmEnd)) = none := by
        rw [Option.filter_eq_none_iff]
        intro n hn hcond
        have heq := congrArg BitVec.toNat (of_decide_eq_true hcond).2
        have := (hbehind n hn).2
        omega
      refine expand_outcome none ans (hread ▸ h.ok (p, v) (by simp)) ?_ le_rfl ?_ hremove
        (fun _ n hn _ => (hbehind n hn).1) ?_
      · refine Or.inr (BitVec.lt_def.mpr ?_)
        rw [hread]
        show v.vmEnd.toNat < req.stop.toNat
        omega
      · rw [hread]
        show v.vmEnd.toNat ≤ req.stop.toNat
        omega
      · have hup := mergedInto_up (regionMerge req) h hr hend hattr hB
        rw [hread] at hup
        rw [Option.getD_none, hread]
        exact ⟨_, hup⟩
  | some n =>
    obtain ⟨u, B', rfl, hstart, hattrn⟩ := expanded_next h hr hnext hvma
    have hsome := (Option.filter_eq_some_iff.mp hvma).1
    have hreadn : as.heap n = u := h.read (c := (n, u)) (by simp)
    have hu := h.lt (c := (n, u)) (by simp)
    have hstart' := congrArg BitVec.toNat hstart
    dsimp only at hu
    have huffd : ∀ m ∈ some n, (as.heap m).vmUserfaultfdCtx = none := by
      rintro _ ⟨⟩
      rw [hreadn]
      exact congrArg PageAttr.uffdCtx hattrn
    cases hp : prev.filter (as.expandsPrev req (some n)) with
    | none =>
      have hcells : A ++ (n, u) :: B' = A ++ [(n, u)] ++ B' := by simp
      rw [hcells] at h ⊢
      refine expand_outcome none ans (hreadn ▸ h.ok (n, u) (by simp)) ?_ ?_
        le_rfl ?_ ?_ ?_
      · refine Or.inl (BitVec.lt_def.mpr ?_)
        rw [hreadn]
        omega
      · rw [hreadn]
        omega
      · rw [hsome, Option.filter_eq_none_iff]
        rintro _ ⟨⟩ hcond
        exact (of_decide_eq_true hcond).1 rfl
      · rw [hsome]
        rintro - _ ⟨⟩ hne
        exact absurd rfl hne
      · have hdown := mergedInto_down (regionMerge req) h hr hA hstart hattrn
        rw [regionMerge_pglen, hreadn] at hdown
        show ∃ cells', MergedInto as (applyPlan (as.modify n fun x => withAnonOf x (as.heap n))
          ⟨n, n, req.addr, (as.heap n).vmEnd, (as.heap n).vmPgoff - req.pglen, none, 0, none, none⟩)
          _ _ _ cells'
        rw [hreadn]
        exact ⟨_, hdown⟩
    | some p =>
      obtain ⟨A', v, rfl, hend, hattr, hanon⟩ := expanded_prev (some n) h hprev huffd hp
      have hread : as.heap p = v := h.read (c := (p, v)) (by simp)
      have hv := h.lt (c := (p, v)) (by simp)
      have hend' := congrArg BitVec.toNat hend
      dsimp only at hv
      have hne : n ≠ p := h.rep.ne (c := (p, v)) (d := (n, u)) (by simp) (by simp) |>.symm
      have hcells : A' ++ [(p, v)] ++ (n, u) :: B' = A' ++ [(p, v), (n, u)] ++ B' := by simp
      rw [hcells] at h ⊢
      refine expand_outcome (some n) ans (hread ▸ h.ok (p, v) (by simp)) ?_ le_rfl ?_
        ?_ (fun hnone => by cases hnone) ?_
      · refine Or.inr (BitVec.lt_def.mpr ?_)
        rw [hread]
        show v.vmEnd.toNat < (as.heap n).vmEnd.toNat
        rw [hreadn]
        omega
      · rw [hread]
        show v.vmEnd.toNat ≤ (as.heap n).vmEnd.toNat
        rw [hreadn]
        omega
      · rw [hsome, Option.filter_some]
        exact if_pos (decide_eq_true ⟨hne, rfl⟩)
      · have hcompatible : Compatible v.anonVma u.anonVma := by
          have hboth : Compatible (as.heap n).anonVma v.anonVma := hanon
          rw [hreadn] at hboth
          exact hboth.symm
        have hover := mergedInto_over (regionMerge req) h hr hend hattr hstart hattrn
          hcompatible
        rw [hread]
        show ∃ cells', MergedInto as (applyPlan (as.modify p fun x => withAnonOf x (as.heap n))
          ⟨p, p, v.vmStart, (as.heap n).vmEnd, v.vmPgoff, none, 0, some n, none⟩) _ _ _ cells'
        rw [hreadn] at hover ⊢
        exact ⟨_, hover⟩

end Region

end UsacKernel.Analysis
