import UsacKernel.Analysis.AreaMerge

/-!
# The eight cases of `vma_merge`

A merge that succeeds has made the whole range mean what was requested, and every other address
means what it meant; the `anon_vma` of a page is not lost, tree and areas agree, and no warning
was given (`MergedInto`). A merge that fails has changed nothing. `merge_case1` to `merge_case8`
say this of the cases in the drawing above `vma_merge`, where `p`, `c` and `n` are the
predecessor, the area that is to change, and the successor.
-/

set_option autoImplicit false

namespace UsacKernel.Analysis

open UsacKernel.Computation UsacKernel.Model UsacKernel.Interface IndexedHeap

/-! ## Requests -/

/-- A range of whole pages. -/
structure PageRange (addr stop : ULong) : Prop where
  lt : addr.toNat < stop.toNat
  addrPage : addr.toNat % 4096 = 0
  stopPage : stop.toNat % 4096 = 0
  user : stop.toNat ≤ 2 ^ 56

/-- What a successful merge has done. -/
structure MergedInto (as as' : AddressSpace) (cells : List Cell) (req : MergeRequest) (q : Ptr)
    (cells' : List Cell) : Prop where
  holds : Holds as' cells'
  covers : ∃ v, (q, v) ∈ cells' ∧ v.vmStart.toNat ≤ req.addr.toNat ∧
    req.stop.toNat ≤ v.vmEnd.toNat
  joined : ∃ c ∈ cells, areaAttr c.2 = requestAttr req
  meaning : cellsMeaning cells' =
    (cellsMeaning cells).assign req.addr.toNat req.stop.toNat (requestAttr req)
  anon : ∀ a x, cellsAnonVma cells a = some x → cellsAnonVma cells' a = some x
  frame : SameFrame as as'

/-- INTERNAL: a record that is found contains the address. -/
theorem recordAt_contains {cells : List Cell} {a : ℕ} {c : Cell} (h : recordAt cells a = some c) :
    c.2.vmStart.toNat ≤ a ∧ a < c.2.vmEnd.toNat := by
  have hcontains := List.find?_some h
  exact of_decide_eq_true hcontains

section Middle

variable {as as' : AddressSpace} {A M M' B : List Cell} {req : MergeRequest} {q : Ptr}

/-- INTERNAL: pages keep their `anon_vma` when they do in the part that was rewritten. -/
theorem cellsAnonVma_keep (h' : Holds as' (A ++ M' ++ B))
    (hanon : ∀ a x, cellsAnonVma M a = some x → cellsAnonVma M' a = some x) :
    ∀ a x, cellsAnonVma (A ++ M ++ B) a = some x → cellsAnonVma (A ++ M' ++ B) a = some x := by
  intro a x hx
  rw [List.append_assoc, cellsAnonVma_append] at hx ⊢
  split_ifs at hx ⊢ with hA
  · exact hx
  · rw [cellsAnonVma_append] at hx ⊢
    split_ifs at hx with hM
    · have hM' := hanon a x hx
      have hsome : (recordAt M' a).isSome := by
        cases hrec : recordAt M' a with
        | none => simp [cellsAnonVma, hrec] at hM'
        | some c => rfl
      rw [if_pos hsome]
      exact hM'
    · -- the page is in the part above, which the rewritten part does not reach
      have hnone : recordAt M' a = none := by
        cases hrec : recordAt M' a with
        | none => rfl
        | some c =>
          exfalso
          cases hrecB : recordAt B a with
          | none => simp [cellsAnonVma, hrecB] at hx
          | some d =>
            have hle := h'.le (List.mem_append_right A (recordAt_mem hrec)) (recordAt_mem hrecB)
            have hc := recordAt_contains hrec
            have hd := recordAt_contains hrecB
            omega
      rw [hnone]
      exact hx

/-- INTERNAL: a merge is judged by the records it replaces, when those before and behind stay as
they are. -/
theorem MergedInto.of_middle (h' : Holds as' (A ++ M' ++ B)) (hframe : SameFrame as as')
    (hcovers : ∃ v, (q, v) ∈ M' ∧ v.vmStart.toNat ≤ req.addr.toNat ∧
      req.stop.toNat ≤ v.vmEnd.toNat)
    (hjoined : ∃ c ∈ M, areaAttr c.2 = requestAttr req)
    (hA : ∀ c ∈ A, c.2.vmEnd.toNat ≤ req.addr.toNat)
    (hmeaning : ∀ a, cellsMeaning M' a =
      if req.addr.toNat ≤ a ∧ a < req.stop.toNat then some (requestAttr req)
      else cellsMeaning M a)
    (hanon : ∀ a x, cellsAnonVma M a = some x → cellsAnonVma M' a = some x) :
    MergedInto as as' (A ++ M ++ B) req q (A ++ M' ++ B) := by
  obtain ⟨v, hv, hle⟩ := hcovers
  obtain ⟨c, hc, hattr⟩ := hjoined
  exact ⟨h', ⟨v, List.mem_append_left B (List.mem_append_right A hv), hle⟩,
    ⟨c, List.mem_append_left B (List.mem_append_right A hc), hattr⟩,
    cellsMeaning_assign hA hmeaning, cellsAnonVma_keep h' hanon, hframe⟩

end Middle

/-! ## Areas with new bounds -/

section SetRange

variable {v : VmAreaStruct} {start stop pgoff : ULong}

/-- INTERNAL: an area moved to other page boundaries in user space is well formed. -/
theorem AreaOk.setRange (h : AreaOk v) (hstart : start.toNat % 4096 = 0)
    (hstop : stop.toNat % 4096 = 0) (huser : stop.toNat ≤ 2 ^ 56) :
    AreaOk (v.setRange start stop pgoff) :=
  ⟨hstart, hstop, huser, h.chain, h.attached⟩

/-- INTERNAL: bounds may move as long as the page moves with them. -/
theorem areaAttr_setRange
    (h : pgoff - bytesToPages start = v.vmPgoff - bytesToPages v.vmStart) :
    areaAttr (v.setRange start stop pgoff) = areaAttr v := by
  unfold areaAttr VmAreaStruct.setRange
  simp only [h]

/-- INTERNAL: the meaning and the `anon_vma` of an area with new bounds. -/
theorem cellsMeaning_setRange {p : Ptr} {attr : PageAttr}
    (hattr : areaAttr (v.setRange start stop pgoff) = attr) (cells : List Cell) (a : ℕ) :
    cellsMeaning ((p, v.setRange start stop pgoff) :: cells) a =
      if start.toNat ≤ a ∧ a < stop.toNat then some attr else cellsMeaning cells a :=
  cellsMeaning_cons_of rfl rfl hattr cells a

/-- INTERNAL: a moved area has its `anon_vma` within the new range. -/
theorem cellsAnonVma_setRange {p : Ptr} (cells : List Cell) (a : ℕ) :
    cellsAnonVma ((p, v.setRange start stop pgoff) :: cells) a =
      if start.toNat ≤ a ∧ a < stop.toNat then v.anonVma else cellsAnonVma cells a :=
  cellsAnonVma_cons_of rfl rfl rfl cells a

/-- INTERNAL: the start of a moved area. -/
@[simp] theorem setRange_vmStart : (v.setRange start stop pgoff).vmStart = start := rfl
/-- INTERNAL: the end of a moved area. -/
@[simp] theorem setRange_vmEnd : (v.setRange start stop pgoff).vmEnd = stop := rfl
/-- INTERNAL: a moved area keeps its `anon_vma`. -/
@[simp] theorem setRange_anonVma : (v.setRange start stop pgoff).anonVma = v.anonVma := rfl

end SetRange

/-! ## Plans -/

/-- A plan that is ready to be carried out, or has failed. `dst` has taken over the `anon_vma`
of `src`, and this can be undone. -/
inductive Prepared (as : AddressSpace) (dst : Ptr) (src : VmAreaStruct) (plan : MergePlan) :
    Planned → Prop where
  | failed (e : Errno) : Prepared as dst src plan ⟨some e, as, none, plan⟩
  | ready (dup : Option Ptr)
      (hundo : undoDup (as.modify dst (fun v => withAnonOf v src)) dup = as) :
      Prepared as dst src plan
        ⟨none, as.modify dst (fun v => withAnonOf v src), dup, plan⟩

section Prepared

variable {as : AddressSpace} {dst : Ptr} {plan : MergePlan}

/-- INTERNAL: a failure leaves the address space as it was. -/
theorem Prepared.commit {src : VmAreaStruct} {planned : Planned}
    (h : Prepared as dst src plan planned) (ans : MergeAnswers) :
    commitMerge ans planned = (none, as) ∨
      commitMerge ans planned =
        (some plan.res, applyPlan (as.modify dst (fun v => withAnonOf v src)) plan) := by
  cases h with
  | failed e => exact Or.inl rfl
  | ready dup hundo =>
    unfold commitMerge
    simp only [Option.isSome_none, Bool.false_eq_true, if_false]
    split_ifs
    · exact Or.inl (by rw [hundo])
    · exact Or.inr rfl

/-- INTERNAL: `dup_anon_vma` prepares a merge: the destination takes over the `anon_vma` of the
source, or the call fails and nothing has changed. -/
theorem prepared_dup (plan : MergePlan) (cloneFails : Bool) (hok : AreaOk (as.heap dst))
    (src : Ptr) :
    Prepared as dst (as.heap src) plan
      ⟨(dupAnonVma cloneFails as dst src).1, (dupAnonVma cloneFails as dst src).2.1,
        (dupAnonVma cloneFails as dst src).2.2, plan⟩ := by
  rcases dupAnonVma_cases cloneFails as dst src hok.chain with ⟨e, heq⟩ | ⟨dup, heq, hundo⟩
  · rw [heq]
    exact Prepared.failed e
  · rw [heq]
    exact Prepared.ready dup hundo

/-- INTERNAL: a merge that needs no `anon_vma` is prepared as it stands. -/
theorem prepared_none : Prepared as dst (as.heap dst) plan ⟨none, as, none, plan⟩ := by
  have hself : as.modify dst (fun v => withAnonOf v (as.heap dst)) = as :=
    as.modify_self dst _ (withAnonOf_self _)
  have hready : Prepared as dst (as.heap dst) plan
      ⟨none, as.modify dst (fun v => withAnonOf v (as.heap dst)), none, plan⟩ :=
    Prepared.ready none (by rw [hself]; rfl)
  rwa [hself] at hready

/-- INTERNAL: a preparation that fails has changed nothing. -/
theorem prepared_failed {src : VmAreaStruct} (e : Errno) :
    Prepared as dst src plan ⟨some e, as, none, plan⟩ :=
  Prepared.failed e

end Prepared

/-- A merge has not happened, or it has done what was requested. -/
def MergeOutcome (as : AddressSpace) (cells : List Cell) (req : MergeRequest)
    (result : Option Ptr × AddressSpace) : Prop :=
  result = (none, as) ∨
    ∃ q as' cells', result = (some q, as') ∧ MergedInto as as' cells req q cells'

/-- INTERNAL: a prepared merge is carried out, or fails and is undone. -/
theorem Prepared.outcome {as : AddressSpace} {dst : Ptr} {src : VmAreaStruct} {plan : MergePlan}
    {planned : Planned} {cells cells' : List Cell} {req : MergeRequest}
    (h : Prepared as dst src plan planned) (ans : MergeAnswers)
    (hmerged : MergedInto as (applyPlan (as.modify dst (fun v => withAnonOf v src)) plan) cells req
      plan.res cells') : MergeOutcome as cells req (commitMerge ans planned) := by
  rcases h.commit ans with heq | heq
  · exact Or.inl heq
  · exact Or.inr ⟨_, _, _, heq, hmerged⟩

/-! ## The area that grows -/

section Grow

variable {as : AddressSpace} {A L R B : List Cell} {req : MergeRequest} {plan : MergePlan}
  {v src : VmAreaStruct}

/-- INTERNAL: an area is written in the middle of the list, with the same range. -/
theorem represents_modify {q : Ptr} {w : VmAreaStruct} {f : VmAreaStruct → VmAreaStruct}
    (h : Represents as.heap as.mt (A ++ (L ++ (q, w) :: R) ++ B))
    (hstart : (f w).vmStart = w.vmStart) (hend : (f w).vmEnd = w.vmEnd) :
    Represents (as.modify q f).heap (as.modify q f).mt (A ++ (L ++ (q, f w) :: R) ++ B) := by
  have hread : as.heap q = w := h.mem_middle (c := (q, w)) (by simp)
  have hsplit : ∀ x : VmAreaStruct,
      A ++ (L ++ (q, x) :: R) ++ B = (A ++ L) ++ [(q, x)] ++ (R ++ B) := by simp
  rw [hsplit] at h ⊢
  have hwrite := h.write (w := f w) (congrArg BitVec.toNat hstart) (congrArg BitVec.toNat hend)
  unfold AddressSpace.modify
  rw [hread]
  exact hwrite

/-- INTERNAL: an area that takes over an `anon_vma` and grows over its neighbours and the range
has done what was requested. Cases 1, 2, 3, 6, 7 and 8. -/
theorem mergedInto_grow (h : Holds as (A ++ (L ++ (plan.vma, v) :: R) ++ B))
    (hres : plan.res = plan.vma) (hadjust : plan.adjust = none)
    (hexpanded : plan.vmaStart < v.vmStart ∨ v.vmEnd < plan.vmaEnd)
    (hA : ∀ c ∈ A, c.2.vmEnd.toNat ≤ plan.vmaStart.toNat)
    (hB : ∀ c ∈ B, plan.vmaEnd.toNat ≤ c.2.vmStart.toNat)
    (hM : ∀ c ∈ L ++ (plan.vma, v) :: R, plan.vmaStart.toNat ≤ c.2.vmStart.toNat ∧
      c.2.vmEnd.toNat ≤ plan.vmaEnd.toNat)
    (hstartPage : plan.vmaStart.toNat % 4096 = 0) (hendPage : plan.vmaEnd.toNat % 4096 = 0)
    (huser : plan.vmaEnd.toNat ≤ 2 ^ 56)
    (hremoved : removedAreas plan.remove plan.remove2 = (L ++ R).map Prod.fst)
    (hpgoff : plan.vmaPgoff - bytesToPages plan.vmaStart = v.vmPgoff - bytesToPages v.vmStart)
    (hattr : areaAttr v = requestAttr req)
    (haddr : plan.vmaStart.toNat ≤ req.addr.toNat) (hstop : req.stop.toNat ≤ plan.vmaEnd.toNat)
    (hcover : ∀ a, plan.vmaStart.toNat ≤ a → a < plan.vmaEnd.toNat →
      ¬ (req.addr.toNat ≤ a ∧ a < req.stop.toNat) →
      cellsMeaning (L ++ (plan.vma, v) :: R) a = some (requestAttr req))
    (hanon : ∀ c ∈ L ++ (plan.vma, v) :: R, c.2.anonVma.isSome →
      (withAnonOf v src).anonVma = c.2.anonVma) :
    MergedInto as (applyPlan (as.modify plan.vma (fun v => withAnonOf v src)) plan)
      (A ++ (L ++ (plan.vma, v) :: R) ++ B) req plan.res
      (A ++ [(plan.vma,
        (withAnonOf v src).setRange plan.vmaStart plan.vmaEnd plan.vmaPgoff)] ++ B) := by
  have hmem : ∀ w, (plan.vma, w) ∈ L ++ (plan.vma, w) :: R := fun w => by simp
  have hok : AreaOk v := h.ok (plan.vma, v) (by simp)
  -- the other areas of the middle part are the removed ones
  have hkeys := h.rep.nodup
  have hother : ∀ c ∈ L ++ R, c.1 ≠ plan.vma := by
    simp only [List.map_append, List.map_cons, List.nodup_append, List.nodup_cons,
      List.mem_append, List.mem_cons, List.mem_map] at hkeys
    intro c hc heq
    rcases List.mem_append.mp hc with hc | hc
    · exact hkeys.1.2.1.2.2 c.1 ⟨c, hc, rfl⟩ plan.vma (Or.inl rfl) heq
    · exact hkeys.1.2.1.2.1.1 ⟨c, hc, heq⟩
  have hnodup : ((L ++ R).map Prod.fst).Nodup := by
    simp only [List.map_append, List.map_cons, List.nodup_append, List.nodup_cons,
      List.mem_append, List.mem_cons, List.mem_map] at hkeys ⊢
    obtain ⟨⟨_, ⟨hL, ⟨_, hR⟩, hLR⟩, _⟩, _, _⟩ := hkeys
    exact ⟨hL, hR, fun x hx y hy => hLR x hx y (Or.inr hy)⟩
  have hkeep : ∀ c ∈ L ++ (plan.vma, withAnonOf v src) :: R,
      c = (plan.vma, withAnonOf v src) ∨ c ∈ L ++ (plan.vma, v) :: R := by
    intro c hc
    simp only [List.mem_append, List.mem_cons] at hc ⊢
    tauto
  obtain ⟨hrep, hcount, hframe⟩ := applyPlan_expand
    (represents_modify (f := fun v => withAnonOf v src) h.rep (withAnonOf_vmStart v src)
      (withAnonOf_vmEnd v src)) (hmem _) hadjust (by simpa using hexpanded) hA hB
    (by
      intro c hc
      rcases hkeep c hc with rfl | hc
      · simpa using hM _ (hmem v)
      · exact hM c hc)
    (hremoved ▸ hnodup)
    (by
      rw [hremoved]
      intro r hr
      obtain ⟨c, hc, rfl⟩ := List.mem_map.mp hr
      have hin : ∀ w, c ∈ L ++ (plan.vma, w) :: R := by
        intro w
        simp only [List.mem_append, List.mem_cons] at hc ⊢
        tauto
      exact ⟨c.2, hin _, hother c hc, hanon c (hin _)⟩)
  have hattr' : areaAttr ((withAnonOf v src).setRange plan.vmaStart plan.vmaEnd plan.vmaPgoff) =
      requestAttr req := by
    rw [areaAttr_setRange (by simpa using hpgoff), withAnonOf_attr, hattr]
  have hholds : Holds (applyPlan (as.modify plan.vma (fun v => withAnonOf v src)) plan)
      (A ++ [(plan.vma,
        (withAnonOf v src).setRange plan.vmaStart plan.vmaEnd plan.vmaPgoff)] ++ B) := by
    refine h.of_replace hrep hframe.fresh.ge ?_ ?_ ?_
    · intro c hc
      rw [List.mem_singleton.mp hc, hframe.fresh]
      exact h.fresh (plan.vma, v) (by simp)
    · rw [hcount, hremoved]
      simp only [AddressSpace.modify_mapCount, List.length_map, List.length_append,
        List.length_cons, List.length_nil, Nat.cast_add, Nat.cast_one]
      ring
    · intro c hc
      rw [List.mem_singleton.mp hc]
      exact hok.withAnonOf.setRange hstartPage hendPage huser
  have hlt := h.lt (c := (plan.vma, v)) (by simp)
  refine MergedInto.of_middle hholds ⟨hframe.fresh, hframe.counters, hframe.warned⟩
    ⟨_, by rw [hres]; exact List.mem_cons_self, haddr, hstop⟩ ⟨_, hmem v, hattr⟩
    (fun c hc => (hA c hc).trans haddr) ?_ ?_
  · intro a
    rw [cellsMeaning_cons, cellsMeaning_nil]
    simp only [setRange_vmStart, setRange_vmEnd, hattr']
    split_ifs with hin hreq hreq
    · rfl
    · exact (hcover a hin.1 hin.2 hreq).symm
    · omega
    · refine (cellsMeaning_eq_none fun c hc hcon => ?_).symm
      have := hM c hc
      omega
  · intro a x hx
    unfold cellsAnonVma at hx
    obtain ⟨c, hc, hcx⟩ := Option.bind_eq_some_iff.mp hx
    have hbounds := recordAt_contains hc
    have hinside := hM c (recordAt_mem hc)
    have hin : plan.vmaStart.toNat ≤ a ∧ a < plan.vmaEnd.toNat := by omega
    rw [cellsAnonVma_cons]
    refine (if_pos hin).trans ?_
    rw [setRange_anonVma, hanon c (recordAt_mem hc) (by rw [hcx]; rfl), hcx]

end Grow

/-! ## The eight cases

`Compatible` is what `is_mergeable_anon_vma` leaves of two `anon_vma`s. -/

/-- Two `anon_vma`s that areas can be joined with. -/
def Compatible (a b : Option Handle) : Prop := a = none ∨ b = none ∨ a = b

/-- INTERNAL: of two compatible `anon_vma`s, the second is the one that an area takes over or
has already. -/
theorem Compatible.or_eq {a b : Option Handle} (h : Compatible a b) (hb : b.isSome) :
    a.or b = b := by
  rcases h with rfl | rfl | rfl
  · rfl
  · cases hb
  · cases a <;> rfl

/-- INTERNAL: an area that has an `anon_vma` keeps it. -/
theorem or_eq_of_isSome {a : Option Handle} (b : Option Handle) (ha : a.isSome) : a.or b = a := by
  cases a with
  | none => cases ha
  | some x => rfl

/-- INTERNAL: being compatible does not depend on the order. -/
theorem Compatible.symm {a b : Option Handle} (h : Compatible a b) : Compatible b a := by
  unfold Compatible at *
  tauto

section Cases

variable {as : AddressSpace} {A B : List Cell} {req : MergeRequest} {p c n : Ptr}
  {v w u : VmAreaStruct}

/-- INTERNAL: no part of the range is in the predecessor. -/
theorem prev_filter_eq_none {prev : Option Ptr}
    (hprev : ∀ p ∈ prev, (as.heap p).vmEnd.toNat ≤ req.addr.toNat) :
    prev.filter (fun p => decide (req.addr < (as.heap p).vmEnd)) = none := by
  rw [Option.filter_eq_none_iff]
  intro p hp hlt
  have hle := hprev p hp
  have hlt' := BitVec.lt_def.mp (of_decide_eq_true hlt)
  omega

variable (req) in
/-- INTERNAL: an area grows up over the range. -/
theorem mergedInto_up (h : Holds as (A ++ [(p, v)] ++ B)) (hr : PageRange req.addr req.stop)
    (hend : v.vmEnd = req.addr) (hattr : areaAttr v = requestAttr req)
    (hB : ∀ d ∈ B, req.stop.toNat ≤ d.2.vmStart.toNat) :
    MergedInto as (applyPlan (as.modify p (fun x => withAnonOf x (as.heap p)))
        ⟨p, p, v.vmStart, req.stop, v.vmPgoff, none, 0, none, none⟩) (A ++ [(p, v)] ++ B) req p
      (A ++ [(p, (withAnonOf v (as.heap p)).setRange v.vmStart req.stop v.vmPgoff)] ++ B) := by
  have hread : as.heap p = v := h.read (c := (p, v)) (by simp)
  have hv := h.lt (c := (p, v)) (by simp)
  have hlt := hr.lt
  have hend' := congrArg BitVec.toNat hend
  refine mergedInto_grow (L := []) (R := []) h rfl rfl ?_
    (fun d hd => h.assoc.le hd List.mem_cons_self) hB ?_ (h.ok (p, v) (by simp)).startPage
    hr.stopPage hr.user rfl rfl hattr ?_ le_rfl ?_ ?_
  · exact Or.inr (BitVec.lt_def.mpr (by dsimp only; omega))
  · intro d hd
    rw [List.mem_singleton.mp hd]
    exact ⟨le_rfl, by dsimp only; omega⟩
  · dsimp only at hv ⊢
    omega
  · intro a ha ha' hout
    rw [List.nil_append, cellsMeaning_cons]
    exact (if_pos ⟨ha, by dsimp only at ha' ⊢; omega⟩).trans (congrArg some hattr)
  · intro d hd _
    rw [List.mem_singleton.mp hd, hread, withAnonOf_self]

/-- INTERNAL: case 2: the predecessor grows over the range. -/
theorem merge_case2 (ans : MergeAnswers) (h : Holds as (A ++ [(p, v)] ++ B))
    (hr : PageRange req.addr req.stop) (hend : v.vmEnd = req.addr)
    (hattr : areaAttr v = requestAttr req) (hB : ∀ d ∈ B, req.stop.toNat ≤ d.2.vmStart.toNat) :
    MergeOutcome as (A ++ [(p, v)] ++ B) req
      (commitMerge ans (planAfter ans as p none req.stop)) := by
  have hread : as.heap p = v := h.read (c := (p, v)) (by simp)
  have hplan : planAfter ans as p none req.stop =
      ⟨none, as, none, ⟨p, p, v.vmStart, req.stop, v.vmPgoff, none, 0, none, none⟩⟩ := by
    unfold planAfter
    rw [hread]
  rw [hplan]
  exact prepared_none.outcome ans (mergedInto_up req h hr hend hattr hB)

/-- INTERNAL: case 7: the predecessor grows over the whole of the changed area. -/
theorem merge_case7 (ans : MergeAnswers) (h : Holds as (A ++ [(p, v), (c, w)] ++ B))
    (hr : PageRange req.addr req.stop) (hend : v.vmEnd = req.addr)
    (hattr : areaAttr v = requestAttr req) (hstart : w.vmStart = req.addr)
    (hstop : w.vmEnd = req.stop) (hanon : Compatible v.anonVma w.anonVma) :
    MergeOutcome as (A ++ [(p, v), (c, w)] ++ B) req
      (commitMerge ans (planAfter ans as p (some c) req.stop)) := by
  have hread : as.heap p = v := h.read (c := (p, v)) (by simp)
  have hreadc : as.heap c = w := h.read (c := (c, w)) (by simp)
  have hv := h.lt (c := (p, v)) (by simp)
  have hlt := hr.lt
  have hend' := congrArg BitVec.toNat hend
  have hstart' := congrArg BitVec.toNat hstart
  have hstop' := congrArg BitVec.toNat hstop
  have hprepared : Prepared as p (as.heap c)
      ⟨p, p, v.vmStart, req.stop, v.vmPgoff, none, 0, some c, none⟩
      (planAfter ans as p (some c) req.stop) := by
    unfold planAfter
    simp only [hread, hreadc, hstop, if_true]
    split_ifs
    · exact prepared_failed EINVAL
    · exact hreadc ▸ prepared_dup _ _ (hread ▸ h.ok (p, v) (by simp)) c
  refine hprepared.outcome ans (mergedInto_grow (L := []) (R := [(c, w)]) h rfl rfl ?_
    (fun d hd => h.assoc.le hd List.mem_cons_self) ?_ ?_ (h.ok (p, v) (by simp)).startPage
    hr.stopPage hr.user rfl rfl hattr ?_ le_rfl ?_ ?_)
  · exact Or.inr (BitVec.lt_def.mpr (by dsimp only; omega))
  · intro d hd
    have := h.le (c := (c, w)) (by simp) hd
    dsimp only at this ⊢
    omega
  · intro d hd
    simp only [List.nil_append, List.mem_cons, List.not_mem_nil, or_false] at hd
    rcases hd with rfl | rfl
    · exact ⟨le_rfl, by dsimp only; omega⟩
    · exact ⟨by dsimp only at hv ⊢; omega, by dsimp only; omega⟩
  · dsimp only at hv ⊢
    omega
  · intro a ha ha' hout
    rw [List.nil_append, cellsMeaning_cons]
    exact (if_pos ⟨ha, by dsimp only at ha' ⊢; omega⟩).trans (congrArg some hattr)
  · intro d hd hsome
    simp only [List.nil_append, List.mem_cons, List.not_mem_nil, or_false] at hd
    rw [withAnonOf_anonVma, hreadc]
    rcases hd with rfl | rfl
    · exact or_eq_of_isSome _ hsome
    · exact hanon.or_eq hsome

variable (req) in
/-- INTERNAL: an area grows up over the range and the area behind it. -/
theorem mergedInto_over (h : Holds as (A ++ [(p, v), (n, u)] ++ B))
    (hr : PageRange req.addr req.stop) (hend : v.vmEnd = req.addr)
    (hattr : areaAttr v = requestAttr req) (hnext : u.vmStart = req.stop)
    (hattr' : areaAttr u = requestAttr req) (hanon : Compatible v.anonVma u.anonVma) :
    MergedInto as (applyPlan (as.modify p (fun x => withAnonOf x (as.heap n)))
        ⟨p, p, v.vmStart, u.vmEnd, v.vmPgoff, none, 0, some n, none⟩)
      (A ++ [(p, v), (n, u)] ++ B) req p
      (A ++ [(p, (withAnonOf v (as.heap n)).setRange v.vmStart u.vmEnd v.vmPgoff)] ++ B) := by
  have hreadn : as.heap n = u := h.read (c := (n, u)) (by simp)
  have hv := h.lt (c := (p, v)) (by simp)
  have hu := h.lt (c := (n, u)) (by simp)
  have huok := h.ok (n, u) (by simp)
  have hlt := hr.lt
  have hend' := congrArg BitVec.toNat hend
  have hnext' := congrArg BitVec.toNat hnext
  dsimp only at hv hu
  refine mergedInto_grow (L := []) (R := [(n, u)]) h rfl rfl ?_
    (fun d hd => h.assoc.le hd List.mem_cons_self) ?_ ?_ (h.ok (p, v) (by simp)).startPage
    huok.endPage huok.user rfl rfl hattr ?_ ?_ ?_ ?_
  · exact Or.inr (BitVec.lt_def.mpr (by dsimp only; omega))
  · exact fun d hd => h.le (c := (n, u)) (by simp) hd
  · intro d hd
    simp only [List.nil_append, List.mem_cons, List.not_mem_nil, or_false] at hd
    rcases hd with rfl | rfl
    · exact ⟨le_rfl, by dsimp only; omega⟩
    · exact ⟨by dsimp only; omega, le_rfl⟩
  · dsimp only
    omega
  · dsimp only
    omega
  · intro a ha ha' hout
    dsimp only at ha ha'
    simp only [List.nil_append, cellsMeaning_cons, hattr, hattr', cellsMeaning_nil]
    split_ifs
    · rfl
    · rfl
    · omega
  · intro d hd hsome
    simp only [List.nil_append, List.mem_cons, List.not_mem_nil, or_false] at hd
    rw [withAnonOf_anonVma, hreadn]
    rcases hd with rfl | rfl
    · exact or_eq_of_isSome _ hsome
    · exact hanon.or_eq hsome

/-- INTERNAL: case 1: the predecessor grows over the range and the successor. -/
theorem merge_case1 (ans : MergeAnswers) (h : Holds as (A ++ [(p, v), (n, u)] ++ B))
    (hr : PageRange req.addr req.stop) (hend : v.vmEnd = req.addr)
    (hattr : areaAttr v = requestAttr req) (hnext : u.vmStart = req.stop)
    (hattr' : areaAttr u = requestAttr req) (hanon : Compatible v.anonVma u.anonVma) :
    MergeOutcome as (A ++ [(p, v), (n, u)] ++ B) req
      (commitMerge ans (planBoth ans as p n none)) := by
  have hread : as.heap p = v := h.read (c := (p, v)) (by simp)
  have hreadn : as.heap n = u := h.read (c := (n, u)) (by simp)
  have hprepared : Prepared as p (as.heap n)
      ⟨p, p, v.vmStart, u.vmEnd, v.vmPgoff, none, 0, some n, none⟩
      (planBoth ans as p n none) := by
    have hdup := prepared_dup ⟨p, p, v.vmStart, u.vmEnd, v.vmPgoff, none, 0, some n, none⟩
      ans.cloneFails (hread ▸ h.ok (p, v) (by simp)) n
    unfold planBoth
    rw [hread, hreadn] at *
    exact hdup
  exact hprepared.outcome ans (mergedInto_over req h hr hend hattr hnext hattr' hanon)

/-- INTERNAL: case 6: the predecessor grows over the changed area and the successor. -/
theorem merge_case6 (ans : MergeAnswers) (h : Holds as (A ++ [(p, v), (c, w), (n, u)] ++ B))
    (hr : PageRange req.addr req.stop) (hend : v.vmEnd = req.addr)
    (hattr : areaAttr v = requestAttr req) (hstart : w.vmStart = req.addr)
    (hstop : w.vmEnd = req.stop) (hnext : u.vmStart = req.stop)
    (hattr' : areaAttr u = requestAttr req) (hanon : Compatible v.anonVma u.anonVma)
    (hanonw : Compatible v.anonVma w.anonVma) (hanonu : Compatible w.anonVma u.anonVma) :
    MergeOutcome as (A ++ [(p, v), (c, w), (n, u)] ++ B) req
      (commitMerge ans (planBoth ans as p n (some c))) := by
  have hread : as.heap p = v := h.read (c := (p, v)) (by simp)
  have hreadc : as.heap c = w := h.read (c := (c, w)) (by simp)
  have hreadn : as.heap n = u := h.read (c := (n, u)) (by simp)
  have hv := h.lt (c := (p, v)) (by simp)
  have hu := h.lt (c := (n, u)) (by simp)
  have hvok : AreaOk (as.heap p) := hread ▸ h.ok (p, v) (by simp)
  have huok := h.ok (n, u) (by simp)
  have hlt := hr.lt
  have hend' := congrArg BitVec.toNat hend
  have hstart' := congrArg BitVec.toNat hstart
  have hstop' := congrArg BitVec.toNat hstop
  have hnext' := congrArg BitVec.toNat hnext
  dsimp only at hv hu
  -- the `anon_vma` comes from the successor, or from the changed area if that has none
  obtain ⟨src, hprepared, hsrc⟩ : ∃ src, Prepared as p src
      ⟨p, p, v.vmStart, u.vmEnd, v.vmPgoff, none, 0, some c, some n⟩
      (planBoth ans as p n (some c)) ∧
      ∀ d ∈ [(p, v), (c, w), (n, u)], d.2.anonVma.isSome →
        v.anonVma.or src.anonVma = d.2.anonVma := by
    by_cases hnone : u.anonVma = none
    · refine ⟨as.heap c, ?_, ?_⟩
      · have hfirst : dupAnonVma ans.cloneFails as p n = (none, as, none) := by
          unfold dupAnonVma
          rw [hreadn, hnone, if_neg (fun hcond => by cases hcond.1)]
        have hdup := prepared_dup
          ⟨p, p, v.vmStart, u.vmEnd, v.vmPgoff, none, 0, some c, some n⟩
          ans.cloneFails hvok c
        unfold planBoth
        simp only [hfirst, hreadn, hnone, Option.isNone_none, if_true, hread]
        exact hdup
      · intro d hd hsome
        simp only [List.mem_cons, List.not_mem_nil, or_false] at hd
        rcases hd with rfl | rfl | rfl
        · exact or_eq_of_isSome _ hsome
        · rw [hreadc]
          exact hanonw.or_eq hsome
        · rw [hnone] at hsome
          cases hsome
    · have hsomeu : u.anonVma.isSome := Option.isSome_iff_ne_none.mpr hnone
      refine ⟨as.heap n, ?_, ?_⟩
      · have hdup := prepared_dup
          ⟨p, p, v.vmStart, u.vmEnd, v.vmPgoff, none, 0, some c, some n⟩
          ans.cloneFails hvok n
        unfold planBoth
        simp only [hreadn, hread, Option.isNone_iff_eq_none, if_neg hnone] at hdup ⊢
        exact hdup
      · intro d hd hsome
        rw [hreadn, hanon.or_eq hsomeu]
        simp only [List.mem_cons, List.not_mem_nil, or_false] at hd
        rcases hd with rfl | rfl | rfl
        · exact (hanon.or_eq hsomeu).symm.trans (or_eq_of_isSome _ hsome)
        · rw [← hanonu.or_eq hsomeu]
          exact or_eq_of_isSome _ hsome
        · rfl
  refine hprepared.outcome ans (mergedInto_grow (L := []) (R := [(c, w), (n, u)]) h rfl rfl ?_
    (fun d hd => h.assoc.le hd List.mem_cons_self) ?_ ?_ (h.ok (p, v) (by simp)).startPage
    huok.endPage huok.user rfl rfl hattr ?_ ?_ ?_ ?_)
  · exact Or.inr (BitVec.lt_def.mpr (by dsimp only; omega))
  · exact fun d hd => h.le (c := (n, u)) (by simp) hd
  · intro d hd
    simp only [List.nil_append, List.mem_cons, List.not_mem_nil, or_false] at hd
    rcases hd with rfl | rfl | rfl
    · exact ⟨le_rfl, by dsimp only; omega⟩
    · exact ⟨by dsimp only; omega, by dsimp only; omega⟩
    · exact ⟨by dsimp only; omega, le_rfl⟩
  · dsimp only
    omega
  · dsimp only
    omega
  · intro a ha ha' hout
    dsimp only at ha ha'
    simp only [List.nil_append, cellsMeaning_cons, hattr, hattr', cellsMeaning_nil]
    split_ifs
    · rfl
    · omega
    · rfl
    · omega
  · intro d hd hsome
    rw [withAnonOf_anonVma]
    exact hsrc d hd hsome

variable (req) in
/-- INTERNAL: an area grows down over the range. -/
theorem mergedInto_down (h : Holds as (A ++ [(n, u)] ++ B)) (hr : PageRange req.addr req.stop)
    (hA : ∀ d ∈ A, d.2.vmEnd.toNat ≤ req.addr.toNat) (hnext : u.vmStart = req.stop)
    (hattr : areaAttr u = requestAttr req) :
    MergedInto as (applyPlan (as.modify n (fun x => withAnonOf x (as.heap n)))
        ⟨n, n, req.addr, u.vmEnd, u.vmPgoff - req.pglen, none, 0, none, none⟩)
      (A ++ [(n, u)] ++ B) req n
      (A ++ [(n, (withAnonOf u (as.heap n)).setRange req.addr u.vmEnd (u.vmPgoff - req.pglen))] ++
        B) := by
  have hread : as.heap n = u := h.read (c := (n, u)) (by simp)
  have hu := h.lt (c := (n, u)) (by simp)
  have huok := h.ok (n, u) (by simp)
  have hlt := hr.lt
  have hnext' := congrArg BitVec.toNat hnext
  dsimp only at hu
  refine mergedInto_grow (L := []) (R := []) h rfl rfl ?_
    hA (fun d hd => h.le (c := (n, u)) (by simp) hd) ?_ hr.addrPage huok.endPage huok.user rfl ?_
    hattr le_rfl ?_ ?_ ?_
  · refine Or.inl (BitVec.lt_def.mpr ?_)
    dsimp only
    omega
  · intro d hd
    rw [List.mem_singleton.mp hd]
    exact ⟨by dsimp only; omega, le_rfl⟩
  · dsimp only
    rw [MergeRequest.pglen, bytesToPages_sub hlt.le hr.addrPage, hnext]
    ring
  · dsimp only
    omega
  · intro a ha ha' hout
    dsimp only at ha ha'
    rw [List.nil_append, cellsMeaning_cons]
    exact (if_pos ⟨by dsimp only; omega, ha'⟩).trans (congrArg some hattr)
  · intro d hd _
    rw [List.mem_singleton.mp hd, hread, withAnonOf_self]

/-- INTERNAL: case 3: the successor grows down over the range. -/
theorem merge_case3 (ans : MergeAnswers) {prev : Option Ptr} (h : Holds as (A ++ [(n, u)] ++ B))
    (hr : PageRange req.addr req.stop) (hA : ∀ d ∈ A, d.2.vmEnd.toNat ≤ req.addr.toNat)
    (hprev : ∀ p ∈ prev, (as.heap p).vmEnd.toNat ≤ req.addr.toNat)
    (hnext : u.vmStart = req.stop) (hattr : areaAttr u = requestAttr req) :
    MergeOutcome as (A ++ [(n, u)] ++ B) req
      (commitMerge ans (planBefore ans as prev n none req)) := by
  have hread : as.heap n = u := h.read (c := (n, u)) (by simp)
  have hplan : planBefore ans as prev n none req =
      ⟨none, as, none, ⟨n, n, req.addr, u.vmEnd, u.vmPgoff - req.pglen, none, 0, none, none⟩⟩ := by
    unfold planBefore
    rw [prev_filter_eq_none hprev, hread]
  rw [hplan]
  exact prepared_none.outcome ans (mergedInto_down req h hr hA hnext hattr)

/-- INTERNAL: case 8: the successor grows down over the whole of the changed area. -/
theorem merge_case8 (ans : MergeAnswers) {prev : Option Ptr}
    (h : Holds as (A ++ [(c, w), (n, u)] ++ B)) (hr : PageRange req.addr req.stop)
    (hA : ∀ d ∈ A, d.2.vmEnd.toNat ≤ req.addr.toNat)
    (hprev : ∀ p ∈ prev, (as.heap p).vmEnd.toNat ≤ req.addr.toNat)
    (hstart : w.vmStart = req.addr) (hstop : w.vmEnd = req.stop) (hpgoff : req.pgoff = w.vmPgoff)
    (hnext : u.vmStart = req.stop) (hattr : areaAttr u = requestAttr req)
    (hanon : Compatible w.anonVma u.anonVma) :
    MergeOutcome as (A ++ [(c, w), (n, u)] ++ B) req
      (commitMerge ans (planBefore ans as prev n (some c) req)) := by
  have hreadc : as.heap c = w := h.read (c := (c, w)) (by simp)
  have hread : as.heap n = u := h.read (c := (n, u)) (by simp)
  have hu := h.lt (c := (n, u)) (by simp)
  have huok := h.ok (n, u) (by simp)
  have hlt := hr.lt
  have hstart' := congrArg BitVec.toNat hstart
  have hstop' := congrArg BitVec.toNat hstop
  have hnext' := congrArg BitVec.toNat hnext
  dsimp only at hu
  have hprepared : Prepared as n (as.heap c)
      ⟨n, n, req.addr, u.vmEnd, w.vmPgoff, none, 0, some c, none⟩
      (planBefore ans as prev n (some c) req) := by
    have hdup := prepared_dup
      ⟨n, n, req.addr, u.vmEnd, w.vmPgoff, none, 0, some c, none⟩
      ans.cloneFails (hread ▸ huok) c
    unfold planBefore
    rw [prev_filter_eq_none hprev]
    simp only [hread, hreadc] at hdup ⊢
    exact hdup
  refine hprepared.outcome ans (mergedInto_grow (L := [(c, w)]) (R := []) h rfl rfl ?_
    hA (fun d hd => h.le (c := (n, u)) (by simp) hd) ?_ hr.addrPage huok.endPage huok.user rfl ?_ hattr
    le_rfl ?_ ?_ ?_)
  · refine Or.inl (BitVec.lt_def.mpr ?_)
    dsimp only
    omega
  · intro d hd
    simp only [List.cons_append, List.nil_append, List.mem_cons, List.not_mem_nil, or_false] at hd
    rcases hd with rfl | rfl
    · exact ⟨by dsimp only; omega, by dsimp only; omega⟩
    · exact ⟨by dsimp only; omega, le_rfl⟩
  · have hbase := congrArg PageAttr.base hattr
    simp only [areaAttr, requestAttr] at hbase
    rw [hbase, hpgoff]
  · dsimp only
    omega
  · intro a ha ha' hout
    dsimp only at ha ha'
    simp only [List.cons_append, List.nil_append, cellsMeaning_cons, hattr, cellsMeaning_nil]
    split_ifs
    · omega
    · rfl
    · omega
  · intro d hd hsome
    simp only [List.cons_append, List.nil_append, List.mem_cons, List.not_mem_nil, or_false] at hd
    rw [withAnonOf_anonVma, hreadc]
    rcases hd with rfl | rfl
    · exact hanon.symm.or_eq hsome
    · exact or_eq_of_isSome _ hsome

/-- INTERNAL: the boundary between two areas has moved, and the areas mean what they did outside
of the range. -/
theorem mergedInto_pair {as' : AddressSpace} {v' w' : VmAreaStruct} {q : Ptr}
    (h : Holds as (A ++ [(p, v), (c, w)] ++ B))
    (happly : Represents as'.heap as'.mt (A ++ [(p, v'), (c, w')] ++ B) ∧
      as'.mapCount = as.mapCount ∧ SameFrame as as')
    (hv' : AreaOk v') (hw' : AreaOk w') (haddr : v.vmStart.toNat ≤ req.addr.toNat)
    (hcovers : ∃ x, (q, x) ∈ [(p, v'), (c, w')] ∧ x.vmStart.toNat ≤ req.addr.toNat ∧
      req.stop.toNat ≤ x.vmEnd.toNat)
    (hjoined : ∃ d ∈ [(p, v), (c, w)], areaAttr d.2 = requestAttr req)
    (hmeaning : ∀ a, cellsMeaning [(p, v'), (c, w')] a =
      if req.addr.toNat ≤ a ∧ a < req.stop.toNat then some (requestAttr req)
      else cellsMeaning [(p, v), (c, w)] a)
    (hanon : ∀ a x, cellsAnonVma [(p, v), (c, w)] a = some x →
      cellsAnonVma [(p, v'), (c, w')] a = some x) :
    MergedInto as as' (A ++ [(p, v), (c, w)] ++ B) req q (A ++ [(p, v'), (c, w')] ++ B) := by
  obtain ⟨hrep, hcount, hframe⟩ := happly
  have hholds : Holds as' (A ++ [(p, v'), (c, w')] ++ B) := by
    refine h.of_replace hrep hframe.fresh.ge ?_ ?_ ?_
    · intro d hd
      rw [hframe.fresh]
      simp only [List.mem_cons, List.not_mem_nil, or_false] at hd
      rcases hd with rfl | rfl
      · exact h.fresh (p, v) (by simp)
      · exact h.fresh (c, w) (by simp)
    · rw [hcount]
      simp
    · intro d hd
      simp only [List.mem_cons, List.not_mem_nil, or_false] at hd
      rcases hd with rfl | rfl
      · exact hv'
      · exact hw'
  refine MergedInto.of_middle hholds hframe hcovers hjoined (fun d hd => ?_) hmeaning hanon
  exact (h.assoc.le hd List.mem_cons_self).trans haddr

/-- INTERNAL: case 5: the predecessor grows over the beginning of the changed area. -/
theorem merge_case5 (ans : MergeAnswers) (h : Holds as (A ++ [(p, v), (c, w)] ++ B))
    (hr : PageRange req.addr req.stop) (hend : v.vmEnd = req.addr)
    (hattr : areaAttr v = requestAttr req) (hstart : w.vmStart = req.addr)
    (hstop : req.stop.toNat < w.vmEnd.toNat) (hanon : Compatible v.anonVma w.anonVma) :
    MergeOutcome as (A ++ [(p, v), (c, w)] ++ B) req
      (commitMerge ans (planAfter ans as p (some c) req.stop)) := by
  have hread : as.heap p = v := h.read (c := (p, v)) (by simp)
  have hreadc : as.heap c = w := h.read (c := (c, w)) (by simp)
  have hv := h.lt (c := (p, v)) (by simp)
  have hvok : AreaOk v := h.ok (p, v) (by simp)
  have hwok : AreaOk w := h.ok (c, w) (by simp)
  have hlt := hr.lt
  have hend' := congrArg BitVec.toNat hend
  have hstart' := congrArg BitVec.toNat hstart
  dsimp only at hv
  have hne : req.stop ≠ w.vmEnd := fun heq => by rw [heq] at hstop; exact lt_irrefl _ hstop
  have hprepared : Prepared as p (as.heap c)
      ⟨p, p, v.vmStart, req.stop, v.vmPgoff, some c, req.stop - w.vmStart, none, none⟩
      (planAfter ans as p (some c) req.stop) := by
    have hdup := prepared_dup
      ⟨p, p, v.vmStart, req.stop, v.vmPgoff, some c, req.stop - w.vmStart, none, none⟩
      ans.cloneFails (hread ▸ hvok) c
    unfold planAfter
    simp only [hread, hreadc, if_neg hne] at hdup ⊢
    exact hdup
  rw [hreadc] at hprepared
  have hanon' : (withAnonOf v w).anonVma = none ∨ w.anonVma = none ∨
      (withAnonOf v w).anonVma = w.anonVma := by
    rw [withAnonOf_anonVma]
    cases hw : w.anonVma with
    | none => exact Or.inr (Or.inl rfl)
    | some x => exact Or.inr (Or.inr (hw ▸ hanon.or_eq (by rw [hw]; rfl)))
  have happly := applyPlan_into p
    (represents_modify (L := []) (R := [(c, w)]) (f := fun v => withAnonOf v w) h.rep
      (withAnonOf_vmStart v w) (withAnonOf_vmEnd v w))
    (by rw [withAnonOf_vmEnd, hend, hstart]) (by omega) hstop hwok.user hanon'
    (by rw [withAnonOf_vmStart, withAnonOf_vmPgoff])
  rw [withAnonOf_vmStart, withAnonOf_vmPgoff] at happly
  refine hprepared.outcome ans (mergedInto_pair h ⟨happly.1, happly.2.1, happly.2.2.fresh,
    happly.2.2.counters, happly.2.2.warned⟩ ?_ ?_ ?_ ⟨_, List.mem_cons_self, ?_, le_rfl⟩
    ⟨(p, v), List.mem_cons_self, hattr⟩ ?_ ?_)
  · exact hvok.withAnonOf.setRange hvok.startPage hr.stopPage hr.user
  · exact hwok.setRange hr.stopPage hwok.endPage hwok.user
  · omega
  · rw [setRange_vmStart]
    omega
  · intro a
    have hattrv : areaAttr ((withAnonOf v w).setRange v.vmStart req.stop v.vmPgoff) =
        requestAttr req := by
      rw [areaAttr_setRange (by rw [withAnonOf_vmStart, withAnonOf_vmPgoff]), withAnonOf_attr,
        hattr]
    have hattrw : areaAttr (w.setRange req.stop w.vmEnd
        (w.vmPgoff + bytesToPages (req.stop - w.vmStart))) = areaAttr w := by
      refine areaAttr_setRange ?_
      rw [bytesToPages_sub (by omega) hwok.startPage]
      ring
    rw [cellsMeaning_setRange hattrv, cellsMeaning_setRange hattrw,
      cellsMeaning_cons_of rfl hend hattr,
      cellsMeaning_cons_of hstart rfl rfl, cellsMeaning_nil]
    split_ifs <;> first | rfl | omega
  · intro a x hx
    rw [cellsAnonVma_cons_of rfl hend rfl, cellsAnonVma_cons_of hstart rfl rfl,
      cellsAnonVma_nil] at hx
    rw [cellsAnonVma_setRange, cellsAnonVma_setRange, cellsAnonVma_nil, withAnonOf_anonVma]
    split_ifs at hx with h1 h2
    · rw [if_pos (by omega), hx]
      rfl
    · split_ifs with h3 h4
      · rw [hanon.or_eq (by rw [hx]; rfl), hx]
      · exact hx
      · omega

/-- INTERNAL: case 4: the successor grows down over the end of the changed area. -/
theorem merge_case4 (ans : MergeAnswers) (h : Holds as (A ++ [(p, v), (n, u)] ++ B))
    (hr : PageRange req.addr req.stop) (hstart : v.vmStart.toNat < req.addr.toNat)
    (hstop : v.vmEnd = req.stop) (hnext : u.vmStart = req.stop)
    (hattr : areaAttr u = requestAttr req) (hanon : Compatible v.anonVma u.anonVma) :
    MergeOutcome as (A ++ [(p, v), (n, u)] ++ B) req
      (commitMerge ans (planBefore ans as (some p) n none req)) := by
  have hread : as.heap p = v := h.read (c := (p, v)) (by simp)
  have hreadn : as.heap n = u := h.read (c := (n, u)) (by simp)
  have hu := h.lt (c := (n, u)) (by simp)
  have hvok : AreaOk v := h.ok (p, v) (by simp)
  have huok : AreaOk u := h.ok (n, u) (by simp)
  have hlt := hr.lt
  have hstop' := congrArg BitVec.toNat hstop
  have hnext' := congrArg BitVec.toNat hnext
  dsimp only at hu
  have hinside : req.addr < v.vmEnd := BitVec.lt_def.mpr (by omega)
  have hprepared : Prepared as n (as.heap p)
      ⟨p, n, v.vmStart, req.addr, v.vmPgoff, some n, -(v.vmEnd - req.addr), none, none⟩
      (planBefore ans as (some p) n none req) := by
    have hdup := prepared_dup
      ⟨p, n, v.vmStart, req.addr, v.vmPgoff, some n, -(v.vmEnd - req.addr), none, none⟩
      ans.cloneFails (hreadn ▸ huok) p
    unfold planBefore
    simp only [Option.filter_some, hread, hinside, decide_true, if_true] at hdup ⊢
    exact hdup
  rw [hread] at hprepared
  have hanon' : v.anonVma = none ∨ (withAnonOf u v).anonVma = none ∨
      v.anonVma = (withAnonOf u v).anonVma := by
    rw [withAnonOf_anonVma]
    cases hv : v.anonVma with
    | none => exact Or.inl rfl
    | some x => exact Or.inr (Or.inr (hv ▸ (hanon.symm.or_eq (by rw [hv]; rfl)).symm))
  have happly := applyPlan_down n
    (represents_modify (L := [(p, v)]) (R := []) (f := fun u => withAnonOf u v) h.rep
      (withAnonOf_vmStart u v) (withAnonOf_vmEnd u v))
    (by rw [withAnonOf_vmStart, hstop, hnext]) hstart (by omega) hvok.user hr.addrPage
    hvok.endPage hanon' rfl
  rw [withAnonOf_vmEnd, withAnonOf_vmPgoff] at happly
  refine hprepared.outcome ans (mergedInto_pair h ⟨happly.1, happly.2.1, happly.2.2.fresh,
    happly.2.2.counters, happly.2.2.warned⟩ ?_ ?_ ?_
    ⟨_, List.mem_cons_of_mem _ List.mem_cons_self, le_rfl, ?_⟩
    ⟨(n, u), List.mem_cons_of_mem _ List.mem_cons_self, hattr⟩ ?_ ?_)
  · exact hvok.setRange hvok.startPage hr.addrPage (by have := hr.user; omega)
  · exact huok.withAnonOf.setRange hr.addrPage huok.endPage huok.user
  · omega
  · rw [setRange_vmEnd]
    omega
  · intro a
    have hattrv : areaAttr (v.setRange v.vmStart req.addr v.vmPgoff) = areaAttr v :=
      areaAttr_setRange rfl
    have hattru : areaAttr ((withAnonOf u v).setRange req.addr u.vmEnd
        (u.vmPgoff - bytesToPages (v.vmEnd - req.addr))) = requestAttr req := by
      rw [areaAttr_setRange, withAnonOf_attr, hattr]
      rw [bytesToPages_sub (by omega) hr.addrPage, withAnonOf_vmPgoff, withAnonOf_vmStart, hstop,
        hnext]
      ring
    rw [cellsMeaning_setRange hattrv, cellsMeaning_setRange hattru,
      cellsMeaning_cons_of rfl hstop rfl, cellsMeaning_cons_of hnext rfl hattr, cellsMeaning_nil]
    split_ifs <;> first | rfl | omega
  · intro a x hx
    rw [cellsAnonVma_cons_of rfl hstop rfl, cellsAnonVma_cons_of hnext rfl rfl,
      cellsAnonVma_nil] at hx
    rw [cellsAnonVma_setRange, cellsAnonVma_setRange, cellsAnonVma_nil, withAnonOf_anonVma]
    split_ifs at hx with h1 h2
    · split_ifs with h3 h4
      · exact hx
      · rw [hanon.symm.or_eq (by rw [hx]; rfl), hx]
      · omega
    · rw [if_neg (by omega), if_pos (by omega), hx]
      rfl

end Cases

end UsacKernel.Analysis
