import UsacKernel.Analysis.SpaceRuns

/-!
# Runs under a limit

The hooks compare the limit with the pages the caller has mapped now and the bytes it asks for. The
lengths of `mmap` are rounded up only after the test, so a run can exceed the limit by less than a
page, and by no more than that however long it is (`limitedRun_bounded`): the next test counts the
pages that are really mapped, since `total_vm` is their number. The growth of a stack is not
tested, so the runs are those in which no area grows.
-/

set_option autoImplicit false

namespace UsacKernel.Analysis

open UsacKernel.Computation UsacKernel.Model UsacKernel.Interface IndexedHeap

/-- The bytes that are mapped. -/
@[irreducible] def mappedBytes (m : AddressMap) : ℕ := pagesWhere m PageClass.total.holds * 4096

/-- The test of a request of `pid` compares `limit` with the pages of the address space `as`. -/
structure LimitedBy (limit : ULong) (as : AddressSpace) (find : PidT → Option TaskStruct)
    (pid : PidT) (l : MemoryList) : Prop where
  usage : currentUsage find pid = some (pagesToBytes as.counters.totalVm)
  limitAt_eq : limitAt l pid = some limit

/-- The call is one that the hooks test, one that only unmaps, or a fault that lets no area grow:
`ksys_mmap_pgoff` has tested the length that `do_mmap` then rounds up, and `brk` makes its own test.
SOURCE: mm/mmap.c:225-228, 1444-1448 -/
def SpaceCall.Tested (limit : ULong) (as : AddressSpace) : SpaceCall → Prop
  | .mmapRegion _ _ req => ∃ find pid l len, LimitedBy limit as find pid l ∧
      isRequestAccepted find pid len l = true ∧ req.len = pageAlign len
  | .munmap _ _ _ _ => True
  | .brk _ _ find current l _ => LimitedBy limit as find current.pid l
  | .expandStack env ans addr => ∀ q, ¬ (SpaceCall.expandStack env ans addr).LetsGrow q as

section Limit

variable {as as' : AddressSpace} {leak : ℤ} {limit : ULong} {m : AddressMap}

/-- INTERNAL: removing a range maps nothing. -/
theorem mappedBytes_remove_le (m : AddressMap) (lo hi : ℕ) :
    mappedBytes (m.remove lo hi) ≤ mappedBytes m := by
  unfold mappedBytes
  exact Nat.mul_le_mul_right _ (pagesWhere_remove_le m lo hi _)

/-- INTERNAL: assigning a range maps at most its length. -/
theorem mappedBytes_assign_le (m : AddressMap) {lo hi : ULong} (attr : PageAttr)
    (hr : PageRange lo hi) :
    mappedBytes (m.assign lo.toNat hi.toNat attr) ≤ mappedBytes m + (hi.toNat - lo.toNat) := by
  have hpages := pagesWhere_assign_le m attr PageClass.total.holds hr.addrPage hr.stopPage hr.user
  have hdiv := Nat.div_mul_le_self (hi.toNat - lo.toNat) 4096
  unfold mappedBytes
  refine (Nat.mul_le_mul_right 4096 hpages).trans ?_
  rw [Nat.add_mul]
  exact Nat.add_le_add_left hdiv _

/-- INTERNAL: `total_vm` counts what is mapped. -/
theorem Consistent.mappedBytes_eq (h : Consistent as leak) :
    mappedBytes (meaning as) = as.counters.totalVm.toNat * 4096 ∧
      as.counters.totalVm.toNat ≤ 2 ^ 44 := by
  obtain ⟨cells, hholds, hacc⟩ := h.areas
  have htotal : as.counters.totalVm.toNat = pagesWhere (meaning as) PageClass.total.holds :=
    hacc.counter_toNat hholds .total
  unfold mappedBytes
  rw [htotal]
  exact ⟨rfl, pagesWhere_le _ _⟩

/-- INTERNAL: an accepted request of less than the address space fits in the limit, together with
what is mapped.
SOURCE: crudmemlimit.c:32-67 -/
theorem LimitedBy.fits {find : PidT → Option TaskStruct} {pid : PidT} {l : MemoryList}
    (hlimited : LimitedBy limit as find pid l) (h : Consistent as leak) {requested : ULong}
    (haccepted : isRequestAccepted find pid requested l = true)
    (hreq : requested.toNat ≤ 2 ^ 56) :
    mappedBytes (meaning as) + requested.toNat ≤ limit.toNat := by
  obtain ⟨hbytes, hle⟩ := h.mappedBytes_eq
  have htest := (isRequestAccepted_mod hlimited.usage l requested).mp haccepted limit
    hlimited.limitAt_eq
  rw [Nat.mod_eq_of_lt (by omega)] at htest
  rw [hbytes]
  exact htest

/-! ## One call -/

/-- INTERNAL: a tested mapping keeps the bound, for what it adds has passed the test. -/
theorem limited_mmapRegion (env : MmEnv) (ans : RegionAnswers) (req : RegionRequest)
    (hok : (SpaceCall.mmapRegion env ans req).Ok) (h : SoundSpace as leak)
    (htested : (SpaceCall.mmapRegion env ans req).Tested limit as)
    (hle : mappedBytes (meaning as) < limit.toNat + 4096) :
    mappedBytes (meaning (as.mmapRegion env ans req).2) < limit.toNat + 4096 := by
  obtain ⟨hdriver, hlen, hflags⟩ := hok
  obtain ⟨find, pid, l, len, hlimited, haccepted, halign⟩ := htested
  rcases mmapRegion_becomes env ans hdriver hlen hflags h.consistent with
    ⟨e, as', heq, hb⟩ | ⟨hr, ⟨e, as', heq, hb⟩ | ⟨as', attr, heq, -, hb⟩⟩
  · rw [heq, hb.meaning_eq]
    exact hle
  · rw [heq, hb.meaning_eq]
    exact (mappedBytes_remove_le _ _ _).trans_lt hle
  · rw [heq, hb.meaning_eq, AddressMap.remove_assign]
    have hgrown := mappedBytes_assign_le (meaning as) attr hr
    have hrange : req.stop.toNat = (req.addr.toNat + req.len.toNat) % 2 ^ 64 :=
      BitVec.toNat_add req.addr req.len
    have hround := pageAlign_toNat len
    rw [← halign] at hround
    have hlt := hr.lt
    have huser := hr.user
    have haddr := req.addr.isLt
    have hword := req.len.isLt
    have hword' := len.isLt
    have hfits := hlimited.fits h.consistent haccepted (by omega)
    omega

/-- INTERNAL: an unmapping adds no mapped bytes, whether it succeeds or fails. -/
theorem limited_munmap (env : MmEnv) (ans : MunmapAnswers) (addr len : ULong)
    (h : SoundSpace as leak) :
    mappedBytes (meaning (as.munmap env ans addr len).2) ≤ mappedBytes (meaning as) := by
  unfold AddressSpace.munmap
  split_ifs
  · exact le_rfl
  · rcases doVmiMunmap_becomes env ans h.consistent addr len with
      ⟨e, as', heq, hb⟩ | ⟨as', heq, -, hb, -⟩
    · rw [heq, hb.meaning_eq]
    · rw [heq, hb.meaning_eq]
      exact mappedBytes_remove_le _ _ _

/-- INTERNAL: `brk` of a limited task keeps the bound: what it adds has passed its own test, up
to the rounding to pages. -/
theorem limited_brk (env : MmEnv) (ans : BrkAnswers) (find : PidT → Option TaskStruct)
    (current : TaskStruct) (l : MemoryList) (brk : ULong)
    (hok : (SpaceCall.brk env ans find current l brk).Ok) (h : SoundSpace as leak)
    (hlimited : LimitedBy limit as find current.pid l)
    (hle : mappedBytes (meaning as) < limit.toNat + 4096) :
    mappedBytes (meaning (as.brk env ans find current l brk).2) < limit.toNat + 4096 := by
  obtain ⟨hfixed, hgap⟩ := hok
  rcases brk_becomes env ans find current l hfixed hgap h.consistent h.defFlags h.brk_pos h.brk_le
      brk with ⟨r, as', heq, -, hb⟩ | ⟨as', heq, haccepted, -, huser, hb⟩
  · rw [heq, hb.meaning_eq]
    exact hle
  · rw [heq, hb.meaning_eq]
    unfold brkMeaning
    split_ifs with hshrinks
    · exact (mappedBytes_remove_le _ _ _).trans_lt hle
    · have hnew := pageAlign_toNat brk
      have hr : PageRange (pageAlign as.counters.brk) (pageAlign brk) :=
        ⟨by omega, pageAlign_mod _, pageAlign_mod _, by omega⟩
      have hgrown := mappedBytes_assign_le (meaning as)
        (brkAttr env as.counters (pageAlign as.counters.brk) 0) hr
      have hdiff : (pageAlign brk - pageAlign as.counters.brk).toNat =
          (pageAlign brk).toNat - (pageAlign as.counters.brk).toNat :=
        BitVec.toNat_sub_of_le (BitVec.le_def.mpr hr.lt.le)
      -- the difference of the breaks is what the hook was asked about
      have hfits := hlimited.fits h.consistent haccepted (by omega)
      omega

/-- INTERNAL: a fault that lets no area grow maps nothing. -/
theorem limited_expandStack (env : MmEnv) (ans : StackAnswers) (addr : ULong)
    (h : SoundSpace as leak) (hno : (SpaceCall.expandStack env ans addr).Tested limit as) :
    mappedBytes (meaning (as.expandStack env ans addr).2) = mappedBytes (meaning as) := by
  rcases expandStack_outcome env ans h.consistent addr with
    ⟨r, as', heq, hb⟩ | ⟨q, as', heq, hfind, hg⟩
  · rw [heq, hb.meaning_eq]
  · have hg' : GrownInto as (as.expandStack env ans addr).2 leak q (alignDown pageShift addr) :=
      heq ▸ hg
    exact absurd (hg'.letsGrow hfind) (hno q)

/-- INTERNAL: a tested call leaves less than a page above the limit. -/
theorem SpaceCall.Tested.step {c : SpaceCall} (htested : c.Tested limit as) (hok : c.Ok)
    (h : SoundSpace as leak) (hle : mappedBytes (meaning as) < limit.toNat + 4096) :
    mappedBytes (meaning (c.run as)) < limit.toNat + 4096 := by
  cases c with
  | mmapRegion env ans req => exact limited_mmapRegion env ans req hok h htested hle
  | munmap env ans addr len => exact (limited_munmap env ans addr len h).trans_lt hle
  | brk env ans find current l brk => exact limited_brk env ans find current l brk hok h htested hle
  | expandStack env ans addr => exact (limited_expandStack env ans addr h htested).trans_lt hle

/-! ## Runs -/

/-- MAIN: **a limited process** that starts within its limit never has a page or more mapped above
it, whatever `mmap`, `munmap`, `brk` and `expand_stack` do in whatever order, as long as no stack
grows. What is counted here is the memory that is mapped, not a counter.
SOURCE: mm/mmap.c:181-288, 1405-1456, 2740-3026; crudmemlimit.c:32-67 -/
theorem limitedRun_bounded (calls : List SpaceCall) (h : SoundSpace as leak)
    (hstart : mappedBytes (meaning as) ≤ limit.toNat)
    (hrun : spaceMachine.Along (fun s c => c.Ok ∧ c.Tested limit s) as calls) :
    mappedBytes (meaning (spaceMachine.final as calls)) < limit.toNat + 4096 := by
  refine (spaceMachine.final_inv_along (fun s c => c.Ok ∧ c.Tested limit s)
    (fun s => (∃ leak, SoundSpace s leak) ∧ mappedBytes (meaning s) < limit.toNat + 4096)
    ?_ as ⟨⟨leak, h⟩, by omega⟩ calls hrun).2
  rintro s c ⟨⟨leak, hs⟩, hle⟩ ⟨hok, htested⟩
  obtain ⟨leak', hstep, -⟩ := c.step hok hs
  exact ⟨⟨leak', hstep.sound⟩, htested.step hok hs hle⟩

/-- A process limited to four and a half pages asks for one and a half, and unmaps a page. -/
def limitedCalls : List SpaceCall :=
  [.mmapRegion quietEnv quietRegion overlapRequest, .munmap quietEnv quietMunmap 0x4000 0x1000]

/-- INTERNAL: every call of the example is tested in the state in which it is made. -/
theorem limitedCalls_tested :
    spaceMachine.Along (fun s c => c.Ok ∧ c.Tested 0x4800 s) twoAreas limitedCalls := by
  refine ⟨⟨⟨quietRegion_driverOk, by decide, by decide⟩, ?_⟩, ⟨trivial, trivial⟩, trivial⟩
  exact ⟨fun _ => some heapOwner, 5, [⟨5, 0x4800⟩], 0x1800, ⟨by decide, by decide⟩, by decide,
    by decide⟩

/-- INTERNAL: the calls of the example, from the address space of two areas, meet the
assumptions. -/
theorem limitedRun_bounded_twoAreas :
    mappedBytes (meaning twoAreas) ≤ 0x4800 ∧
      mappedBytes (meaning (spaceMachine.final twoAreas limitedCalls)) < 0x5800 := by
  have hstart : mappedBytes (meaning twoAreas) ≤ (0x4800 : ULong).toNat := by
    rw [twoAreas_consistent.mappedBytes_eq.1]
    decide
  exact ⟨hstart, limitedRun_bounded limitedCalls twoAreas_sound hstart limitedCalls_tested⟩

end Limit

end UsacKernel.Analysis
