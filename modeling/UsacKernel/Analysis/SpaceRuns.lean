import UsacKernel.Analysis.HeapBreak
import UsacKernel.Analysis.StackGrowth
import UsacKernel.Computation.Mealy

/-!
# Runs of the address space

The calls of a process on its address space in any order, with any answers of the rest of the
kernel: `mmap_region`, `munmap`, `brk` and the growth of a stack. Each of them keeps the invariant
`SoundSpace` and changes the meaning of no address outside its range (`SpaceCall.step`), so whole
runs do (`spaceRun_contract`). The only calls after which pages stay charged that no area gives
back are those that let a stack without `VM_ACCOUNT` grow.
-/

set_option autoImplicit false

namespace UsacKernel.Analysis

open UsacKernel.Computation UsacKernel.Model UsacKernel.Interface IndexedHeap

/-- A call on an address space, with what the rest of the kernel answers. -/
inductive SpaceCall
  | mmapRegion (env : MmEnv) (ans : RegionAnswers) (req : RegionRequest)
  | munmap (env : MmEnv) (ans : MunmapAnswers) (addr len : ULong)
  | brk (env : MmEnv) (ans : BrkAnswers) (find : PidT → Option TaskStruct) (current : TaskStruct)
      (l : MemoryList) (value : ULong)
  | expandStack (env : MmEnv) (ans : StackAnswers) (addr : ULong)

namespace SpaceCall

/-- The address space after a call. -/
def run : SpaceCall → AddressSpace → AddressSpace
  | mmapRegion env ans req, as => (as.mmapRegion env ans req).2
  | munmap env ans addr len, as => (as.munmap env ans addr len).2
  | brk env ans find current l value, as => (as.brk env ans find current l value).2
  | expandStack env ans addr, as => (as.expandStack env ans addr).2

/-- What the callers and the drivers guarantee: `do_mmap` passes whole pages and leaves the charge
to `mmap_region`; a fixed address stays where it is, and the guard gap is one of user space. -/
def Ok : SpaceCall → Prop
  | mmapRegion _ ans req =>
    DriverOk ans ∧ req.len.toNat % 4096 = 0 ∧ isAccounted req.vmFlags = false
  | munmap _ _ _ _ => True
  | brk env _ _ _ _ _ =>
    FixedStays env ∧ env.stackGuardGap.toNat ≤ 2 ^ 56
  | expandStack _ _ _ => True

/-- The addresses whose meaning a call may change. -/
def Touches : SpaceCall → AddressSpace → ℕ → Prop
  | mmapRegion _ _ req, _, a => req.addr.toNat ≤ a ∧ a < req.stop.toNat
  | munmap _ _ addr len, _, a => addr.toNat ≤ a ∧ a < (addr + pageAlign len).toNat
  | brk _ _ _ _ _ value, as, a =>
    min (pageAlign value).toNat (pageAlign as.counters.brk).toNat ≤ a ∧
      a < max (pageAlign value).toNat (pageAlign as.counters.brk).toNat
  | expandStack _ _ addr, as, a =>
    (alignDown pageShift addr).toNat ≤ a ∧
      ∃ q, as.findVma addr = some q ∧ a < (as.heap q).vmStart.toNat

/-- The call lets the area `q` grow: it is the one above the address of a fault, and begins lower
afterwards. -/
def LetsGrow (q : Ptr) : SpaceCall → AddressSpace → Prop
  | expandStack env ans addr, as => as.findVma addr = some q ∧
      ((as.expandStack env ans addr).2.heap q).vmStart < (as.heap q).vmStart
  | _, _ => False

/-- The call lets no area grow whose pages are not given back. -/
def GrowsAccounted (c : SpaceCall) (as : AddressSpace) : Prop :=
  ∀ q, c.LetsGrow q as → isAccounted (as.heap q).vmFlags = true

end SpaceCall

/-- The address space as a machine whose inputs are the calls. -/
def spaceMachine : Mealy AddressSpace SpaceCall Unit where
  step as c := (c.run as, ())

/-- The invariant of the runs: the areas, the tree and the counters are consistent, the default
flags fit a heap, and the break is a user address. -/
structure SoundSpace (as : AddressSpace) (leak : ℤ) : Prop where
  consistent : Consistent as leak
  defFlags : DefFlagsOk as.counters
  brk_pos : 0 < as.counters.brk.toNat
  brk_le : as.counters.brk.toNat ≤ 2 ^ 56
  startBrk_pos : 0 < as.counters.startBrk.toNat
  endData_pos : 0 < as.counters.endData.toNat

/-- What one call does, if it touches only the addresses in `touched`. -/
structure SpaceStep (as as' : AddressSpace) (leak leak' : ℤ) (touched : ℕ → Prop) : Prop where
  sound : SoundSpace as' leak'
  leak_le : leak ≤ leak'
  warned_eq : as'.warned = as.warned
  frame : ∀ a, ¬ touched a → meaning as' a = meaning as a

section Step

variable {as as' : AddressSpace} {leak leak' : ℤ} {m : AddressMap} {touched : ℕ → Prop}

/-- INTERNAL: an assignment shows within its range only. -/
theorem assign_frame {lo hi a : ℕ} (attr : PageAttr) (ha : ¬ (lo ≤ a ∧ a < hi)) :
    m.assign lo hi attr a = m a := if_neg ha

/-- INTERNAL: a removal shows within its range only. -/
theorem remove_frame {lo hi a : ℕ} (ha : ¬ (lo ≤ a ∧ a < hi)) : m.remove lo hi a = m a := if_neg ha

/-- INTERNAL: the conditions on the break survive what keeps the layout. -/
theorem SoundSpace.of_layout (h : SoundSpace as leak) (hc : Consistent as' leak')
    (hlayout : layout as'.counters = layout as.counters) : SoundSpace as' leak' := by
  unfold layout at hlayout
  rw [Prod.mk.injEq, Prod.mk.injEq, Prod.mk.injEq, Prod.mk.injEq] at hlayout
  obtain ⟨hbrk, hstartBrk, -, hendData, hdef⟩ := hlayout
  refine ⟨hc, ?_, ?_, ?_, ?_, ?_⟩
  · unfold DefFlagsOk
    rw [hdef]
    exact h.defFlags
  · rw [hbrk]
    exact h.brk_pos
  · rw [hbrk]
    exact h.brk_le
  · rw [hstartBrk]
    exact h.startBrk_pos
  · rw [hendData]
    exact h.endData_pos

/-- INTERNAL: the break may move within user space. -/
theorem SoundSpace.setBrk (h : SoundSpace as leak) {brk : ULong} (hpos : 0 < brk.toNat)
    (hle : brk.toNat ≤ 2 ^ 56) : SoundSpace (as.setBrk brk) leak :=
  ⟨h.consistent.setBrk brk, h.defFlags, hpos, hle, h.startBrk_pos, h.endData_pos⟩

/-- INTERNAL: the lowest break is never zero, so the move to it keeps the space sound. -/
theorem SoundSpace.minBrk_pos (h : SoundSpace as leak) (env : MmEnv) :
    0 < (minBrk env as.toMm).toNat := by
  unfold minBrk
  split_ifs
  · exact h.endData_pos
  · exact h.startBrk_pos

/-- INTERNAL: a call whose contract is a change of the map is a step, when the change shows only
where the call may touch. -/
theorem Becomes.step (hb : Becomes as as' leak' m) (h : SoundSpace as leak) (hle : leak ≤ leak')
    (hm : ∀ a, ¬ touched a → m a = meaning as a) : SpaceStep as as' leak leak' touched where
  sound := h.of_layout hb.consistent hb.layout_eq
  leak_le := hle
  warned_eq := hb.warned_eq
  frame a ha := (congrFun hb.meaning_eq a).trans (hm a ha)

/-! ## One call -/

/-- INTERNAL: `mmap_region` is a step within its range. -/
theorem step_mmapRegion (env : MmEnv) (ans : RegionAnswers) (req : RegionRequest)
    (hok : (SpaceCall.mmapRegion env ans req).Ok) (h : SoundSpace as leak) :
    SpaceStep as (as.mmapRegion env ans req).2 leak leak
      ((SpaceCall.mmapRegion env ans req).Touches as) := by
  obtain ⟨hdriver, hlen, hflags⟩ := hok
  rcases mmapRegion_becomes env ans hdriver hlen hflags h.consistent with
    ⟨e, as', heq, hb⟩ | ⟨-, ⟨e, as', heq, hb⟩ | ⟨as', attr, heq, -, hb⟩⟩
  · rw [heq]
    exact hb.step h le_rfl fun _ _ => rfl
  · rw [heq]
    exact hb.step h le_rfl fun _ ha => remove_frame ha
  · rw [heq]
    exact hb.step h le_rfl fun _ ha => (assign_frame attr ha).trans (remove_frame ha)

/-- INTERNAL: `munmap` is a step within its range. -/
theorem step_munmap (env : MmEnv) (ans : MunmapAnswers) (addr len : ULong)
    (h : SoundSpace as leak) :
    SpaceStep as (as.munmap env ans addr len).2 leak leak
      ((SpaceCall.munmap env ans addr len).Touches as) := by
  unfold AddressSpace.munmap
  split_ifs
  · exact h.consistent.becomes.step h le_rfl fun _ _ => rfl
  · rcases doVmiMunmap_becomes env ans h.consistent addr len with
      ⟨e, as', heq, hb⟩ | ⟨as', heq, -, hb, -⟩
    · rw [heq]
      exact hb.step h le_rfl fun _ _ => rfl
    · rw [heq]
      exact hb.step h le_rfl fun _ ha => remove_frame ha

/-- INTERNAL: the break moves within the range between its two values. -/
theorem brkMeaning_frame (env : MmEnv) {newbrk oldbrk : ULong} {a : ℕ}
    (ha : ¬ (min newbrk.toNat oldbrk.toNat ≤ a ∧ a < max newbrk.toNat oldbrk.toNat)) :
    brkMeaning env as newbrk oldbrk a = meaning as a := by
  unfold brkMeaning
  split_ifs with hle
  · exact remove_frame (by omega)
  · exact assign_frame _ (by omega)

/-- INTERNAL: `brk` is a step between the old and the new break. -/
theorem step_brk (env : MmEnv) (ans : BrkAnswers) (find : PidT → Option TaskStruct)
    (current : TaskStruct) (l : MemoryList) (brk : ULong)
    (hok : (SpaceCall.brk env ans find current l brk).Ok) (h : SoundSpace as leak) :
    SpaceStep as (as.brk env ans find current l brk).2 leak leak
      ((SpaceCall.brk env ans find current l brk).Touches as) := by
  obtain ⟨hfixed, hgap⟩ := hok
  rcases brk_becomes env ans find current l hfixed hgap h.consistent h.defFlags h.brk_pos h.brk_le
      brk with ⟨r, as', heq, -, hb⟩ | ⟨as', heq, -, hmin, huser, hb⟩
  · rw [heq]
    exact hb.step h le_rfl fun _ _ => rfl
  · rw [heq]
    have hset := h.setBrk ((h.minBrk_pos env).trans_le hmin) huser
    have hstep := hb.step hset le_rfl fun _ ha => brkMeaning_frame env ha
    exact ⟨hstep.sound, hstep.leak_le, hstep.warned_eq, hstep.frame⟩

/-- INTERNAL: where `expand_stack` changes what is mapped, an area has grown. -/
theorem GrownInto.letsGrow {env : MmEnv} {ans : StackAnswers} {addr : ULong} {q : Ptr}
    (hg : GrownInto as (as.expandStack env ans addr).2 leak q (alignDown pageShift addr))
    (hfind : as.findVma addr = some q) :
    (SpaceCall.expandStack env ans addr).LetsGrow q as := by
  refine ⟨hfind, ?_⟩
  rw [hg.vmStart_eq]
  exact BitVec.lt_def.mpr hg.lt

/-- INTERNAL: growing the stack is a step below it; it leaks no charge when the stack is
accounted. -/
theorem step_expandStack (env : MmEnv) (ans : StackAnswers) (addr : ULong)
    (h : SoundSpace as leak) :
    ∃ leak', SpaceStep as (as.expandStack env ans addr).2 leak leak'
        ((SpaceCall.expandStack env ans addr).Touches as) ∧
      ((SpaceCall.expandStack env ans addr).GrowsAccounted as → leak' = leak) := by
  rcases expandStack_outcome env ans h.consistent addr with
    ⟨r, as', heq, hb⟩ | ⟨q, as', heq, hfind, hg⟩
  · rw [heq]
    exact ⟨leak, hb.step h le_rfl fun _ _ => rfl, fun _ => rfl⟩
  · have hg' : GrownInto as (as.expandStack env ans addr).2 leak q (alignDown pageShift addr) :=
      heq ▸ hg
    have hle := le_add_of_nonneg_right (a := leak) (Int.natCast_nonneg
      (if isAccounted (as.heap q).vmFlags then 0
        else (bytesToPages ((as.heap q).vmStart - alignDown pageShift addr)).toNat))
    refine ⟨_, hg'.becomes.step h hle fun a ha => assign_frame _ fun hin => ha ?_, fun hacc => ?_⟩
    · exact ⟨hin.1, q, hfind, hin.2⟩
    · rw [if_pos (hacc q (hg'.letsGrow hfind)), Nat.cast_zero, add_zero]

/-- INTERNAL: every call keeps the invariant and the addresses outside its range, and only the
growth of a stack without `VM_ACCOUNT` leaves pages charged. -/
theorem SpaceCall.step (c : SpaceCall) (hok : c.Ok) (h : SoundSpace as leak) :
    ∃ leak', SpaceStep as (c.run as) leak leak' (c.Touches as) ∧
      (c.GrowsAccounted as → leak' = leak) := by
  cases c with
  | mmapRegion env ans req => exact ⟨leak, step_mmapRegion env ans req hok h, fun _ => rfl⟩
  | munmap env ans addr len => exact ⟨leak, step_munmap env ans addr len h, fun _ => rfl⟩
  | brk env ans find current l brk =>
    exact ⟨leak, step_brk env ans find current l brk hok h, fun _ => rfl⟩
  | expandStack env ans addr => exact step_expandStack env ans addr h

/-! ## Runs -/

/-- INTERNAL: a run keeps the invariant and the addresses that none of its calls touches. -/
theorem spaceRun_step (calls : List SpaceCall) (hok : ∀ c ∈ calls, c.Ok) (h : SoundSpace as leak) :
    ∃ leak', SpaceStep as (spaceMachine.final as calls) leak leak'
        (fun a => ¬ spaceMachine.Along (fun s c => ¬ c.Touches s a) as calls) ∧
      (spaceMachine.Along (fun s c => c.GrowsAccounted s) as calls → leak' = leak) := by
  -- on the calls: the first one is a step, and the rest is a run from where it has led
  induction calls generalizing as leak with
  | nil => exact ⟨leak, h.consistent.becomes.step h le_rfl fun _ _ => rfl, fun _ => rfl⟩
  | cons c calls ih =>
    obtain ⟨hc, hcalls⟩ := List.forall_mem_cons.mp hok
    obtain ⟨leak1, hstep, hleak1⟩ := c.step hc h
    obtain ⟨leak2, hrun, hleak2⟩ := ih hcalls hstep.sound
    refine ⟨leak2, ⟨hrun.sound, hstep.leak_le.trans hrun.leak_le,
      hrun.warned_eq.trans hstep.warned_eq, ?_⟩, ?_⟩
    · intro a ha
      obtain ⟨hfirst, hrest⟩ := not_not.mp ha
      exact (hrun.frame a (not_not_intro hrest)).trans (hstep.frame a hfirst)
    · rintro ⟨hfirst, hrest⟩
      exact (hleak2 hrest).trans (hleak1 hfirst)

/-- MAIN: **every run** of `mmap_region`, `munmap`, `brk` and `expand_stack`, whatever fails on its
way, leaves a valid tree, gives no warning, and keeps each counter the number of the pages of its
class. An address that no call touched means what it meant. Pages beyond those of the areas stay
charged only if a stack without `VM_ACCOUNT` has grown.
SOURCE: mm/mmap.c:181-288, 2264-2290, 2740-3026 -/
theorem spaceRun_contract (calls : List SpaceCall) (hok : ∀ c ∈ calls, c.Ok)
    (h : SoundSpace as leak) :
    validateMm (spaceMachine.final as calls) = true ∧
      (spaceMachine.final as calls).warned = as.warned ∧
      (∀ k : PageClass, (k.counter (spaceMachine.final as calls).counters).toNat =
        pagesWhere (meaning (spaceMachine.final as calls)) k.holds) ∧
      (∀ a, spaceMachine.Along (fun s c => ¬ c.Touches s a) as calls →
        meaning (spaceMachine.final as calls) a = meaning as a) ∧
      ∃ leak', leak ≤ leak' ∧
        (spaceMachine.Along (fun s c => c.GrowsAccounted s) as calls → leak' = leak) ∧
        (spaceMachine.final as calls).counters.committed =
          pagesWhere (meaning (spaceMachine.final as calls)) isAccounted + leak' := by
  obtain ⟨leak', hrun, hleak⟩ := spaceRun_step calls hok h
  obtain ⟨cells, hholds, hacc⟩ := hrun.sound.consistent.areas
  refine ⟨hrun.sound.consistent.validateMm_eq, hrun.warned_eq, hacc.counter_toNat hholds,
    fun a ha => hrun.frame a (not_not_intro ha), leak', hrun.leak_le, hleak, ?_⟩
  rw [hholds.meaning_eq, hholds.pagesWhere_eq isAccounted_ignoresSoftDirty]
  exact hacc.committed

/-- INTERNAL: the address space of two areas is sound. -/
theorem twoAreas_sound : SoundSpace twoAreas 0 where
  consistent := twoAreas_consistent
  defFlags := by
    unfold DefFlagsOk
    decide
  brk_pos := by decide
  brk_le := by decide
  startBrk_pos := by decide
  endData_pos := by decide

/-- Pages are mapped over the end of the first area, the break moves down, and the second area is
unmapped. -/
def mixedCalls : List SpaceCall :=
  [.mmapRegion quietEnv quietRegion overlapRequest,
    .brk quietEnv quietBrk (fun _ => some heapOwner) heapOwner [] 0x2000,
    .munmap quietEnv quietMunmap 0x4000 0x1000]

/-- INTERNAL: every call of the example is one that the kernel makes. -/
theorem mixedCalls_ok : ∀ c ∈ mixedCalls, c.Ok := by
  intro c hc
  simp only [mixedCalls, List.mem_cons, List.not_mem_nil, or_false] at hc
  rcases hc with rfl | rfl | rfl
  · exact ⟨quietRegion_driverOk, by decide, by decide⟩
  · exact ⟨fun _ _ _ => rfl, by decide⟩
  · trivial

/-- The page below the three calls keeps its meaning. -/
theorem spaceRun_contract_mixed :
    validateMm (spaceMachine.final twoAreas mixedCalls) = true ∧
      meaning (spaceMachine.final twoAreas mixedCalls) 0x1000 = meaning twoAreas 0x1000 := by
  obtain ⟨hvalid, -, -, hframe, -⟩ := spaceRun_contract mixedCalls mixedCalls_ok twoAreas_sound
  refine ⟨hvalid, hframe 0x1000 ⟨?_, ?_, ?_, trivial⟩⟩
  · unfold SpaceCall.Touches
    decide
  · unfold SpaceCall.Touches
    decide
  · unfold SpaceCall.Touches
    decide

end Step

end UsacKernel.Analysis
