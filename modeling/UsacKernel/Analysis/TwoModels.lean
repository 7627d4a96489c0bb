import UsacKernel.Analysis.ListBreak
import UsacKernel.Analysis.SpaceRuns

/-!
# The two models of the address space

`mmap_region`, `munmap` and `brk` are modelled twice, on the maple tree and on a list of ranges.
The second is the first seen through `toMm`: whatever a call on the tree returns, the same call on
the list returns it under some answers, and the list shows the tree afterwards
(`SpaceCall.simulated`). So whole runs of the tree are runs of the list (`spaceRun_simulated`), and
what holds of all runs of the list holds of those of the tree.
-/

set_option autoImplicit false

namespace UsacKernel.Analysis

open UsacKernel.Computation UsacKernel.Model UsacKernel.Interface IndexedHeap

/-- A call on an address space that is a list. -/
inductive ListCall
  | mmapRegion (env : MmEnv) (file : Option File) (addr len vmFlags : ULong)
  | munmap (env : MmEnv) (addr len : ULong)
  | brk (env : MmEnv) (find : PidT → Option TaskStruct) (current : TaskStruct) (l : MemoryList)
      (value : ULong)

/-- The result of a call that returns an error number, as a word. -/
def errnoWord : Option Errno → ULong
  | none => 0
  | some e => e.ptr

/-- The list after a call, and what the call returns. -/
def ListCall.run : ListCall → MmStruct → MmStruct × ULong
  | mmapRegion env file addr len vmFlags, mm =>
    ((Model.mmapRegion env mm file addr len vmFlags).2,
      (Model.mmapRegion env mm file addr len vmFlags).1)
  | munmap env addr len, mm =>
    if env.lockKilled then (mm, EINTR.ptr)
    else ((doVmiMunmap env mm addr len).2, errnoWord (doVmiMunmap env mm addr len).1)
  | brk env find current l value, mm =>
    ((Model.brk env find current l mm value).2, (Model.brk env find current l mm value).1)

/-- The address space that is a list, as a machine whose inputs are the calls. -/
def listMachine : Mealy MmStruct ListCall ULong where
  step mm c := c.run mm

/-- What a call on the tree returns, as a word. A list does not grow for a fault. -/
def SpaceCall.answer : SpaceCall → AddressSpace → ULong
  | mmapRegion env ans req, as => resultWord (as.mmapRegion env ans req).1
  | munmap env ans addr len, as => errnoWord (as.munmap env ans addr len).1
  | brk env ans find current l value, as => (as.brk env ans find current l value).1
  | expandStack _ _ _, _ => 0

/-- `spaceMachine` with what the calls return. -/
def answeringSpace : Mealy AddressSpace SpaceCall ULong where
  step as c := (c.run as, c.answer as)

/-- The two calls are one: the arguments are the same, and the rest of the kernel answers the same
but for what the tree decides. The growth of a stack has no counterpart on the list. -/
inductive SameCall : SpaceCall → ListCall → Prop
  | mmapRegion (env : MmEnv) (ans : RegionAnswers) (req : RegionRequest) (file : Option File)
      (c : CoarseAnswers) (hfile : SameFile req.file file) :
      SameCall (.mmapRegion env ans req)
        (.mmapRegion (answering env c) file req.addr req.len req.vmFlags)
  | munmap (env : MmEnv) (ans : MunmapAnswers) (addr len : ULong) (c : CoarseAnswers) :
      SameCall (.munmap env ans addr len) (.munmap (answering env c) addr len)
  | brk (env : MmEnv) (ans : BrkAnswers) (find : PidT → Option TaskStruct) (current : TaskStruct)
      (l : MemoryList) (value : ULong) (c : CoarseAnswers) :
      SameCall (.brk env ans find current l value) (.brk (answering env c) find current l value)

/-- The call is one that the list model has. -/
def SpaceCall.OnList : SpaceCall → Prop
  | expandStack _ _ _ => False
  | _ => True

/-- A file of the list model for one of the tree. `mmap_region` asks only whether it has huge
pages. -/
def listFile (file : OpenFile) : File where
  hugeShift := if file.isHugepages then some ⟨21, by decide, by decide⟩ else none
  inodeKind := .sized
  modeRead := true
  modeWrite := true
  isSwapfile := false
  isAppend := false
  pathNoexec := false
  hasMmap := true
  mmapSupportedFlags := 0

section Runs

variable {as : AddressSpace} {mm : MmStruct} {leak : ℤ}

/-- INTERNAL: every file of the tree has one of the list model. -/
theorem sameFile_listFile (file : Option OpenFile) : SameFile file (file.map listFile) := by
  cases file with
  | none => rfl
  | some f =>
    refine congrArg some ?_
    show f.isHugepages = (if f.isHugepages then some _ else none).isSome
    cases f.isHugepages <;> rfl

/-- INTERNAL: a call on the tree is a call on the list.
SOURCE: mm/mmap.c:181-288, 2740-3026 -/
theorem SpaceCall.simulated (call : SpaceCall) (hok : call.Ok) (hlist : call.OnList)
    (h : SoundSpace as leak) (hs : Shows as mm) :
    ∃ k, SameCall call k ∧ (k.run mm).2 = call.answer as ∧ Shows (call.run as) (k.run mm).1 := by
  cases call with
  | mmapRegion env ans req =>
    obtain ⟨hdriver, hlen, hflags⟩ := hok
    obtain ⟨c, hres, hs'⟩ := mmapRegion_shows env ans hdriver hlen hflags h.consistent hs
      (sameFile_listFile req.file)
    exact ⟨_, .mmapRegion env ans req _ c (sameFile_listFile req.file), hres, hs'⟩
  | munmap env ans addr len =>
    obtain ⟨error, hunmap⟩ := doVmiMunmap_shows env ans h.consistent hs addr len
    obtain ⟨hres, hs'⟩ := hunmap (coarse (mm.mapCount + 1) error false none 0 true) rfl
      (lt_add_one _)
    refine ⟨_, .munmap env ans addr len (coarse (mm.mapCount + 1) error false none 0 true), ?_⟩
    unfold SpaceCall.answer SpaceCall.run ListCall.run AddressSpace.munmap
    by_cases hkilled : env.lockKilled = true
    · have hkilled' : (answering env
          (coarse (mm.mapCount + 1) error false none 0 true)).lockKilled = true := hkilled
      simp only [if_pos hkilled, if_pos hkilled']
      exact ⟨rfl, hs⟩
    · have hkilled' : ¬ (answering env
          (coarse (mm.mapCount + 1) error false none 0 true)).lockKilled = true := hkilled
      simp only [if_neg hkilled, if_neg hkilled']
      exact ⟨congrArg errnoWord hres, hs'⟩
  | brk env ans find current l value =>
    obtain ⟨hfixed, hgap⟩ := hok
    obtain ⟨c, hres, hs'⟩ := brk_shows env ans find current l hfixed hgap h.consistent h.defFlags
      h.brk_le hs value
    exact ⟨_, .brk env ans find current l value c, hres, hs'⟩
  | expandStack env ans addr => cases hlist

/-- MAIN: **the list model is the tree model seen through `toMm`**. Every run of `mmap_region`,
`munmap` and `brk` on the tree is a run of the same calls on the list of its areas: they return
the same, the list has the flags that are mapped in the tree, and all counters agree.
SOURCE: mm/mmap.c:181-288, 2740-3026 -/
theorem spaceRun_simulated (calls : List SpaceCall) (hok : ∀ c ∈ calls, c.Ok ∧ c.OnList)
    (h : SoundSpace as leak) :
    ∃ listCalls, List.Forall₂ SameCall calls listCalls ∧
      listMachine.outputs as.toMm listCalls = answeringSpace.outputs as calls ∧
      listMeaning (listMachine.final as.toMm listCalls).vmas =
        flagsOnly (meaning (answeringSpace.final as calls)) ∧
      ∀ k : PageClass, k.counter (mmCounters (listMachine.final as.toMm listCalls)) =
        k.counter (answeringSpace.final as calls).counters := by
  obtain ⟨listCalls, hsame, ⟨leak', hsound, hs⟩, houtputs⟩ :=
    answeringSpace.exists_simulating_run listMachine
      (fun as mm => ∃ leak, SoundSpace as leak ∧ Shows as mm) (fun c => c.Ok ∧ c.OnList) SameCall
      (fun as mm c hc hR => by
        obtain ⟨leak, hsound, hs⟩ := hR
        obtain ⟨k, hk, hres, hs'⟩ := c.simulated hc.1 hc.2 hsound hs
        obtain ⟨leak', hstep, -⟩ := c.step hc.1 hsound
        exact ⟨k, hk, ⟨leak', hstep.sound, hs'⟩, hres⟩)
      as as.toMm ⟨leak, h, h.consistent.shows_toMm⟩ calls hok
  exact ⟨listCalls, hsame, houtputs, hs.meaning_eq, hs.counter_eq hsound.consistent⟩

/-- The three calls on the two areas, on the list of the areas. -/
theorem spaceRun_simulated_mixed :
    ∃ listCalls, List.Forall₂ SameCall mixedCalls listCalls ∧
      listMachine.outputs twoAreas.toMm listCalls = answeringSpace.outputs twoAreas mixedCalls := by
  obtain ⟨listCalls, hsame, houtputs, -⟩ := spaceRun_simulated mixedCalls
    (fun c hc => ⟨mixedCalls_ok c hc, by
      simp only [mixedCalls, List.mem_cons, List.not_mem_nil, or_false] at hc
      rcases hc with rfl | rfl | rfl <;> trivial⟩) twoAreas_sound
  exact ⟨listCalls, hsame, houtputs⟩

end Runs

end UsacKernel.Analysis
