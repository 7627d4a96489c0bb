import UsacKernel.Analysis.ProcessIdentity

/-!
# The request test against exact arithmetic

`is_request_accepted` adds the usage and the request in 64 bits. `ksys_mmap_pgoff` calls
it with a length, for which a wrapped sum is an error, and `brk` calls it with the
difference of two breaks, which is itself wrapped when the break moves down. Neither
caller tells it what the call is going to release. The results here say when the test
decides as exact arithmetic on the usage after the call would decide.
-/

set_option autoImplicit false

namespace UsacKernel.Analysis

open UsacKernel.Computation UsacKernel.Model

/-! ## The test -/

/-- The decision on a request by arithmetic without wrap-around. -/
def FitsExactly (l : MemoryList) (pid : PidT) (usage requested : ℕ) : Prop :=
  (∀ limit, ⟨pid, limit⟩ ∉ l) ∨ ∃ limit, ⟨pid, limit⟩ ∈ l ∧ usage + requested ≤ limit.toNat

section Listed

variable {l : MemoryList} {pid : PidT} {limit : ULong} (hreach : ReachableList l)
  (hentry : ⟨pid, limit⟩ ∈ l)

include hreach hentry

/-- INTERNAL: a reachable list has one entry for a listed pid. -/
theorem entry_unique {other : ULong} (hother : ⟨pid, other⟩ ∈ l) : other = limit := by
  have h := (hreach.limitAt_eq_some pid other).mpr hother
  rw [(hreach.limitAt_eq_some pid limit).mpr hentry] at h
  exact (Option.some.inj h).symm

/-- INTERNAL: a request of a listed process fits when usage and request are within its limit,
without overflow. -/
theorem fitsExactly_iff (usage requested : ℕ) :
    FitsExactly l pid usage requested ↔ usage + requested ≤ limit.toNat := by
  constructor
  · rintro (hnone | ⟨other, hother, hfits⟩)
    · exact absurd hentry (hnone limit)
    · rwa [entry_unique hreach hentry hother] at hfits
  · intro hfits
    exact Or.inr ⟨limit, hentry, hfits⟩

section Usage

variable {find : PidT → Option TaskStruct} {total : ULong}
  (husage : currentUsage find pid = some (pagesToBytes total))

include husage

/-- INTERNAL: the test compares the sum as a word, so modulo `2^64`. -/
theorem accepted_listed_iff (requested : ULong) :
    isRequestAccepted find pid requested l = true ↔
      (total.toNat * 4096 + requested.toNat) % 2 ^ 64 ≤ limit.toNat := by
  rw [isRequestAccepted_mod husage, (hreach.limitAt_eq_some pid limit).mpr hentry]
  simp

variable (hused : total.toNat * 4096 ≤ 2 ^ 56)

include hused

/-- INTERNAL: the test and exact arithmetic on one size. -/
theorem accepted_exact_size_iff (size : ULong) :
    (isRequestAccepted find pid size l = true ↔
        FitsExactly l pid (total.toNat * 4096) size.toNat) ↔
      total.toNat * 4096 + size.toNat < 2 ^ 64 ∨
        2 ^ 64 + limit.toNat < total.toNat * 4096 + size.toNat := by
  have hlimit := limit.isLt
  have hsize := size.isLt
  rw [accepted_listed_iff hreach hentry husage, fitsExactly_iff hreach hentry]
  omega

omit hreach hentry husage in
/-- INTERNAL: unless nothing is in use, some size makes the sum wrap to zero. -/
theorem exists_wrapping_size (hne : total ≠ 0) :
    ∃ size : ULong, total.toNat * 4096 + size.toNat = 2 ^ 64 ∧ 0 < size.toNat := by
  have hpos : total.toNat ≠ 0 := fun h0 => hne (BitVec.eq_of_toNat_eq h0)
  refine ⟨BitVec.ofNat 64 (2 ^ 64 - total.toNat * 4096), ?_⟩
  rw [BitVec.toNat_ofNat]
  omega

/-- INTERNAL: the test is exact for every request only when nothing is mapped: with pages
mapped, some request overflows the sum. -/
theorem accepted_exact_iff :
    (∀ size : ULong, isRequestAccepted find pid size l = true ↔
        FitsExactly l pid (total.toNat * 4096) size.toNat) ↔ total = 0 := by
  simp only [accepted_exact_size_iff hreach hentry husage hused]
  constructor
  · intro h
    by_contra hne
    obtain ⟨size, hwraps, -⟩ := exists_wrapping_size hused hne
    have hsum := h size
    omega
  · intro hempty size
    have hsize := size.isLt
    rw [hempty, show (0 : ULong).toNat = 0 from rfl]
    omega

/-- INTERNAL: the size below one that makes the sum wrap has the largest sum there is. -/
theorem accepted_monotone_iff :
    (∀ size smaller : ULong, smaller ≤ size → isRequestAccepted find pid size l = true →
        isRequestAccepted find pid smaller l = true) ↔
      total = 0 ∨ limit = BitVec.allOnes 64 := by
  have hlimit := limit.isLt
  simp only [accepted_listed_iff hreach hentry husage]
  constructor
  · intro h
    by_cases hne : total = 0
    · exact Or.inl hne
    obtain ⟨size, hwraps, hpos⟩ := exists_wrapping_size hused hne
    have hpred : (size - 1).toNat = size.toNat - 1 := by
      have hsize := size.isLt
      rw [BitVec.toNat_sub, show (1 : ULong).toNat = 1 from rfl]
      omega
    have hbelow := h size (size - 1) (BitVec.le_def.mpr (by omega)) (by omega)
    right
    apply BitVec.eq_of_toNat_eq
    rw [BitVec.toNat_allOnes]
    omega
  · rintro (hempty | hmax) size smaller hle hsum
    · have hle' := BitVec.le_def.mp hle
      have hsize := size.isLt
      rw [hempty, show (0 : ULong).toNat = 0 from rfl] at hsum ⊢
      omega
    · rw [hmax, BitVec.toNat_allOnes]
      omega

end Usage

end Listed

/-- MAIN: **the request test and exact arithmetic.** For a pid whose task has an address
space of at most `TASK_SIZE` bytes: the test decides on a size as exact arithmetic does
exactly when there is no entry, the sum of usage and size is below `2^64`, or what the sum
wraps to is above the limit. It does so for every size exactly when there is no entry or
the address space is empty, and it accepts, with a size, every smaller size exactly when
there is no entry, the address space is empty, or the limit is the largest number.
SOURCE: crudmemlimit.c:32-67 -/
theorem isRequestAccepted_exact_iff (env : MmEnv) (find : PidT → Option TaskStruct) (pid : PidT)
    (task : TaskStruct) (mm : MmStruct) (l : MemoryList) (hreach : ReachableList l)
    (hfind : find pid = some task) (hmm : task.mm = some mm)
    (htotal : mm.totalVm.toNat * 4096 ≤ env.taskSize.toNat) :
    let usage := mm.totalVm.toNat * 4096
    let Accepted (size : ULong) : Prop := isRequestAccepted find pid size l = true
    (∀ size, (Accepted size ↔ FitsExactly l pid usage size.toNat) ↔
        ∀ limit, ⟨pid, limit⟩ ∈ l →
          usage + size.toNat < 2 ^ 64 ∨ 2 ^ 64 + limit.toNat < usage + size.toNat) ∧
      ((∀ size, Accepted size ↔ FitsExactly l pid usage size.toNat) ↔
        (∀ limit, ⟨pid, limit⟩ ∉ l) ∨ mm.totalVm = 0) ∧
      ((∀ size smaller, smaller ≤ size → Accepted size → Accepted smaller) ↔
        (∀ limit, ⟨pid, limit⟩ ∉ l) ∨ mm.totalVm = 0 ∨ ⟨pid, BitVec.allOnes 64⟩ ∈ l) := by
  intro usage Accepted
  have husage := currentUsage_eq_some hfind hmm
  by_cases hnone : ∀ limit, ⟨pid, limit⟩ ∉ l
  · -- without an entry everything is accepted, and everything fits
    have haccepted (size : ULong) : Accepted size := by
      apply (isRequestAccepted_mod husage l size).mpr
      intro limit hlimit
      exact absurd ((hreach.limitAt_eq_some pid limit).mp hlimit) (hnone limit)
    have hfits (size : ULong) : FitsExactly l pid usage size.toNat := Or.inl hnone
    refine ⟨?_, ?_, ?_⟩
    · intro size
      exact iff_of_true (iff_of_true (haccepted size) (hfits size))
        (fun limit h => absurd h (hnone limit))
    · exact iff_of_true (fun size => iff_of_true (haccepted size) (hfits size)) (Or.inl hnone)
    · exact iff_of_true (fun _ smaller _ _ => haccepted smaller) (Or.inl hnone)
  · push Not at hnone
    obtain ⟨limit, hentry⟩ := hnone
    have hlisted : ¬ ∀ limit, ⟨pid, limit⟩ ∉ l := fun h => h limit hentry
    have hused : mm.totalVm.toNat * 4096 ≤ 2 ^ 56 := htotal.trans env.taskSize_le
    refine ⟨?_, ?_, ?_⟩
    · intro size
      rw [accepted_exact_size_iff hreach hentry husage hused size]
      constructor
      · intro h other hother
        rwa [entry_unique hreach hentry hother]
      · intro h
        exact h limit hentry
    · rw [accepted_exact_iff hreach hentry husage hused]
      simp only [hlisted, false_or]
    · rw [accepted_monotone_iff hreach hentry husage hused]
      simp only [hlisted, false_or]
      constructor
      · exact Or.imp id (fun hmax => hmax ▸ hentry)
      · exact Or.imp id (fun hmax => (entry_unique hreach hentry hmax).symm)

/-- INTERNAL: a process that uses 1000 pages, all that its limit allows; a request of
`2^64 - 4096000` bytes is accepted and one of a page is not. -/
theorem isRequestAccepted_wraps :
    let mm := heapMm 1000
    let find := findTaskByVpid (tableOf 5 mm) (processOf 5 mm)
    ReachableList [⟨5, 4096000⟩] ∧ find 5 = some (processOf 5 mm) ∧
      mm.totalVm.toNat * 4096 ≤ quietEnv.taskSize.toNat ∧
      isRequestAccepted find 5 0xffffffffffc18000 [⟨5, 4096000⟩] = true ∧
      isRequestAccepted find 5 4096 [⟨5, 4096000⟩] = false ∧
      (4096000 : ULong).toNat < mm.totalVm.toNat * 4096 + (0xffffffffffc18000 : ULong).toNat :=
  ⟨reachableList_singleton 5 4096000 (by decide), by decide, by decide, by decide, by decide,
    by decide⟩

/-- INTERNAL: a request for one page, beside a thousand mapped ones, is within the range in
which the test is exact. -/
theorem isRequestAccepted_exact_page :
    isRequestAccepted (findTaskByVpid (tableOf 5 (heapMm 1000)) (processOf 5 (heapMm 1000))) 5 4096
        [⟨5, 4096000⟩] = true ↔
      FitsExactly [⟨5, 4096000⟩] 5 4096000 4096 :=
  ((isRequestAccepted_exact_iff quietEnv
    (findTaskByVpid (tableOf 5 (heapMm 1000)) (processOf 5 (heapMm 1000))) 5
    (processOf 5 (heapMm 1000)) (heapMm 1000) [⟨5, 4096000⟩]
    (reachableList_singleton 5 4096000 (by decide)) (by decide) rfl (by decide)).1 4096).mpr
    (fun _ _ => Or.inl (by decide))

/-! ## `mmap` over existing mappings -/

/-- INTERNAL: a successful `mmap` of the original kernel takes the pages that are mapped in
its range off `total_vm` and puts its own on.
SOURCE: files/originalmmap.c:1395-1438; mm/mmap.c:2740-2996 -/
theorem Original.ksysMmapPgoff_ok (env : MmEnv) (mm : MmStruct) (args : MmapArgs)
    (hok : isErrValue (Original.ksysMmapPgoff env mm args).1 = false) :
    let len := requestedLen env args
    let area := requestedAddr env args
    (∃ file, mmapFile env args = .ok (file, len)) ∧
      (pageAlign len).toNat = (len.toNat + 4095) / 4096 * 4096 ∧
      (Original.ksysMmapPgoff env mm args).2.totalVm =
        mm.totalVm - countVmaPagesRange mm area (area + pageAlign len) +
          bytesToPages (pageAlign len) := by
  intro len area
  cases hfile : mmapFile env args with
  | error e => simp [Original.ksysMmapPgoff, hfile] at hok
  | ok p =>
    obtain ⟨file, len'⟩ := p
    have hlen : len = len' := by simp only [len, requestedLen, hfile]
    have harea : area = mappingAddr env file args.addr len' args.flags args.pgoff := by
      simp only [area, requestedAddr, hfile]
    rw [hlen, harea]
    simp only [Original.ksysMmapPgoff, hfile] at hok ⊢
    have houtcome := vmMmapPgoff_outcome env mm file args.addr len' args.prot args.flags args.pgoff
    generalize vmMmapPgoff env mm file args.addr len' args.prot args.flags args.pgoff = r
      at houtcome hok ⊢
    refine ⟨⟨file, rfl⟩, ?_⟩
    cases houtcome with
    | failed r h => rw [h] at hok; cases hok
    | region vmFlags aligned ok =>
      refine ⟨pageAlign_toNat_of_ne_zero len' aligned, ?_⟩
      have hregion := mmapRegion_outcome env mm file
        (mappingAddr env file args.addr len' args.flags args.pgoff) (pageAlign len') vmFlags
      generalize mmapRegion env mm file
        (mappingAddr env file args.addr len' args.flags args.pgoff) (pageAlign len') vmFlags = r
        at hregion hok ⊢
      cases hregion with
      | refused e => simp at hok
      | unmapped e mm' total vmas => simp at hok
      | mapped mm' flags total vmas =>
        rwa [pageAlign_of_mod (pageAlign len') (pageAlign_mod len')] at total

/-- INTERNAL: where the original mapping succeeds, the modified call is the original one
exactly when the hook accepts.
SOURCE: mm/mmap.c:1405-1456; files/originalmmap.c:1395-1438 -/
theorem ksysMmapPgoff_eq_original_accepted (env : MmEnv) (find : PidT → Option TaskStruct)
    (current : TaskStruct) (l : MemoryList) (mm : MmStruct) (args : MmapArgs) {file : Option File}
    {len : ULong} (hfile : mmapFile env args = .ok (file, len))
    (hok : isErrValue (Original.ksysMmapPgoff env mm args).1 = false) :
    ksysMmapPgoff env find current l mm args = Original.ksysMmapPgoff env mm args ↔
      isRequestAccepted find current.pid len l = true := by
  cases hacc : isRequestAccepted find current.pid len l with
  | true => simp [ksysMmapPgoff, Original.ksysMmapPgoff, hfile, hacc]
  | false =>
    refine iff_of_false ?_ (by decide)
    intro heq
    rw [← heq, ksysMmapPgoff_refused env find current l mm args hfile hacc, isErrValue_ptr] at hok
    cases hok

/-- MAIN: **when `mmap` is refused without cause.** Take a limited process within its limit
and a mapping that the original `ksys_mmap_pgoff` makes without going over it. The modified
one makes the same mapping exactly when the usage and the whole length together are within
the limit (or wrap): the test charges the pages that the mapping replaces a second time.
A mapping that replaces nothing is never refused.
SOURCE: mm/mmap.c:1405-1456, 2756-2773; files/originalmmap.c:1395-1438; crudmemlimit.c:49-66 -/
theorem ksysMmapPgoff_eq_original_iff (env : MmEnv) (tbl : TaskTable) (current : TaskStruct)
    (l : MemoryList) (mm : MmStruct) (limit : ULong) (args : MmapArgs)
    (hproc : LimitedProcess l tbl current mm limit)
    (hbefore : mm.totalVm.toNat * 4096 ≤ limit.toNat)
    (hok : isErrValue (Original.ksysMmapPgoff env mm args).1 = false)
    (hafter : (Original.ksysMmapPgoff env mm args).2.totalVm.toNat * 4096 ≤ limit.toNat) :
    let r := ksysMmapPgoff env (findTaskByVpid tbl current) current l mm args
    let len := requestedLen env args
    let area := requestedAddr env args
    (r = Original.ksysMmapPgoff env mm args ↔
        mm.totalVm.toNat * 4096 + len.toNat ≤ limit.toNat ∨
          2 ^ 64 ≤ mm.totalVm.toNat * 4096 + len.toNat) ∧
      (countVmaPagesRange mm area (area + pageAlign len) = 0 →
        r = Original.ksysMmapPgoff env mm args) := by
  intro r len area
  obtain ⟨⟨file, hfile⟩, haligned, htotal⟩ := Original.ksysMmapPgoff_ok env mm args hok
  have hlimit := limit.isLt
  have hlen := len.isLt
  have haccepted : isRequestAccepted (findTaskByVpid tbl current) current.pid len l = true ↔
      mm.totalVm.toNat * 4096 + len.toNat ≤ limit.toNat ∨
        2 ^ 64 ≤ mm.totalVm.toNat * 4096 + len.toNat := by
    rw [accepted_listed_iff hproc.reachable hproc.entry (currentUsage_eq_some
      (findTaskByVpid_current tbl current hproc.task hproc.initial) hproc.memory)]
    omega
  have hiff : r = Original.ksysMmapPgoff env mm args ↔ _ :=
    ksysMmapPgoff_eq_original_accepted env (findTaskByVpid tbl current) current l mm args hfile hok
  refine ⟨hiff.trans haccepted, ?_⟩
  intro hnothing
  -- the whole length is new, so the usage after the call is the sum that is compared
  rw [hiff, haccepted]
  rw [hnothing, sub_zero] at htotal
  have hsum : (Original.ksysMmapPgoff env mm args).2.totalVm.toNat =
      mm.totalVm.toNat + (len.toNat + 4095) / 4096 := by
    rw [htotal, BitVec.toNat_add, bytesToPages_toNat, haligned]
    change (mm.totalVm.toNat + (len.toNat + 4095) / 4096 * 4096 / 4096) % 2 ^ 64 = _
    omega
  omega

/-- `mmap` of the first page of the heap, in place of what is there. -/
def replaceFirstPage : MmapArgs :=
  ⟨0x555555000000, 4096, PROT_READ ||| PROT_WRITE, MAP_PRIVATE ||| MAP_ANONYMOUS ||| MAP_FIXED, 0, 0⟩

/-- INTERNAL: a process that uses all of its limit maps a page in place of another. The
original kernel leaves it with as many pages as before; the modified one refuses. -/
theorem ksysMmapPgoff_replacement_refused :
    let mm := heapMm 1000
    let original := Original.ksysMmapPgoff quietEnv mm replaceFirstPage
    LimitedProcess [⟨5, 4096000⟩] (tableOf 5 mm) (processOf 5 mm) mm 4096000 ∧
      isErrValue original.1 = false ∧ original.2.totalVm = 1000 ∧
      ksysMmapPgoff quietEnv (findTaskByVpid (tableOf 5 mm) (processOf 5 mm)) (processOf 5 mm)
        [⟨5, 4096000⟩] mm replaceFirstPage = (ENOMEM.ptr, mm) :=
  ⟨limitedProcess_of 5 4096000 (heapMm 1000) (by decide), by decide, by decide, by decide⟩

/-- INTERNAL: a page of the heap is replaced when the limit leaves room for one page more. -/
theorem ksysMmapPgoff_replacement_allowed :
    let mm := heapMm 1000
    ksysMmapPgoff quietEnv (findTaskByVpid (tableOf 5 mm) (processOf 5 mm)) (processOf 5 mm)
        [⟨5, 4100096⟩] mm replaceFirstPage =
      Original.ksysMmapPgoff quietEnv mm replaceFirstPage :=
  (ksysMmapPgoff_eq_original_iff quietEnv (tableOf 5 (heapMm 1000)) (processOf 5 (heapMm 1000))
    [⟨5, 4100096⟩] (heapMm 1000) 4100096 replaceFirstPage
    (limitedProcess_of 5 4100096 (heapMm 1000) (by decide)) (by decide) (by decide)
    (by decide)).1.mpr (Or.inl (by decide))

/-! ## `brk` downwards -/

/-- The pages of `[newbrk, oldbrk)` can be given back: there is an area in the range, its split
does not make one area too many, and nothing fails while it is unmapped. -/
def Releasable (env : MmEnv) (mm : MmStruct) (newbrk oldbrk : ULong) : Prop :=
  ∃ vma, vmaFind mm newbrk oldbrk = some vma ∧ env.munmapError = none ∧
    ¬ (vma.vmStart < newbrk ∧ oldbrk < vma.vmEnd ∧ env.sysctlMaxMapCount ≤ mm.mapCount)

/-- The state and the argument are such that there is something for `brk` to do: the checks
before the hook let the new break pass, it is another one, and it is in the page of the old
one or the pages in between can be given back. -/
def ReleasesHeap (env : MmEnv) (mm : MmStruct) (newBrk : ULong) : Prop :=
  brkRefused env mm newBrk = false ∧ newBrk ≠ mm.brk ∧
    (pageAlign mm.brk = pageAlign newBrk ∨
      Releasable env mm (pageAlign newBrk) (pageAlign mm.brk))

/-- INTERNAL: `do_vmi_align_munmap` below the old break fails unless the pages can be given
back. The break that was stored before it does not matter.
SOURCE: mm/mmap.c:2529-2678 -/
theorem doVmiAlignMunmap_releasable_iff (env : MmEnv) (mm : MmStruct) (brk : ULong) {vma : VmArea}
    {newbrk oldbrk : ULong} (hfind : vmaFind mm newbrk oldbrk = some vma) :
    (doVmiAlignMunmap env { mm with brk := brk } vma newbrk oldbrk).1 = none ↔
      Releasable env mm newbrk oldbrk := by
  have hiff : Releasable env mm newbrk oldbrk ↔ env.munmapError = none ∧
      ¬ (vma.vmStart < newbrk ∧ oldbrk < vma.vmEnd ∧ env.sysctlMaxMapCount ≤ mm.mapCount) := by
    constructor
    · rintro ⟨vma', hfind', hanswer, hroom⟩
      obtain rfl : vma = vma' := Option.some.inj (hfind.symm.trans hfind')
      exact ⟨hanswer, hroom⟩
    · rintro ⟨hanswer, hroom⟩
      exact ⟨vma, hfind, hanswer, hroom⟩
  rw [hiff]
  unfold doVmiAlignMunmap
  dsimp only
  split_ifs with hfull
  · simp [hfull]
  · cases env.munmapError with
    | some e => simp
    | none => simp [hfull]

/-- INTERNAL: the part of `brk` after the hook, for a lower or equal break in another page: it
moves the break when the pages can be given back, and changes nothing when they cannot.
SOURCE: mm/mmap.c:231-287 -/
theorem brkApply_down (env : MmEnv) (mm : MmStruct) (newBrk : ULong) (hle : newBrk ≤ mm.brk)
    (hpage : pageAlign mm.brk ≠ pageAlign newBrk) :
    (Releasable env mm (pageAlign newBrk) (pageAlign mm.brk) ∧
        (brkApply env mm newBrk (pageAlign newBrk) (pageAlign mm.brk)).1 = newBrk) ∨
      (¬ Releasable env mm (pageAlign newBrk) (pageAlign mm.brk) ∧
        brkApply env mm newBrk (pageAlign newBrk) (pageAlign mm.brk) = (mm.brk, mm)) := by
  unfold brkApply
  rw [if_neg hpage, if_pos hle]
  cases hfind : vmaFind mm (pageAlign newBrk) (pageAlign mm.brk) with
  | none =>
    refine Or.inr ⟨?_, rfl⟩
    rintro ⟨vma, hfind', -⟩
    rw [hfind] at hfind'
    cases hfind'
  | some brkvma =>
    dsimp only
    -- an area that meets the range starts below its end
    have hmeets := List.find?_some hfind
    rw [VmArea.meets, decide_eq_true_eq] at hmeets
    rw [if_neg (BitVec.not_le.mpr hmeets.1)]
    have hiff := doVmiAlignMunmap_releasable_iff env mm newBrk hfind
    rcases doVmiAlignMunmap_cases env { mm with brk := newBrk } brkvma (pageAlign newBrk)
      (pageAlign mm.brk) with ⟨e, he⟩ | ⟨hok, -, -⟩
    · refine Or.inr ⟨?_, ?_⟩
      · rw [← hiff, he]
        exact Option.some_ne_none e
      · rw [he]
        rfl
    · refine Or.inl ⟨hiff.mp hok, ?_⟩
      rw [show doVmiAlignMunmap env { mm with brk := newBrk } brkvma (pageAlign newBrk)
        (pageAlign mm.brk) = (none, (doVmiAlignMunmap env { mm with brk := newBrk } brkvma
          (pageAlign newBrk) (pageAlign mm.brk)).2) from Prod.ext hok rfl]

/-- INTERNAL: the original `brk`, with a lock that was taken, on a break at or below the old
one: it returns the new break when there is something to do, and changes nothing otherwise.
SOURCE: files/originalmmap.c:178-278 -/
theorem Original.brk_down (env : MmEnv) (mm : MmStruct) (newBrk : ULong)
    (hlock : env.lockKilled = false) (hle : newBrk ≤ mm.brk) :
    (ReleasesHeap env mm newBrk ∧ (Original.brk env mm newBrk).1 = newBrk) ∨
      (¬ ReleasesHeap env mm newBrk ∧ Original.brk env mm newBrk = (mm.brk, mm)) := by
  unfold Original.brk ReleasesHeap
  rw [if_neg (by simp [hlock])]
  by_cases hrefused : brkRefused env mm newBrk = true
  · rw [if_pos hrefused]
    exact Or.inr ⟨fun hreleases => by simp [hrefused] at hreleases, rfl⟩
  rw [if_neg hrefused]
  have hpassed : brkRefused env mm newBrk = false := Bool.eq_false_iff.mpr hrefused
  by_cases hsame : newBrk = mm.brk
  · refine Or.inr ⟨fun hreleases => hreleases.2.1 hsame, ?_⟩
    subst hsame
    unfold brkApply
    rw [if_pos rfl]
  by_cases hpage : pageAlign mm.brk = pageAlign newBrk
  · refine Or.inl ⟨⟨hpassed, hsame, Or.inl hpage⟩, ?_⟩
    unfold brkApply
    rw [if_pos hpage]
  · rcases brkApply_down env mm newBrk hle hpage with ⟨hreleasable, hret⟩ | ⟨hnot, hkept⟩
    · exact Or.inl ⟨⟨hpassed, hsame, Or.inr hreleasable⟩, hret⟩
    · refine Or.inr ⟨?_, hkept⟩
      rintro ⟨-, -, hother | hreleasable⟩
      · exact hpage hother
      · exact hnot hreleasable

/-- The modified `brk` and the original one agree in what they return and in the break and
the `total_vm` they leave. -/
def BrkAgrees (r original : ULong × MmStruct) : Prop :=
  r.1 = original.1 ∧ r.2.brk = original.2.brk ∧ r.2.totalVm = original.2.totalVm

/-- INTERNAL: downwards, the modified `brk` agrees with the original one when the hook
accepts, or when there is nothing for it to prevent.
SOURCE: mm/mmap.c:181-288; files/originalmmap.c:178-278 -/
theorem brkAgrees_iff (env : MmEnv) (find : PidT → Option TaskStruct) (current : TaskStruct)
    (l : MemoryList) (mm : MmStruct) (newBrk : ULong) (hle : newBrk ≤ mm.brk) :
    BrkAgrees (brk env find current l mm newBrk) (Original.brk env mm newBrk) ↔
      env.lockKilled = true ∨ ¬ ReleasesHeap env mm newBrk ∨
        isRequestAccepted find current.pid (pageAlign newBrk - pageAlign mm.brk) l = true := by
  have hrefl (r : ULong × MmStruct) : BrkAgrees r r := ⟨rfl, rfl, rfl⟩
  cases hlock : env.lockKilled with
  | true =>
    have hr : brk env find current l mm newBrk = Original.brk env mm newBrk := by
      simp [brk, Original.brk, hlock]
    exact iff_of_true (hr ▸ hrefl _) (Or.inl rfl)
  | false =>
    cases hacc : isRequestAccepted find current.pid (pageAlign newBrk - pageAlign mm.brk) l with
    | true =>
      have hr : brk env find current l mm newBrk = Original.brk env mm newBrk := by
        simp [brk, Original.brk, hacc]
      exact iff_of_true (hr ▸ hrefl _) (Or.inr (Or.inr rfl))
    | false =>
      rw [brk_refused env find current l mm newBrk hlock hacc]
      simp only [Bool.false_eq_true, false_or, or_false]
      rcases Original.brk_down env mm newBrk hlock hle with ⟨hreleases, hret⟩ | ⟨hnothing, hkept⟩
      · -- the original moves the break, and the refused call returns the old one
        refine iff_of_false ?_ (not_not_intro hreleases)
        rintro ⟨hagree, -, -⟩
        exact hreleases.2.1 (hret.symm.trans hagree.symm)
      · rw [hkept]
        exact iff_of_true (hrefl _) hnothing

/-- MAIN: **when a process can give heap memory back.** For every registry, a process of
the initial pid namespace and a break at or below its own: the modified `brk` agrees with
the original one exactly when the lock was not taken, there is nothing to do in this state
(the checks before the hook refuse, the break is the same one, or it is in another page and the
pages in between cannot be given back), or the number has no entry below the sum of the usage
and the wrapped difference of the rounded breaks. When the usage covers what is released, that
sum is the usage that remains, so a process cannot give memory back unless this takes it below
its limit at once.
SOURCE: mm/mmap.c:181-288; files/originalmmap.c:178-278; crudmemlimit.c:49-63 -/
theorem brk_release_iff (env : MmEnv) (tbl : TaskTable) (current : TaskStruct) (l : MemoryList)
    (mm : MmStruct) (newBrk : ULong) (htask : current ∈ tbl.tasks)
    (hinitial : current.activePidNs = initPidNs) (hmm : current.mm = some mm)
    (hle : newBrk ≤ mm.brk) :
    let r := brk env (findTaskByVpid tbl current) current l mm newBrk
    let original := Original.brk env mm newBrk
    let usage := mm.totalVm.toNat * 4096
    let released := (pageAlign mm.brk).toNat - (pageAlign newBrk).toNat
    (BrkAgrees r original ↔
        env.lockKilled = true ∨ ¬ ReleasesHeap env mm newBrk ∨
          ∀ limit, limitAt l current.pid = some limit →
            (usage + (pageAlign newBrk - pageAlign mm.brk).toNat) % 2 ^ 64 ≤ limit.toNat) ∧
      (pageAlign mm.brk ≠ 0 → usage < 2 ^ 64 → released ≤ usage →
        (BrkAgrees r original ↔
          env.lockKilled = true ∨ ¬ ReleasesHeap env mm newBrk ∨
            ∀ limit, limitAt l current.pid = some limit → usage - released ≤ limit.toNat)) := by
  intro r original usage released
  have husage := currentUsage_eq_some (findTaskByVpid_current tbl current htask hinitial) hmm
  have haccepted := isRequestAccepted_mod husage l (pageAlign newBrk - pageAlign mm.brk)
  have hiff : BrkAgrees r original ↔ _ :=
    brkAgrees_iff env (findTaskByVpid tbl current) current l mm newBrk hle
  rw [haccepted] at hiff
  refine ⟨hiff, ?_⟩
  intro hne hused hcovers
  have hdown := pageAlign_le_pageAlign newBrk mm.brk hle hne
  have hremains : (usage + (pageAlign newBrk - pageAlign mm.brk).toNat) % 2 ^ 64 =
      usage - released := by
    have hold := (pageAlign mm.brk).isLt
    rw [BitVec.toNat_sub]
    omega
  rw [hiff]
  change _ ∨ _ ∨ (∀ limit, _ → (usage + _) % 2 ^ 64 ≤ _) ↔ _
  rw [hremains]

/-- INTERNAL: a process of 1000 pages whose limit was lowered to 100 asks for a break one
page down, and for one inside the last page. The original `brk` grants both. -/
theorem brk_release_refused :
    let mm := heapMm 1000
    let find := findTaskByVpid (tableOf 5 mm) (processOf 5 mm)
    mm.brk - 4096 ≤ mm.brk ∧ (Original.brk quietEnv mm (mm.brk - 4096)).1 = mm.brk - 4096 ∧
      (Original.brk quietEnv mm (mm.brk - 4096)).2.totalVm = 999 ∧
      brk quietEnv find (processOf 5 mm) [⟨5, 409600⟩] mm (mm.brk - 4096) = (mm.brk, mm) ∧
      (Original.brk quietEnv mm (mm.brk - 1)).1 = mm.brk - 1 ∧
      brk quietEnv find (processOf 5 mm) [⟨5, 409600⟩] mm (mm.brk - 1) = (mm.brk, mm) :=
  ⟨by decide, by decide, by decide, by decide, by decide, by decide⟩

/-- INTERNAL: a heap that is over its limit by one page may be shrunk by it. -/
theorem brk_release_heapMm :
    let mm := heapMm 1000
    BrkAgrees (brk quietEnv (findTaskByVpid (tableOf 5 mm) (processOf 5 mm)) (processOf 5 mm)
      [⟨5, 4091904⟩] mm (mm.brk - 4096)) (Original.brk quietEnv mm (mm.brk - 4096)) := by
  refine (brk_release_iff quietEnv (tableOf 5 (heapMm 1000)) (processOf 5 (heapMm 1000))
    [⟨5, 4091904⟩] (heapMm 1000) ((heapMm 1000).brk - 4096) List.mem_cons_self rfl rfl
    (by decide)).1.mpr (Or.inr (Or.inr ?_))
  intro limit hlimit
  have hentry : (4091904 : ULong) = limit := Option.some.inj hlimit
  subst hentry
  decide

end UsacKernel.Analysis
