import UsacKernel.Computation.GapSearch
import UsacKernel.Computation.Retry
import UsacKernel.Model.Mapping

/-!
# The search for a free range

`vm_unmapped_area` of `mm/mmap.c` and the two `get_unmapped_area` methods built on it. The
areas are the list of the maple tree's entries in address order. `mas_empty_area` and
`mas_empty_area_rev` are in `lib/maple_tree.c`, which the repository does not have: they give
the lowest and the highest gap of a size between two bounds, or an error.

The searches go back to `retry:` when the area above the gap keeps a guard gap. They are run
with one attempt more than there are areas; `none` is a search that has not ended by then.
-/

set_option autoImplicit false

namespace UsacKernel.Model

open UsacKernel.Computation

/-! ## The maple tree -/

/-- `mas_empty_area`: the lowest gap of `size` bytes in `[min, max]`, as `mas.index`. -/
def masEmptyArea (areas : List VmArea) (min max size : ULong) : Option ULong :=
  if size = 0 then none
  else
    (GapSearch.lowestGap (fun v => v.vmStart.toNat) (fun v => v.vmEnd.toNat) size.toNat
      (max.toNat + 1) areas min.toNat).map (BitVec.ofNat 64)

/-- `mas_empty_area_rev`: the highest gap of `size` bytes in `[min, max]`, as `mas.last`. -/
def masEmptyAreaRev (areas : List VmArea) (min max size : ULong) : Option ULong :=
  if size = 0 then none
  else
    (GapSearch.highestGap (fun v => v.vmStart.toNat) (fun v => v.vmEnd.toNat) (2 ^ 64) size.toNat
      min.toNat areas (max.toNat + 1)).map (fun stop => BitVec.ofNat 64 (stop - 1))

/-- `mas_next` from a gap: the first area above it. -/
def masNext (areas : List VmArea) (index : ULong) : Option VmArea :=
  GapSearch.nextOf (fun v => v.vmStart.toNat) areas index.toNat

/-- `mas_prev` from a gap: the last area below it. -/
def masPrev (areas : List VmArea) (index : ULong) : Option VmArea :=
  GapSearch.prevOf (fun v => v.vmEnd.toNat) areas index.toNat

/-- `find_vma_prev`: the first area that ends above `addr`, and the one before it.
SOURCE: mm/mmap.c:1930-1942 -/
def findVmaPrev (areas : List VmArea) (addr : ULong) : Option VmArea × Option VmArea :=
  (areas.find? (fun v => decide (addr < v.vmEnd)), masPrev areas addr)

/-! ## `vm_unmapped_area` -/

/-- `struct vm_unmapped_area_info`; `topdown` is `VM_UNMAPPED_AREA_TOPDOWN` of its flags. -/
structure VmUnmappedAreaInfo where
  topdown : Bool
  length : ULong
  lowLimit : ULong
  highLimit : ULong
  alignMask : ULong
  alignOffset : ULong

/-- `vm_end_gap`: no area of x86-64 grows up. -/
def vmEndGap (v : VmArea) : ULong := v.vmEnd

/-- `tmp && (tmp->vm_flags & VM_STARTGAP_FLAGS)`, in a configuration without user shadow stacks:
`VM_STARTGAP_FLAGS` is `VM_GROWSDOWN` there. -/
def hasStartGap (v : VmArea) : Bool := hasFlag v.vmFlags VM_GROWSDOWN

/-- `info->low_limit`, raised to `mmap_min_addr`. -/
def searchLowLimit (env : MmEnv) (info : VmUnmappedAreaInfo) : ULong :=
  if info.lowLimit < env.mmapMinAddr then env.mmapMinAddr else info.lowLimit

/-- From `retry:` of `unmapped_area`, with the current `low_limit`.
SOURCE: mm/mmap.c:1611-1634 -/
def unmappedAreaAttempt (env : MmEnv) (areas : List VmArea) (info : VmUnmappedAreaInfo)
    (length lowLimit : ULong) : Attempt ULong ULong :=
  match masEmptyArea areas lowLimit (info.highLimit - 1) length with
  | none => .done ENOMEM.ptr
  | some index =>
    let gap := index + ((info.alignOffset - index) &&& info.alignMask)
    match (masNext areas index).filter hasStartGap with
    | some tmp =>
      if vmStartGap env tmp < gap + length - 1 then .again tmp.vmEnd else .done gap
    | none =>
      match masPrev areas index with
      | some tmp => if vmEndGap tmp > gap then .again (vmEndGap tmp) else .done gap
      | none => .done gap

/-- `unmapped_area`.
SOURCE: mm/mmap.c:1594-1634 -/
def unmappedArea (env : MmEnv) (areas : List VmArea) (info : VmUnmappedAreaInfo) : Option ULong :=
  let length := info.length + info.alignMask
  if length < info.length then some ENOMEM.ptr
  else
    retry (unmappedAreaAttempt env areas info length) (areas.length + 1)
      (searchLowLimit env info)

/-- From `retry:` of `unmapped_area_topdown`, with the current `high_limit`.
SOURCE: mm/mmap.c:1662-1686 -/
def unmappedAreaTopdownAttempt (env : MmEnv) (areas : List VmArea) (info : VmUnmappedAreaInfo)
    (length highLimit : ULong) : Attempt ULong ULong :=
  match masEmptyAreaRev areas (searchLowLimit env info) (highLimit - 1) length with
  | none => .done ENOMEM.ptr
  | some last =>
    let gap := last + 1 - info.length
    let gap := gap - ((gap - info.alignOffset) &&& info.alignMask)
    match (masNext areas last).filter hasStartGap with
    | some tmp => if vmStartGap env tmp ≤ last then .again (vmStartGap env tmp) else .done gap
    | none =>
      match masPrev areas (last + 1 - length) with
      | some tmp => if vmEndGap tmp > gap then .again tmp.vmStart else .done gap
      | none => .done gap

/-- `unmapped_area_topdown`.
SOURCE: mm/mmap.c:1646-1686 -/
def unmappedAreaTopdown (env : MmEnv) (areas : List VmArea) (info : VmUnmappedAreaInfo) :
    Option ULong :=
  let length := info.length + info.alignMask
  if length < info.length then some ENOMEM.ptr
  else
    retry (unmappedAreaTopdownAttempt env areas info length) (areas.length + 1) info.highLimit

/-- `vm_unmapped_area`.
SOURCE: mm/mmap.c:1697-1708 -/
def vmUnmappedArea (env : MmEnv) (areas : List VmArea) (info : VmUnmappedAreaInfo) :
    Option ULong :=
  if info.topdown then unmappedAreaTopdown env areas info else unmappedArea env areas info

/-! ## The `get_unmapped_area` methods -/

/-- The tests both methods make on a requested address.
SOURCE: mm/mmap.c:1737-1744, 1787-1794 -/
def hintFits (env : MmEnv) (areas : List VmArea) (addr len : ULong) : Bool :=
  let (vma, prev) := findVmaPrev areas addr
  decide (env.taskSize - len ≥ addr) && decide (addr ≥ env.mmapMinAddr) &&
    vma.all (fun v => decide (addr + len ≤ vmStartGap env v)) &&
    prev.all (fun v => decide (addr ≥ vmEndGap v))

/-- `generic_get_unmapped_area`, with the default `arch_get_mmap_end`, `TASK_SIZE`.
SOURCE: mm/mmap.c:1722-1753 -/
def genericGetUnmappedArea (env : MmEnv) (mmapBase : ULong) (areas : List VmArea)
    (addr len flags : ULong) : Option ULong :=
  if env.taskSize - env.mmapMinAddr < len then some ENOMEM.ptr
  else if hasFlag flags MAP_FIXED then some addr
  else if addr ≠ 0 ∧ hintFits env areas (pageAlign addr) len then some (pageAlign addr)
  else
    vmUnmappedArea env areas
      { topdown := false, length := len, lowLimit := mmapBase, highLimit := env.taskSize,
        alignMask := 0, alignOffset := 0 }

/-- `generic_get_unmapped_area_topdown`, with the default `arch_get_mmap_end` and
`arch_get_mmap_base`: from `mmap_base` down, and when that fails from `TASK_UNMAPPED_BASE` up.
SOURCE: mm/mmap.c:1769-1819 -/
def genericGetUnmappedAreaTopdown (env : MmEnv) (mmapBase taskUnmappedBase : ULong)
    (areas : List VmArea) (addr len flags : ULong) : Option ULong :=
  if env.taskSize - env.mmapMinAddr < len then some ENOMEM.ptr
  else if hasFlag flags MAP_FIXED then some addr
  else if addr ≠ 0 ∧ hintFits env areas (pageAlign addr) len then some (pageAlign addr)
  else
    (vmUnmappedArea env areas
        { topdown := true, length := len, lowLimit := BitVec.ofNat 64 pageSize,
          highLimit := mmapBase, alignMask := 0, alignOffset := 0 }).bind fun found =>
      if offsetInPage found then
        vmUnmappedArea env areas
          { topdown := false, length := len, lowLimit := taskUnmappedBase,
            highLimit := env.taskSize, alignMask := 0, alignOffset := 0 }
      else some found

end UsacKernel.Model
