import UsacKernel.Model.AreaTree

/-!
# What an address space means

An address space says of every address what is mapped there: the protection and behaviour
flags, the file and the page of it, the memory policy, the userfaultfd context and the name.
`AddressMap` is this function; mapping a range assigns it, unmapping removes it, and how the
areas are cut and joined does not show. Soft-dirty tracking is not part of the meaning.

Along an area the page advances with the address. So the page at `a` is `base + a / 4096` with
one `base` for the whole area, and the meaning of an area is constant.
-/

set_option autoImplicit false

namespace UsacKernel.Interface

open UsacKernel.Computation UsacKernel.Model IndexedHeap

/-- What is mapped at an address. -/
structure PageAttr where
  /-- The flags without `VM_SOFTDIRTY`. -/
  flags : ULong
  file : Option OpenFile
  /-- The page at the address, less the number of the address's page. -/
  base : ULong
  policy : Option Handle
  uffdCtx : Option Handle
  anonName : Option Handle

/-- What is mapped at every address. -/
abbrev AddressMap := ℕ → Option PageAttr

/-- `[lo, hi)` is mapped with `attr`. -/
def AddressMap.assign (m : AddressMap) (lo hi : ℕ) (attr : PageAttr) : AddressMap :=
  fun a => if lo ≤ a ∧ a < hi then some attr else m a

/-- `[lo, hi)` is unmapped. -/
def AddressMap.remove (m : AddressMap) (lo hi : ℕ) : AddressMap :=
  fun a => if lo ≤ a ∧ a < hi then none else m a

/-- INTERNAL: the last assignment to a range counts. -/
theorem AddressMap.assign_assign (m : AddressMap) (lo hi : ℕ) (attr attr' : PageAttr) :
    (m.assign lo hi attr).assign lo hi attr' = m.assign lo hi attr' := by
  funext a
  unfold AddressMap.assign
  split_ifs <;> rfl

/-- INTERNAL: what was removed does not matter to an assignment. -/
theorem AddressMap.remove_assign (m : AddressMap) (lo hi : ℕ) (attr : PageAttr) :
    (m.remove lo hi).assign lo hi attr = m.assign lo hi attr := by
  funext a
  unfold AddressMap.assign AddressMap.remove
  split_ifs <;> rfl

/-- The meaning of an area. -/
def areaAttr (v : VmAreaStruct) : PageAttr where
  flags := v.vmFlags &&& ~~~ VM_SOFTDIRTY
  file := v.vmFile
  base := v.vmPgoff - bytesToPages v.vmStart
  policy := v.vmPolicy
  uffdCtx := v.vmUserfaultfdCtx
  anonName := v.anonName

/-- The meaning that a merge is asked for. -/
def requestAttr (req : MergeRequest) : PageAttr where
  flags := req.vmFlags &&& ~~~ VM_SOFTDIRTY
  file := req.file
  base := req.pgoff - bytesToPages req.addr
  policy := req.policy
  uffdCtx := req.uffdCtx
  anonName := req.anonName

/-- An area into which the callers of `vma_modify` have written what they asked for. -/
def modified (req : ModifyRequest) (v : VmAreaStruct) : VmAreaStruct :=
  { v with
    vmFlags := req.vmFlags, vmPolicy := req.policy, vmUserfaultfdCtx := req.uffdCtx
    anonName := req.anonName }

/-- The meaning of an address space: through the tree to the area. -/
def meaning (as : AddressSpace) : AddressMap :=
  fun a => (as.mt.lookup a).map (fun p => areaAttr (as.heap p))

/-- The `anon_vma` that the pages at an address are found through. -/
def anonVmaAt (as : AddressSpace) (a : ℕ) : Option Handle :=
  (as.mt.lookup a).bind (fun p => (as.heap p).anonVma)

/-- INTERNAL: distances between page-aligned addresses, in pages. -/
theorem bytesToPages_sub {x y : ULong} (hle : y.toNat ≤ x.toNat) (hy : y.toNat % 4096 = 0) :
    bytesToPages (x - y) = bytesToPages x - bytesToPages y := by
  apply BitVec.eq_of_toNat_eq
  rw [bytesToPages_toNat, BitVec.toNat_sub, BitVec.toNat_sub, bytesToPages_toNat,
    bytesToPages_toNat]
  omega

end UsacKernel.Interface
