import UsacKernel.Computation.ByteImage
import UsacKernel.Computation.IntExpr

/-!
# Declarations of structs

A struct is declared by the names and the types of its members, and read through the
declaration that the reader has. Two declarations of what is meant to be the same struct
agree on the members of the shorter one as soon as that is the beginning of the longer one;
they agree on arrays when also their sizes are the same, which padding decides.
-/

set_option autoImplicit false

namespace UsacKernel.Computation

namespace Struct

/-- INTERNAL: members are laid out one after the other. -/
theorem offsetsFrom_append (pos : ℕ) (s t : Struct) :
    offsetsFrom pos (s ++ t) = offsetsFrom pos s ++ offsetsFrom (endFrom pos s) t := by
  induction s generalizing pos with
  | nil => rfl
  | cons size rest ih =>
    rw [List.cons_append, offsetsFrom, offsetsFrom, ih, endFrom, List.cons_append]

/-- INTERNAL: every member has an offset. -/
theorem length_offsetsFrom (pos : ℕ) (s : Struct) : (offsetsFrom pos s).length = s.length := by
  induction s generalizing pos with
  | nil => rfl
  | cons size rest ih => rw [offsetsFrom, List.length_cons, List.length_cons, ih]

/-- INTERNAL: members that follow do not move those before them. -/
theorem offset_append (s t : Struct) {k : ℕ} (hk : k < s.length) :
    offset (s ++ t) k = s.offset k := by
  unfold offset
  rw [offsetsFrom_append, List.getD_append _ _ _ _ (by rwa [length_offsetsFrom])]

end Struct

/-- The members of a struct, in the order of their declaration. -/
abbrev Declaration (μ : Type) := List (μ × IntType)

namespace Declaration

variable {μ : Type} [DecidableEq μ]

def layout (d : Declaration μ) : Struct := d.map (fun x => x.2.bits / 8)

/-- `a[k]` of an array at `a`. -/
def element (d : Declaration μ) (a : ℤ) (k : ℕ) : ℤ := a + d.layout.sizeof * k

/-- The number in the `j`-th member of the struct at `a`. -/
def memberAt (d : Declaration μ) (m : Bytes) (a : ℤ) (j : ℕ) : Option ℤ :=
  d[j]?.map (fun x => x.2.ofWord (m.load (a + d.layout.offset j) x.2.bits))

/-- The number in the member `x` of the struct at `a`, if the struct has one. -/
def read (d : Declaration μ) (m : Bytes) (a : ℤ) (x : μ) : Option ℤ :=
  (d.findIdx? (fun y => decide (y.1 = x))).bind (d.memberAt m a)

def Declares (d : Declaration μ) (x : μ) : Prop := x ∈ d.map Prod.fst

instance (d : Declaration μ) (x : μ) : Decidable (d.Declares x) :=
  inferInstanceAs (Decidable (x ∈ d.map Prod.fst))

/-- `d` declares the first members of `e`, in structs of the same size. -/
def ViewOf (d e : Declaration μ) : Prop := d <+: e ∧ d.layout.sizeof = e.layout.sizeof

omit [DecidableEq μ] in
/-- INTERNAL: a member is read the same when more members follow. -/
theorem memberAt_append (d rest : Declaration μ) (m : Bytes) (a : ℤ) {j : ℕ} (hj : j < d.length) :
    memberAt (d ++ rest) m a j = d.memberAt m a j := by
  unfold memberAt
  have hlayout : layout (d ++ rest) = d.layout ++ layout rest := List.map_append
  rw [List.getElem?_append_left hj, hlayout, Struct.offset_append _ _ (by simpa [layout] using hj)]

/-- INTERNAL: a view reads the members it declares as the whole declaration does. -/
theorem ViewOf.read_eq {d e : Declaration μ} (h : ViewOf d e) (m : Bytes) (a : ℤ) {x : μ}
    (hx : d.Declares x) : d.read m a x = e.read m a x := by
  obtain ⟨⟨rest, rfl⟩, -⟩ := h
  obtain ⟨y, hy, rfl⟩ := List.mem_map.mp hx
  obtain ⟨j, hj⟩ : ∃ j, d.findIdx? (fun z => decide (z.1 = y.1)) = some j := by
    rw [← Option.isSome_iff_exists, List.findIdx?_isSome, List.any_eq_true]
    exact ⟨y, hy, decide_eq_true rfl⟩
  have hlt : j < d.length := (List.findIdx?_eq_some_iff_findIdx_eq.mp hj).1
  unfold read
  rw [List.findIdx?_append, hj]
  exact (memberAt_append d rest m a hlt).symm

omit [DecidableEq μ] in
/-- INTERNAL: two declarations of one size have the elements of an array at the same places. -/
theorem ViewOf.element_eq {d e : Declaration μ} (h : ViewOf d e) (a : ℤ) (k : ℕ) :
    d.element a k = e.element a k := by
  rw [element, element, h.2]

end Declaration

end UsacKernel.Computation
