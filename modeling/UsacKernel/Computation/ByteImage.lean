import Mathlib

/-!
# Memory as bytes, and structs in it

A piece of memory is a function from addresses to bytes. Words are stored with their
lowest byte first. A struct is given by the sizes of its scalar members; natural
alignment puts each member at the next multiple of its size, and what lies between the
members is padding, which no assignment to a member reaches.

`assignAll` makes a list of member assignments. The two facts about it are
`load_assignAll`, each member then holds its value, and `assignAll_eq`, a byte that no
member covers keeps its previous content and every other byte does not depend on it.
-/

set_option autoImplicit false

namespace UsacKernel.Computation

abbrev Bytes := ℤ → BitVec 8

namespace Bytes

/-- Store a word of `w` bits at `a`. -/
def store {w : ℕ} (m : Bytes) (a : ℤ) (x : BitVec w) : Bytes := fun i =>
  if a ≤ i ∧ i < a + (w / 8 : ℕ) then x.extractLsb' (8 * (i - a).toNat) 8 else m i

/-- The word of `w` bits at `a`. -/
def load (m : Bytes) (a : ℤ) (w : ℕ) : BitVec w :=
  BitVec.ofFnLE (fun k : Fin w => (m (a + (k / 8 : ℕ))).getLsbD (k % 8))

/-- Copy `n` bytes of `src`, from `b` on, to `a`. -/
def copy (m : Bytes) (a : ℤ) (src : Bytes) (b : ℤ) (n : ℕ) : Bytes := fun i =>
  if a ≤ i ∧ i < a + n then src (b + (i - a)) else m i

section Words

variable {w : ℕ} (m : Bytes) (a : ℤ)

/-- INTERNAL: a store leaves the bytes outside it alone. -/
theorem store_outside (x : BitVec w) {i : ℤ} (hi : i < a ∨ a + (w / 8 : ℕ) ≤ i) :
    m.store a x i = m i := by
  rw [store, if_neg (by omega)]

/-- INTERNAL: the bytes within a store do not depend on what was there. -/
theorem store_inside (m' : Bytes) (x : BitVec w) {i : ℤ}
    (hi : a ≤ i ∧ i < a + (w / 8 : ℕ)) : m.store a x i = m'.store a x i := by
  rw [store, store, if_pos hi, if_pos hi]

/-- INTERNAL: a word depends on its own bytes only. -/
theorem load_congr {m m' : Bytes} {a a' : ℤ} (hw : w % 8 = 0)
    (h : ∀ k : ℕ, k < w / 8 → m (a + k) = m' (a' + k)) : m.load a w = m'.load a' w := by
  apply BitVec.eq_of_getLsbD_eq
  intro k hk
  rw [load, load, BitVec.getLsbD_ofFnLE, BitVec.getLsbD_ofFnLE, dif_pos hk, dif_pos hk]
  rw [h (k / 8) (by omega)]

/-- INTERNAL: a load gives what was stored in the same place. -/
theorem load_store_self (hw : w % 8 = 0) (x : BitVec w) : (m.store a x).load a w = x := by
  apply BitVec.eq_of_getLsbD_eq
  intro k hk
  have hbyte : a ≤ a + (k / 8 : ℕ) ∧ a + (k / 8 : ℕ) < a + (w / 8 : ℕ) := by omega
  have hindex : 8 * (a + ((k / 8 : ℕ) : ℤ) - a).toNat + k % 8 = k := by omega
  have hbit : k % 8 < 8 := Nat.mod_lt k (by decide)
  rw [load, BitVec.getLsbD_ofFnLE, dif_pos hk]
  simp only [store]
  rw [if_pos hbyte, BitVec.getLsbD_extractLsb', hindex]
  simp [hbit]

/-- INTERNAL: a copy leaves the bytes outside it alone. -/
theorem copy_outside (src : Bytes) (b : ℤ) (n : ℕ) {i : ℤ} (hi : i < a ∨ a + n ≤ i) :
    m.copy a src b n i = m i := by
  rw [copy, if_neg (by omega)]

/-- INTERNAL: a byte within a copy is the byte of the source at the same distance. -/
theorem copy_inside (src : Bytes) (b : ℤ) (n : ℕ) {i : ℤ} (hi : a ≤ i ∧ i < a + n) :
    m.copy a src b n i = src (b + (i - a)) := by
  rw [copy, if_pos hi]

/-- INTERNAL: a copy depends on the copied bytes only. -/
theorem copy_congr {src src' : Bytes} (b : ℤ) (n : ℕ)
    (h : ∀ k : ℕ, k < n → src (b + k) = src' (b + k)) : m.copy a src b n = m.copy a src' b n := by
  funext i
  unfold copy
  split_ifs with hi
  · have hk := h (i - a).toNat (by omega)
    rwa [Int.toNat_of_nonneg (by omega)] at hk
  · rfl

/-- INTERNAL: a word inside a copied range is the word of the source. -/
theorem load_copy (src : Bytes) (b : ℤ) (n : ℕ) (hw : w % 8 = 0) (d : ℕ) (hd : d + w / 8 ≤ n) :
    (m.copy a src b n).load (a + d) w = src.load (b + d) w := by
  apply load_congr hw
  intro k hk
  rw [copy_inside m a src b n (by omega)]
  congr 1
  omega

end Words

end Bytes

/-! ## Structs -/

/-- A struct: the sizes of its scalar members, in the order of their declaration. The
size of a scalar is its alignment. -/
abbrev Struct := List ℕ

namespace Struct

/-- The next multiple of `align`. -/
def roundUp (pos align : ℕ) : ℕ := (pos + align - 1) / align * align

/-- The offsets of members that are laid out from `pos` on. -/
def offsetsFrom : ℕ → Struct → List ℕ
  | _, [] => []
  | pos, size :: rest => roundUp pos size :: offsetsFrom (roundUp pos size + size) rest

/-- The end of the last member. -/
def endFrom : ℕ → Struct → ℕ
  | pos, [] => pos
  | pos, size :: rest => endFrom (roundUp pos size + size) rest

/-- `offsetof`, of the `k`-th member. -/
def offset (s : Struct) (k : ℕ) : ℕ := (offsetsFrom 0 s).getD k 0

/-- `sizeof`: the end of the last member, rounded up to the largest alignment. -/
def sizeof (s : Struct) : ℕ := roundUp (endFrom 0 s) (s.foldl max 1)

end Struct

/-- The assignment of a word of `width` bits to the member at `offset`. -/
structure Assignment where
  offset : ℕ
  width : ℕ
  value : BitVec width

namespace Assignment

/-- The byte `d` of the struct belongs to the member. -/
def Covers (x : Assignment) (d : ℤ) : Prop := x.offset ≤ d ∧ d < x.offset + (x.width / 8 : ℕ)

instance (x : Assignment) (d : ℤ) : Decidable (x.Covers d) :=
  inferInstanceAs (Decidable (_ ∧ _))

/-- The two members have no byte in common. -/
def Apart (x y : Assignment) : Prop :=
  x.offset + x.width / 8 ≤ y.offset ∨ y.offset + y.width / 8 ≤ x.offset

end Assignment

/-- Make the assignments, in their order, to the members of a struct at `base`. -/
def assignAll (base : ℤ) : List Assignment → Bytes → Bytes
  | [], m => m
  | x :: xs, m => assignAll base xs (m.store (base + x.offset) x.value)

section Assignments

variable (base : ℤ)

/-- INTERNAL: a byte that no assigned member covers is the previous one; the others do
not depend on what was there before. -/
theorem assignAll_eq (xs : List Assignment) (m m' : Bytes) (i : ℤ) :
    ((∀ x ∈ xs, ¬ x.Covers (i - base)) → assignAll base xs m i = m i) ∧
      ((∃ x ∈ xs, x.Covers (i - base)) → assignAll base xs m i = assignAll base xs m' i) := by
  induction xs generalizing m m' with
  | nil => simp [assignAll]
  | cons x xs ih =>
    constructor
    · intro hnone
      have hx := hnone x List.mem_cons_self
      rw [assignAll, (ih _ m').1 (fun y hy => hnone y (List.mem_cons_of_mem x hy))]
      unfold Assignment.Covers at hx
      exact Bytes.store_outside m _ x.value (by omega)
    · rintro ⟨y, hy, hcovers⟩
      simp only [assignAll]
      by_cases hlater : ∃ z ∈ xs, z.Covers (i - base)
      · exact (ih _ _).2 hlater
      · -- the last assignment to the byte is the first of the list
        have hnone : ∀ z ∈ xs, ¬ z.Covers (i - base) := fun z hz hc => hlater ⟨z, hz, hc⟩
        rcases List.mem_cons.mp hy with rfl | hy
        · rw [(ih _ m).1 hnone, (ih _ m).1 hnone]
          unfold Assignment.Covers at hcovers
          exact Bytes.store_inside m _ m' y.value (by omega)
        · exact absurd hcovers (hnone y hy)

/-- INTERNAL: a word that has no byte in common with the assigned members keeps its value. -/
theorem load_assignAll_disjoint (xs : List Assignment) (m : Bytes) (a : ℤ) {w : ℕ}
    (hw : w % 8 = 0)
    (h : ∀ x ∈ xs, a + (w / 8 : ℕ) ≤ base + x.offset ∨ base + x.offset + (x.width / 8 : ℕ) ≤ a) :
    (assignAll base xs m).load a w = m.load a w := by
  apply Bytes.load_congr hw
  intro k hk
  apply (assignAll_eq base xs m m _).1
  intro x hx
  have hx' := h x hx
  unfold Assignment.Covers
  omega

/-- INTERNAL: members that are apart all hold their values afterwards. -/
theorem load_assignAll (xs : List Assignment) (m : Bytes) (hapart : xs.Pairwise Assignment.Apart)
    (hw : ∀ x ∈ xs, x.width % 8 = 0) :
    ∀ x ∈ xs, (assignAll base xs m).load (base + x.offset) x.width = x.value := by
  induction xs generalizing m with
  | nil => simp
  | cons y ys ih =>
    obtain ⟨hy, hys⟩ := List.pairwise_cons.mp hapart
    intro x hx
    rcases List.mem_cons.mp hx with rfl | hx
    · have hdisjoint := load_assignAll_disjoint base ys (m.store (base + x.offset) x.value)
        (base + x.offset) (hw x List.mem_cons_self) (by
          intro z hz
          have hz' := hy z hz
          unfold Assignment.Apart at hz'
          omega)
      rw [assignAll, hdisjoint]
      exact Bytes.load_store_self m _ (hw x List.mem_cons_self) x.value
    · exact ih _ hys (fun z hz => hw z (List.mem_cons_of_mem y hz)) x hx

/-- INTERNAL: the same after the struct was copied as a whole. -/
theorem load_copy_assignAll (user m : Bytes) (dst : ℤ) (n : ℕ) (xs : List Assignment)
    (hapart : xs.Pairwise Assignment.Apart) (hw : ∀ x ∈ xs, x.width % 8 = 0)
    (hn : ∀ x ∈ xs, x.offset + x.width / 8 ≤ n) :
    ∀ x ∈ xs, (user.copy dst (assignAll 0 xs m) 0 n).load (dst + x.offset) x.width = x.value := by
  intro x hx
  rw [Bytes.load_copy user dst _ 0 n (hw x hx) x.offset (hn x hx)]
  exact load_assignAll 0 xs m hapart hw x hx

end Assignments

end UsacKernel.Computation
