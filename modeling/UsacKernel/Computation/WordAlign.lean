import Mathlib

/-!
# Rounding machine words to a power of two

A machine word is rounded up to a multiple of `2 ^ k` by adding `2 ^ k - 1` and
clearing the low `k` bits. The addition wraps, so near the top of the range the
rounded word is `0`. Everything here is stated through `toNat`, where the rounded
word is `(x + (2 ^ k - 1)) % 2 ^ w / 2 ^ k * 2 ^ k`; once `k` and `w` are numerals
this form is linear and `omega` works with it directly.
-/

set_option autoImplicit false

namespace UsacKernel.Computation

variable {w : ℕ}

/-- The word whose low `k` bits are set. -/
def lowMask (w k : ℕ) : BitVec w := BitVec.ofNat w (2 ^ k - 1)

/-- Clear the low `k` bits. -/
def alignDown (k : ℕ) (x : BitVec w) : BitVec w := x &&& ~~~ lowMask w k

/-- Round up to a multiple of `2 ^ k`, modulo `2 ^ w`. -/
def alignUp (k : ℕ) (x : BitVec w) : BitVec w := alignDown k (x + lowMask w k)

/-- INTERNAL: clearing the low `k` bits is division followed by multiplication. -/
theorem alignDown_toNat (k : ℕ) (x : BitVec w) :
    (alignDown k x).toNat = x.toNat / 2 ^ k * 2 ^ k := by
  -- both sides are compared bit by bit; bits from `w` on are zero on both
  rw [← Nat.shiftRight_eq_div_pow, ← Nat.shiftLeft_eq]
  apply Nat.eq_of_testBit_eq
  intro i
  simp only [alignDown, lowMask, Nat.testBit_shiftLeft, Nat.testBit_shiftRight,
    BitVec.testBit_toNat, BitVec.getLsbD_and, BitVec.getLsbD_not, BitVec.getLsbD_ofNat,
    Nat.testBit_two_pow_sub_one]
  by_cases hik : k ≤ i
  · rw [show k + (i - k) = i by omega]
    by_cases hiw : i < w
    · simp [hik, hiw]
    · simp [BitVec.getLsbD_of_ge x i (by omega)]
  · by_cases hiw : i < w
    · simp [hik, hiw, Nat.lt_of_not_le hik]
    · simp [hik, hiw]

/-- INTERNAL: what is aligned stays as it is. -/
theorem alignDown_alignDown (k : ℕ) (x : BitVec w) :
    alignDown k (alignDown k x) = alignDown k x := by
  unfold alignDown
  rw [BitVec.and_assoc, BitVec.and_self]

/-- INTERNAL: rounding up as a word adds first, so it rounds the sum modulo the word size. -/
theorem alignUp_toNat (k : ℕ) (hk : k < w) (x : BitVec w) :
    (alignUp k x).toNat = (x.toNat + (2 ^ k - 1)) % 2 ^ w / 2 ^ k * 2 ^ k := by
  have hlt : 2 ^ k - 1 < 2 ^ w :=
    lt_of_le_of_lt (Nat.sub_le _ _) (Nat.pow_lt_pow_right (by norm_num) hk)
  rw [alignUp, alignDown_toNat, BitVec.toNat_add, lowMask, BitVec.toNat_ofNat,
    Nat.mod_eq_of_lt hlt]

/-- INTERNAL: masking the low `k` bits is the remainder modulo `2 ^ k`. -/
theorem and_lowMask_toNat (k : ℕ) (hk : k < w) (x : BitVec w) :
    (x &&& lowMask w k).toNat = x.toNat % 2 ^ k := by
  have hlt : 2 ^ k - 1 < 2 ^ w :=
    lt_of_le_of_lt (Nat.sub_le _ _) (Nat.pow_lt_pow_right (by norm_num) hk)
  rw [BitVec.toNat_and, lowMask, BitVec.toNat_ofNat, Nat.mod_eq_of_lt hlt,
    Nat.and_two_pow_sub_one_eq_mod]

/-! ## Words with the same low bits -/

/-- INTERNAL: two words agree under a low mask when they are congruent. -/
theorem and_lowMask_eq_iff (k : ℕ) (hk : k < w) (x y : BitVec w) :
    x &&& lowMask w k = y &&& lowMask w k ↔ x.toNat ≡ y.toNat [MOD 2 ^ k] := by
  rw [← BitVec.toNat_inj, and_lowMask_toNat k hk, and_lowMask_toNat k hk, Nat.ModEq]

/-- INTERNAL: an overflow does not show modulo a smaller power of two. -/
theorem toNat_add_modEq (k : ℕ) (hk : k < w) (x y : BitVec w) :
    (x + y).toNat ≡ x.toNat + y.toNat [MOD 2 ^ k] := by
  rw [BitVec.toNat_add, Nat.ModEq, Nat.mod_mod_of_dvd _ (Nat.pow_dvd_pow 2 hk.le)]

/-- INTERNAL: a low mask keeps the residue. -/
theorem toNat_and_lowMask_modEq (k : ℕ) (hk : k < w) (x : BitVec w) :
    (x &&& lowMask w k).toNat ≡ x.toNat [MOD 2 ^ k] := by
  rw [and_lowMask_toNat k hk]
  exact Nat.mod_modEq x.toNat (2 ^ k)

/-- INTERNAL: moving up by the masked distance reaches the offset. -/
theorem add_distance_and_lowMask (k : ℕ) (hk : k < w) (x offset : BitVec w) :
    (x + ((offset - x) &&& lowMask w k)) &&& lowMask w k = offset &&& lowMask w k := by
  rw [and_lowMask_eq_iff k hk]
  calc (x + ((offset - x) &&& lowMask w k)).toNat
      ≡ x.toNat + ((offset - x) &&& lowMask w k).toNat [MOD 2 ^ k] := toNat_add_modEq k hk _ _
    _ ≡ x.toNat + (offset - x).toNat [MOD 2 ^ k] :=
        (toNat_and_lowMask_modEq k hk _).add_left _
    _ ≡ (x + (offset - x)).toNat [MOD 2 ^ k] := (toNat_add_modEq k hk _ _).symm
    _ = offset.toNat := by rw [BitVec.add_comm, BitVec.sub_add_cancel]

/-- INTERNAL: moving down by the masked distance reaches the offset. -/
theorem sub_distance_and_lowMask (k : ℕ) (hk : k < w) (x offset : BitVec w) :
    (x - ((x - offset) &&& lowMask w k)) &&& lowMask w k = offset &&& lowMask w k := by
  rw [and_lowMask_eq_iff k hk]
  refine Nat.ModEq.add_right_cancel' ((x - offset) &&& lowMask w k).toNat ?_
  calc (x - ((x - offset) &&& lowMask w k)).toNat + ((x - offset) &&& lowMask w k).toNat
      ≡ (x - ((x - offset) &&& lowMask w k) + ((x - offset) &&& lowMask w k)).toNat
          [MOD 2 ^ k] := (toNat_add_modEq k hk _ _).symm
    _ = (offset + (x - offset)).toNat := by
        rw [BitVec.sub_add_cancel, BitVec.add_comm, BitVec.sub_add_cancel]
    _ ≡ offset.toNat + (x - offset).toNat [MOD 2 ^ k] := toNat_add_modEq k hk _ _
    _ ≡ offset.toNat + ((x - offset) &&& lowMask w k).toNat [MOD 2 ^ k] :=
        (toNat_and_lowMask_modEq k hk _).symm.add_left _

end UsacKernel.Computation
