import Mathlib

/-!
# Integer expressions

The integer types of C and expressions over them. An expression has two readings. `eval` is
what the machine computes: words of the width of the type, wrapped around after every
operation. `value` is the number that the formula denotes. `Exact` says that no operation
on the way leaves its type, no conversion changes a number and no divisor is zero;
`ofWord_eval` says that then the two readings agree. `Computes` has a rule for each
operation, so that a bound is proved where the operation stands.
-/

set_option autoImplicit false

namespace UsacKernel.Computation

/-- An integer type: its width in bits and whether it is signed. -/
structure IntType where
  bits : ℕ
  signed : Bool
  bits_pos : 0 < bits

namespace IntType

/-- The numbers of the type. -/
def Holds (t : IntType) (n : ℤ) : Prop :=
  match t.signed with
  | true => -2 ^ (t.bits - 1) ≤ n ∧ n < 2 ^ (t.bits - 1)
  | false => 0 ≤ n ∧ n < 2 ^ t.bits

/-- The number that a word of the type stands for. -/
def ofWord (t : IntType) (x : BitVec t.bits) : ℤ :=
  match t.signed with
  | true => x.toInt
  | false => x.toNat

/-- Conversion of a word to another type. -/
def cast (t u : IntType) (x : BitVec t.bits) : BitVec u.bits :=
  match t.signed with
  | true => x.signExtend u.bits
  | false => x.setWidth u.bits

/-- Division of words, cut off toward zero. -/
def div (t : IntType) (x y : BitVec t.bits) : BitVec t.bits :=
  match t.signed with
  | true => x.sdiv y
  | false => x / y

variable (t u : IntType)

/-- INTERNAL: a word is the word of its value. -/
@[simp] theorem ofInt_ofWord (x : BitVec t.bits) : BitVec.ofInt t.bits (t.ofWord x) = x := by
  unfold ofWord
  cases t.signed with
  | true => exact BitVec.ofInt_toInt
  | false => simp

/-- INTERNAL: a number of the type is the one that its word stands for. -/
theorem ofWord_ofInt {n : ℤ} (h : t.Holds n) : t.ofWord (BitVec.ofInt t.bits n) = n := by
  have hpow : (2 : ℤ) ^ t.bits = 2 * 2 ^ (t.bits - 1) := by
    obtain ⟨b, hb⟩ := Nat.exists_eq_succ_of_ne_zero t.bits_pos.ne'
    rw [hb, Nat.succ_sub_one, pow_succ, mul_comm]
  unfold Holds at h
  unfold ofWord
  cases hsigned : t.signed with
  | true =>
    simp only [hsigned] at h
    simp only [BitVec.toInt_ofInt]
    apply Int.bmod_eq_of_le
    · push_cast
      omega
    · push_cast
      omega
  | false =>
    simp only [hsigned] at h
    have hcast : ((2 ^ t.bits : ℕ) : ℤ) = 2 ^ t.bits := by push_cast; rfl
    simp only [BitVec.toNat_ofInt]
    rw [hcast, Int.emod_eq_of_lt h.1 h.2, Int.toNat_of_nonneg h.1]

/-- INTERNAL: a cast takes the word of the value in the other type. -/
theorem cast_eq_ofInt (x : BitVec t.bits) : t.cast u x = BitVec.ofInt u.bits (t.ofWord x) := by
  unfold cast ofWord
  cases t.signed with
  | true => rfl
  | false =>
    apply BitVec.eq_of_toNat_eq
    simp

/-! Each operation, as long as its result is a number of the type. -/

/-- INTERNAL: a cast keeps a value that the other type can hold. -/
theorem ofWord_cast (x : BitVec t.bits) (h : u.Holds (t.ofWord x)) :
    u.ofWord (t.cast u x) = t.ofWord x := by
  rw [cast_eq_ofInt, u.ofWord_ofInt h]

/-- INTERNAL: a sum that the type can hold is computed without overflow. -/
theorem ofWord_add (x y : BitVec t.bits) (h : t.Holds (t.ofWord x + t.ofWord y)) :
    t.ofWord (x + y) = t.ofWord x + t.ofWord y := by
  rw [← t.ofWord_ofInt h, BitVec.ofInt_add, ofInt_ofWord, ofInt_ofWord]

/-- INTERNAL: a product that the type can hold is computed without overflow. -/
theorem ofWord_mul (x y : BitVec t.bits) (h : t.Holds (t.ofWord x * t.ofWord y)) :
    t.ofWord (x * y) = t.ofWord x * t.ofWord y := by
  rw [← t.ofWord_ofInt h, BitVec.ofInt_mul, ofInt_ofWord, ofInt_ofWord]

/-- INTERNAL: a shift whose result the type can hold is a multiplication. -/
theorem ofWord_shiftLeft (x : BitVec t.bits) (k : ℕ) (h : t.Holds (t.ofWord x * 2 ^ k)) :
    t.ofWord (x <<< k) = t.ofWord x * 2 ^ k := by
  have htwo : BitVec.ofInt t.bits (2 ^ k) = BitVec.twoPow t.bits k := by
    have hcast : ((2 ^ k : ℕ) : ℤ) = 2 ^ k := by push_cast; rfl
    apply BitVec.eq_of_toNat_eq
    rw [← hcast, BitVec.ofInt_natCast, BitVec.toNat_twoPow, BitVec.toNat_ofNat]
  rw [← t.ofWord_ofInt h, BitVec.ofInt_mul, ofInt_ofWord, htwo, BitVec.shiftLeft_eq_mul_twoPow]

/-- INTERNAL: a quotient that the type can hold is the one that rounds to zero. -/
theorem ofWord_div (x y : BitVec t.bits) (h : t.Holds ((t.ofWord x).tdiv (t.ofWord y))) :
    t.ofWord (t.div x y) = (t.ofWord x).tdiv (t.ofWord y) := by
  have hconvert := t.ofWord_ofInt h
  rw [← hconvert]
  unfold ofWord div
  cases t.signed with
  | true => simp [BitVec.toInt_sdiv]
  | false =>
    simp only [BitVec.toNat_udiv]
    rw [Int.tdiv_eq_ediv_of_nonneg (by positivity), ← Int.natCast_ediv, BitVec.ofInt_natCast,
      BitVec.toNat_ofNat, Nat.mod_eq_of_lt]
    exact (Nat.div_le_self _ _).trans_lt x.isLt

end IntType

/-- Expressions of type `t` over typed variables. -/
inductive IntExpr (ν : IntType → Type) : IntType → Type where
  | var {t : IntType} (x : ν t) : IntExpr ν t
  | lit (t : IntType) (n : ℤ) : IntExpr ν t
  | cast {t : IntType} (u : IntType) (e : IntExpr ν t) : IntExpr ν u
  | add {t : IntType} (e f : IntExpr ν t) : IntExpr ν t
  | mul {t : IntType} (e f : IntExpr ν t) : IntExpr ν t
  | div {t : IntType} (e f : IntExpr ν t) : IntExpr ν t
  | shl {t : IntType} (e : IntExpr ν t) (k : ℕ) : IntExpr ν t

namespace IntExpr

variable {ν : IntType → Type} (ρ : ∀ t, ν t → BitVec t.bits)

/-- What the machine computes. -/
def eval {t : IntType} : IntExpr ν t → BitVec t.bits
  | .var x => ρ _ x
  | .lit t n => BitVec.ofInt t.bits n
  | .cast (t := t) u e => t.cast u e.eval
  | .add e f => e.eval + f.eval
  | .mul e f => e.eval * f.eval
  | .div (t := t) e f => t.div e.eval f.eval
  | .shl e k => e.eval <<< k

/-- The number that the formula denotes. -/
def value {t : IntType} : IntExpr ν t → ℤ
  | .var (t := t) x => t.ofWord (ρ t x)
  | .lit _ n => n
  | .cast _ e => e.value
  | .add e f => e.value + f.value
  | .mul e f => e.value * f.value
  | .div e f => e.value.tdiv f.value
  | .shl e k => e.value * 2 ^ k

/-- No overflow, no loss in a conversion and no division by zero. -/
def Exact {t : IntType} : IntExpr ν t → Prop
  | .var _ => True
  | .lit t n => t.Holds n
  | .cast u e => e.Exact ∧ u.Holds (e.value ρ)
  | .add (t := t) e f => e.Exact ∧ f.Exact ∧ t.Holds (e.value ρ + f.value ρ)
  | .mul (t := t) e f => e.Exact ∧ f.Exact ∧ t.Holds (e.value ρ * f.value ρ)
  | .div (t := t) e f =>
    e.Exact ∧ f.Exact ∧ f.value ρ ≠ 0 ∧ t.Holds ((e.value ρ).tdiv (f.value ρ))
  | .shl (t := t) e k => e.Exact ∧ t.Holds (e.value ρ * 2 ^ k)

/-- INTERNAL: an exact expression is computed as its formula says. -/
theorem ofWord_eval {t : IntType} (e : IntExpr ν t) (h : e.Exact ρ) :
    t.ofWord (e.eval ρ) = e.value ρ := by
  induction e with
  | var x => rfl
  | lit t n => exact t.ofWord_ofInt h
  | @cast t u e ih =>
    obtain ⟨he, hholds⟩ := h
    simp only [eval, value]
    rw [← ih he] at hholds ⊢
    exact t.ofWord_cast u _ hholds
  | @add t e f ihe ihf =>
    obtain ⟨he, hf, hholds⟩ := h
    simp only [eval, value]
    rw [← ihe he, ← ihf hf] at hholds ⊢
    exact t.ofWord_add _ _ hholds
  | @mul t e f ihe ihf =>
    obtain ⟨he, hf, hholds⟩ := h
    simp only [eval, value]
    rw [← ihe he, ← ihf hf] at hholds ⊢
    exact t.ofWord_mul _ _ hholds
  | @div t e f ihe ihf =>
    obtain ⟨he, hf, -, hholds⟩ := h
    simp only [eval, value]
    rw [← ihe he, ← ihf hf] at hholds ⊢
    exact t.ofWord_div _ _ hholds
  | @shl t e k ih =>
    obtain ⟨he, hholds⟩ := h
    simp only [eval, value]
    rw [← ih he] at hholds ⊢
    exact t.ofWord_shiftLeft _ k hholds

/-- The expression is exact and denotes `n`. -/
structure Computes {t : IntType} (e : IntExpr ν t) (n : ℤ) : Prop where
  exact : e.Exact ρ
  value_eq : e.value ρ = n

namespace Computes

variable {ρ} {t u : IntType} {e f : IntExpr ν t} {m n q : ℤ}

/-- INTERNAL: a variable computes its value. -/
theorem var {x : ν t} (h : t.ofWord (ρ t x) = n) : Computes ρ (.var x) n := ⟨trivial, h⟩

/-- INTERNAL: a literal that its type can hold computes itself. -/
theorem lit (h : t.Holds n) : Computes ρ (.lit t n) n := ⟨h, rfl⟩

/-- INTERNAL: a cast computes the same value when the other type can hold it. -/
theorem cast (he : Computes ρ e n) (hn : u.Holds n) : Computes ρ (.cast u e) n := by
  obtain ⟨hexact, rfl⟩ := he
  exact ⟨⟨hexact, hn⟩, rfl⟩

/-- INTERNAL: a sum computes the sum when the type can hold it. -/
theorem add (he : Computes ρ e m) (hf : Computes ρ f n) (hn : t.Holds (m + n)) :
    Computes ρ (.add e f) (m + n) := by
  obtain ⟨hexact, rfl⟩ := he
  obtain ⟨hexact', rfl⟩ := hf
  exact ⟨⟨hexact, hexact', hn⟩, rfl⟩

/-- INTERNAL: a product computes the product when the type can hold it. -/
theorem mul (he : Computes ρ e m) (hf : Computes ρ f n) (hn : t.Holds (m * n)) :
    Computes ρ (.mul e f) (m * n) := by
  obtain ⟨hexact, rfl⟩ := he
  obtain ⟨hexact', rfl⟩ := hf
  exact ⟨⟨hexact, hexact', hn⟩, rfl⟩

/-- INTERNAL: a quotient computes the quotient when the divisor is not zero and the type can
hold it. -/
theorem div (he : Computes ρ e m) (hf : Computes ρ f n) (hzero : n ≠ 0) (hq : m.tdiv n = q)
    (hn : t.Holds q) : Computes ρ (.div e f) q := by
  obtain ⟨hexact, rfl⟩ := he
  obtain ⟨hexact', rfl⟩ := hf
  subst hq
  exact ⟨⟨hexact, hexact', hzero, hn⟩, rfl⟩

/-- INTERNAL: a shift computes a multiplication when the type can hold the result. -/
theorem shl {k : ℕ} (he : Computes ρ e m) (hn : t.Holds (m * 2 ^ k)) :
    Computes ρ (.shl e k) (m * 2 ^ k) := by
  obtain ⟨hexact, rfl⟩ := he
  exact ⟨⟨hexact, hn⟩, rfl⟩

/-- INTERNAL: what an expression computes is the value of the word it evaluates to. -/
theorem ofWord_eval (he : Computes ρ e n) : t.ofWord (e.eval ρ) = n :=
  (e.ofWord_eval ρ he.exact).trans he.value_eq

end Computes

end IntExpr

end UsacKernel.Computation
