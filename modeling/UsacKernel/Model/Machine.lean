import UsacKernel.Computation.ByteImage
import UsacKernel.Computation.IntExpr
import UsacKernel.Computation.WordAlign

/-!
# Words, pages and error codes of the kernel

The fixed-width types the sources use on x86-64, the page-size macros, and the two ways
in which a system call reports an error: a negative `int`, and an `unsigned long` in the
top `MAX_ERRNO` values of the range.
-/

set_option autoImplicit false

namespace UsacKernel.Model

open UsacKernel.Computation

/-- `unsigned long` and `size_t`. -/
abbrev ULong := BitVec 64

/-- `pid_t`, a signed 32-bit number. -/
abbrev PidT := BitVec 32

/-- C `int`. -/
abbrev CInt := BitVec 32

/-! ## Integer types -/

namespace CType

abbrev short : IntType := ⟨16, true, by decide⟩
abbrev int : IntType := ⟨32, true, by decide⟩
abbrev long : IntType := ⟨64, true, by decide⟩
abbrev unsignedLong : IntType := ⟨64, false, by decide⟩

/-- `__u64`. -/
abbrev u64 : IntType := ⟨64, false, by decide⟩

end CType

/-! ## Error codes -/

/-- An error number: positive and at most `MAX_ERRNO`. -/
structure Errno where
  val : ℕ
  pos : 0 < val
  le : val ≤ 4095
  deriving DecidableEq

def EPERM : Errno := ⟨1, by decide, by decide⟩
def ESRCH : Errno := ⟨3, by decide, by decide⟩
def EINTR : Errno := ⟨4, by decide, by decide⟩
def EBADF : Errno := ⟨9, by decide, by decide⟩
def EAGAIN : Errno := ⟨11, by decide, by decide⟩
def ENOMEM : Errno := ⟨12, by decide, by decide⟩
def EACCES : Errno := ⟨13, by decide, by decide⟩
def EFAULT : Errno := ⟨14, by decide, by decide⟩
def EEXIST : Errno := ⟨17, by decide, by decide⟩
def ENODEV : Errno := ⟨19, by decide, by decide⟩
def EINVAL : Errno := ⟨22, by decide, by decide⟩
def ETXTBSY : Errno := ⟨26, by decide, by decide⟩
def EOVERFLOW : Errno := ⟨75, by decide, by decide⟩
def EOPNOTSUPP : Errno := ⟨95, by decide, by decide⟩

/-- `-e` as the `int` a system call returns. -/
def Errno.neg (e : Errno) : ℤ := -(e.val : ℤ)

/-- `-e` as the `unsigned long` an address-returning function returns. -/
def Errno.ptr (e : Errno) : ULong := -BitVec.ofNat 64 e.val

/-- `IS_ERR_VALUE`: the top `MAX_ERRNO` values of the range. -/
def isErrValue (x : ULong) : Bool := decide (2 ^ 64 - 4095 ≤ x.toNat)

/-- INTERNAL: an error as a pointer is the word that far below `2^64`. -/
theorem Errno.ptr_toNat (e : Errno) : e.ptr.toNat = 2 ^ 64 - e.val := by
  have hpos := e.pos
  have hle := e.le
  rw [Errno.ptr, BitVec.toNat_neg, BitVec.toNat_ofNat]
  omega

/-- INTERNAL: `IS_ERR_VALUE` recognises every error. -/
@[simp] theorem isErrValue_ptr (e : Errno) : isErrValue e.ptr = true := by
  have hpos := e.pos
  have hle := e.le
  rw [isErrValue, Errno.ptr_toNat]
  exact decide_eq_true (by omega)

/-- INTERNAL: different errors are different pointers. -/
theorem Errno.ptr_injective : Function.Injective Errno.ptr := by
  rintro ⟨m, hm, hm'⟩ ⟨n, hn, hn'⟩ h
  have hval := congrArg BitVec.toNat h
  simp only [Errno.ptr_toNat] at hval
  simp only [Errno.mk.injEq]
  omega

/-! ## Pages -/

/-- `PAGE_SHIFT`. -/
def pageShift : ℕ := 12

/-- `PAGE_SIZE`. -/
def pageSize : ℕ := 4096

/-- `PAGE_ALIGN`. -/
def pageAlign (x : ULong) : ULong := alignUp pageShift x

/-- `offset_in_page`: the bits below the page number are not all zero. -/
def offsetInPage (x : ULong) : Bool := decide (x.toNat % pageSize ≠ 0)

/-- `x << PAGE_SHIFT`. -/
def pagesToBytes (x : ULong) : ULong := x <<< pageShift

/-- `x >> PAGE_SHIFT`. -/
def bytesToPages (x : ULong) : ULong := x >>> pageShift

/-- INTERNAL: `PAGE_ALIGN` rounds up after an addition that may overflow. -/
theorem pageAlign_toNat (x : ULong) :
    (pageAlign x).toNat = (x.toNat + 4095) % 2 ^ 64 / 4096 * 4096 :=
  alignUp_toNat 12 (by decide) x

/-- INTERNAL: `<< PAGE_SHIFT` multiplies by 4096, modulo the word size. -/
theorem pagesToBytes_toNat (x : ULong) :
    (pagesToBytes x).toNat = x.toNat * 4096 % 2 ^ 64 := by
  rw [pagesToBytes, pageShift, BitVec.toNat_shiftLeft, Nat.shiftLeft_eq]

/-- INTERNAL: `>> PAGE_SHIFT` divides by 4096. -/
theorem bytesToPages_toNat (x : ULong) : (bytesToPages x).toNat = x.toNat / 4096 := by
  rw [bytesToPages, pageShift, BitVec.toNat_ushiftRight, Nat.shiftRight_eq_div_pow]

/-- INTERNAL: `PAGE_ALIGN` gives a multiple of the page size, also when it overflows. -/
theorem pageAlign_mod (x : ULong) : (pageAlign x).toNat % 4096 = 0 := by
  rw [pageAlign_toNat]
  omega

/-! ## User memory -/

/-- `copy_to_user` of `n` bytes of `src`, of which the last `left` are not copied. -/
def copyToUser (user : Bytes) (dst : ℤ) (src : Bytes) (n left : ℕ) : Bytes :=
  user.copy dst src 0 (n - left)

end UsacKernel.Model
