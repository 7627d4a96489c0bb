import UsacKernel.Model.MemoryLimit

/-!
# The registry in user memory, byte by byte

`julioz_get_memory_limits` once more, with `k_processes_buffer` and the user's buffer as
bytes. The kernel buffer is what `kmalloc_array` returned, with whatever those bytes held
before; the loop assigns to the members of one struct after the other. Addresses in the
kernel buffer count from its start. The counter that `put_user` stores is kept apart from
the user's buffer.
-/

set_option autoImplicit false

namespace UsacKernel.Model

open UsacKernel.Computation

/-- The members of `struct memory_limitation`, by their sizes.
SOURCE: crudmemlimit.c:16-19 -/
def memoryLimitation : Struct := [4, 8]

/-- The assignments to the members of a struct, in the order of the source.
SOURCE: crudmemlimit.c:153-154 -/
def MemoryLimitation.assignments (entry : MemoryLimitation) : List Assignment :=
  [⟨memoryLimitation.offset 0, 32, entry.pid⟩, ⟨memoryLimitation.offset 1, 64, entry.memoryLimit⟩]

/-- The members of the struct at `a`. -/
def MemoryLimitation.read (m : Bytes) (a : ℤ) : MemoryLimitation where
  pid := m.load (a + memoryLimitation.offset 0) 32
  memoryLimit := m.load (a + memoryLimitation.offset 1) 64

example : memoryLimitation.offset 1 = 8 ∧ memoryLimitation.sizeof = sizeofMemoryLimitation := by
  decide

/-- The loop under the lock.
SOURCE: crudmemlimit.c:148-156 -/
def Bytewise.fillBuffer (maxEntries : ULong) : MemoryList → CInt → Bytes → CInt × Bytes
  | [], count, heap => (count, heap)
  | entry :: rest, count, heap =>
    if count.signExtend 64 ≥ maxEntries then (count, heap)
    else Bytewise.fillBuffer maxEntries rest (count + 1)
      (assignAll (memoryLimitation.sizeof * count.toInt) entry.assignments heap)

/-- What the call leaves behind: its code, user memory, and the count stored at
`processes_returned`. -/
structure Bytewise.GetReply where
  ret : ℤ
  user : Bytes
  processesReturned : Option CInt

/-- The two user copies after the lock.
SOURCE: crudmemlimit.c:160-173 -/
def Bytewise.getCopies (a : Answers) (dst : ULong) (count : CInt) (heap user : Bytes) :
    Bytewise.GetReply :=
  let size := count.signExtend 64 * BitVec.ofNat 64 memoryLimitation.sizeof
  let user := copyToUser user dst.toNat heap size.toNat a.copyToUser
  if a.copyToUser ≠ 0 then ⟨EFAULT.neg, user, none⟩
  else if a.putUser then ⟨EFAULT.neg, user, none⟩
  else ⟨0, user, some count⟩

/-- `julioz_get_memory_limits` with `u_processes_buffer` at `dst`.
SOURCE: crudmemlimit.c:127-174 -/
def Bytewise.juliozGetMemoryLimits (a : Answers) (dst maxEntries : ULong) (l : MemoryList)
    (heap user : Bytes) : Bytewise.GetReply :=
  match getChecks a maxEntries with
  | some r => ⟨r, user, none⟩
  | none =>
    let filled := Bytewise.fillBuffer maxEntries l 0 heap
    Bytewise.getCopies a dst filled.1 filled.2 user

end UsacKernel.Model
