import UsacKernel.Computation.Declaration
import UsacKernel.Model.ProcessStats

/-!
# The declarations of `struct mem_usage_stats`

The struct is declared four times: in the kernel source, in the header that comes with it
(`kernel/usac/include/pidstats.h`), and in the two user programs that list processes
(`Project2/test.c` and `Project2/mem_usage_stats.c`, all under
`Proyecto2/p2-kernel-linux`). The header and the first program leave out the last member,
and the header has its own type for the two sizes. The programs read the buffer that the
kernel has filled through their own declarations.
-/

set_option autoImplicit false

namespace UsacKernel.Model

open UsacKernel.Computation

/-- The members of `struct mem_usage_stats`, by their names. -/
inductive StatsMember where
  | pid
  | vmsize
  | vmrss
  | oomScore
  | committedPercent
  deriving DecidableEq

/-- SOURCE: pidstats.c:8-14 -/
def kernelDeclaration : Declaration StatsMember :=
  [(.pid, CType.int), (.vmsize, CType.unsignedLong), (.vmrss, CType.unsignedLong),
    (.oomScore, CType.int), (.committedPercent, CType.int)]

/-- SOURCE: include/pidstats.h:6-11 -/
def headerDeclaration : Declaration StatsMember :=
  [(.pid, CType.int), (.vmsize, CType.u64), (.vmrss, CType.u64), (.oomScore, CType.int)]

/-- SOURCE: Project2/test.c:11-16 -/
def testDeclaration : Declaration StatsMember :=
  [(.pid, CType.int), (.vmsize, CType.unsignedLong), (.vmrss, CType.unsignedLong),
    (.oomScore, CType.int)]

/-- SOURCE: Project2/mem_usage_stats.c:11-17 -/
def programDeclaration : Declaration StatsMember :=
  [(.pid, CType.int), (.vmsize, CType.unsignedLong), (.vmrss, CType.unsignedLong),
    (.oomScore, CType.int), (.committedPercent, CType.int)]

def userDeclarations : List (Declaration StatsMember) :=
  [headerDeclaration, testDeclaration, programDeclaration]

/-- The number that the kernel stored in a member. -/
def MemUsageStats.value (s : MemUsageStats) : StatsMember → ℤ
  | .pid => s.pid.toInt
  | .vmsize => s.vmsize.toNat
  | .vmrss => s.vmrss.toNat
  | .oomScore => s.oomScore.toInt
  | .committedPercent => s.committedPercent.toInt

/-- INTERNAL: the kernel's own declaration and the byte layout of the model are the same. -/
theorem kernelDeclaration_read (m : Bytes) (a : ℤ) (x : StatsMember) :
    kernelDeclaration.read m a x = some ((MemUsageStats.read m a).value x) := by
  cases x <;> rfl

/-! ## The user programs -/

/-- `max_entries` of both programs.
SOURCE: Project2/test.c:20; Project2/mem_usage_stats.c:21 -/
def programMaxEntries : ULong := 256

/-- The rows that a program with declaration `d` prints after the system call has returned
`result`: all members of each entry, in their order; nothing but an error message for a
negative result.
SOURCE: Project2/test.c:34-50; Project2/mem_usage_stats.c:35-49 -/
def printedRows (d : Declaration StatsMember) (buffer : ULong) (call : ℤ × Bytes) :
    List (List (Option ℤ)) :=
  (List.range call.1.toNat).map (fun i =>
    d.map (fun x => d.read call.2 (d.element buffer.toNat i) x.1))

end UsacKernel.Model
