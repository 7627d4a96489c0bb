import UsacKernel.Model.ProcessStats

/-!
# The arithmetic of the memory statistics

The expressions that `julioz_get_memory_usage_stats` and `calculate_oom_score` of
`kernel/usac/pidstatsv2.c` evaluate for a task, operation by operation and conversion by
conversion. `usageOf_eval` and `calculateOomScore_eval` say that the model of the two
functions computes these expressions.
-/

set_option autoImplicit false

namespace UsacKernel.Model

open UsacKernel.Computation

/-- What the expressions read. -/
inductive StatsVar : IntType → Type where
  /-- `task->mm->total_vm`. -/
  | totalVm : StatsVar CType.unsignedLong
  /-- `get_mm_rss(task->mm)`. -/
  | rss : StatsVar CType.unsignedLong
  /-- The address of the function `totalram_pages`. -/
  | totalramPages : StatsVar CType.unsignedLong
  | totalSwapPages : StatsVar CType.unsignedLong
  /-- `task->signal->oom_score_adj`. -/
  | oomScoreAdj : StatsVar CType.short

/-- The values for a task. A task without an address space has no pages, and without a
`signal` the adjustment stays zero.
SOURCE: pidstatsv2.c:18-30, 63-75 -/
def StatsVar.read (env : StatsEnv) (task : TaskStruct) : ∀ t, StatsVar t → BitVec t.bits
  | _, .totalVm => (task.mm.map MmStruct.totalVm).getD 0
  | _, .rss => if task.mm.isSome then env.getMmRss task else 0
  | _, .totalramPages => env.totalramPages
  | _, .totalSwapPages => env.totalSwapPages
  | _, .oomScoreAdj => (env.oomScoreAdj task).getD 0

/-- `(x << PAGE_SHIFT) / 1024`. -/
def kilobytesExpr (x : StatsVar CType.unsignedLong) : IntExpr StatsVar CType.unsignedLong :=
  .div (.shl (.var x) pageShift) (.lit _ 1024)

/-- SOURCE: pidstatsv2.c:64, 95 -/
def vmsizeExpr : IntExpr StatsVar CType.unsignedLong := kilobytesExpr .totalVm

/-- SOURCE: pidstatsv2.c:65, 96 -/
def vmrssExpr : IntExpr StatsVar CType.unsignedLong := kilobytesExpr .rss

/-- The quotient that becomes `committed_percent`, an `int`, when `vmsize` is not zero.
SOURCE: pidstatsv2.c:68-70, 99-101 -/
def percentExpr : IntExpr StatsVar CType.int :=
  .cast _ (.div (.mul vmrssExpr (.lit _ 100)) vmsizeExpr)

/-- The initial value of `totalpages`: an address with the pages of swap added to it.
SOURCE: pidstatsv2.c:19 -/
def totalpagesExpr : IntExpr StatsVar CType.unsignedLong :=
  .add (.var .totalramPages) (.var .totalSwapPages)

/-- The first value of the `int` variable `score`.
SOURCE: pidstatsv2.c:33 -/
def baseScoreExpr : IntExpr StatsVar CType.int :=
  .cast _ (.div (.mul (.var .rss) (.lit _ 1000)) totalpagesExpr)

/-- `score += adj`, a sum of `long` numbers that is cut back to an `int`.
SOURCE: pidstatsv2.c:29, 34 -/
def scoreExpr : IntExpr StatsVar CType.int :=
  .cast _ (.add (.cast CType.long baseScoreExpr) (.cast CType.long (.var .oomScoreAdj)))

/-- The limits that the score is put into.
SOURCE: pidstatsv2.c:37-41 -/
def clampScore (score : CInt) : CInt :=
  if score.toInt < 0 then 0 else if score.toInt > 1000 then 1000 else score

/-- INTERNAL: the sizes and the percentage in a record.
SOURCE: pidstatsv2.c:63-75, 94-106 -/
theorem usageOf_eval (score : TaskStruct → CInt) (env : StatsEnv) (task : TaskStruct) :
    (usageOf score env task).vmsize = vmsizeExpr.eval (StatsVar.read env task) ∧
      (usageOf score env task).vmrss = vmrssExpr.eval (StatsVar.read env task) ∧
      (usageOf score env task).committedPercent =
        if (usageOf score env task).vmsize > 0 then percentExpr.eval (StatsVar.read env task)
        else 0 := by
  have hvmsize : vmsizeExpr.eval (StatsVar.read env task) =
      pagesToBytes ((task.mm.map MmStruct.totalVm).getD 0) / 1024 := rfl
  have hvmrss : vmrssExpr.eval (StatsVar.read env task) =
      pagesToBytes (if task.mm.isSome then env.getMmRss task else 0) / 1024 := rfl
  have hpercent : percentExpr.eval (StatsVar.read env task) =
      (vmrssExpr.eval (StatsVar.read env task) * 100 /
        vmsizeExpr.eval (StatsVar.read env task)).setWidth 32 := rfl
  rw [hpercent, hvmsize, hvmrss]
  unfold usageOf
  cases task.mm with
  | none => simp [pagesToBytes]
  | some mm => exact ⟨rfl, rfl, rfl⟩

/-- INTERNAL: `calculate_oom_score`.
SOURCE: pidstatsv2.c:17-44 -/
theorem calculateOomScore_eval (env : StatsEnv) (task : TaskStruct) :
    calculateOomScore env task = clampScore (scoreExpr.eval (StatsVar.read env task)) := by
  have hadj : ((env.oomScoreAdj task).map (fun adj => adj.signExtend 64)).getD 0 =
      ((env.oomScoreAdj task).getD 0).signExtend 64 := by
    cases env.oomScoreAdj task <;> rfl
  have hbase : baseScoreExpr.eval (StatsVar.read env task) =
      ((if task.mm.isSome then env.getMmRss task else 0) * 1000 /
        (env.totalramPages + env.totalSwapPages)).setWidth 32 := rfl
  have hsum : scoreExpr.eval (StatsVar.read env task) =
      ((baseScoreExpr.eval (StatsVar.read env task)).signExtend 64 +
        ((env.oomScoreAdj task).getD 0).signExtend 64).signExtend 32 := rfl
  rw [BitVec.signExtend_eq_setWidth_of_le _ (by decide)] at hsum
  unfold calculateOomScore
  rw [hsum, hbase, hadj]
  rfl

end UsacKernel.Model
