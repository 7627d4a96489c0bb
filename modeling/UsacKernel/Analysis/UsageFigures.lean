import UsacKernel.Analysis.ProcessStatistics
import UsacKernel.Model.StatsArithmetic

/-!
# The figures of the second version

The sizes and percentages that the second version of `julioz_get_memory_usage_stats` reports are
exact for every system of real size: `PageBounds` says what that is. The shifts, products, sums
and conversions are followed one by one (`IntExpr.Exact`); each stays in its type because of the
bounds on the operands before it.

The score is meant to be the share of the resident pages in the pages of RAM and swap, in
thousandths, adjusted and put between 0 and 1000. The divisor is computed from `totalram_pages`
without a call, which is the address of that function. An address of the kernel is far larger than
a thousand times any number of pages, so the share is zero and the score is the adjustment alone
(`calculateOomScore_adj`): the records are exact for the tasks whose share would not have
mattered (`ShareIgnored`), and for no others.
-/

set_option autoImplicit false

namespace UsacKernel.Analysis

open UsacKernel.Computation UsacKernel.Model

/-! ## The numbers of a task -/

/-- The pages of the address space; none without one. -/
def totalVmOf (task : TaskStruct) : ℕ :=
  match task.mm with
  | some mm => mm.totalVm.toNat
  | none => 0

/-- The resident pages; none without an address space. -/
def rssOf (env : StatsEnv) (task : TaskStruct) : ℕ :=
  match task.mm with
  | some _ => (env.getMmRss task).toNat
  | none => 0

/-- `oom_score_adj`; zero without a `signal`. -/
def adjOf (env : StatsEnv) (task : TaskStruct) : ℤ :=
  match env.oomScoreAdj task with
  | some adj => adj.toInt
  | none => 0

/-- The share of the resident pages in the `ram` pages of RAM and the pages of swap, in
thousandths. -/
def shareOf (env : StatsEnv) (ram : ℕ) (task : TaskStruct) : ℕ :=
  1000 * rssOf env task / (ram + env.totalSwapPages.toNat)

/-- The system, with `ram` pages of RAM, and the tasks are of real size. -/
structure PageBounds (env : StatsEnv) (ram : ℕ) (tbl : TaskTable) : Prop where
  pos : 0 < ram + env.totalSwapPages.toNat
  ram_lt : ram < 2 ^ 44
  swap : env.totalSwapPages.toNat < 2 ^ 44
  total_vm : ∀ task ∈ tbl.tasks, totalVmOf task < 2 ^ 44
  rss_le : ∀ task ∈ tbl.tasks, rssOf env task ≤ totalVmOf task
  rss_le_total : ∀ task ∈ tbl.tasks, rssOf env task ≤ ram + env.totalSwapPages.toNat
  adj : ∀ task ∈ tbl.tasks, -1000 ≤ adjOf env task ∧ adjOf env task ≤ 1000

/-- An address of the kernel: one of the upper half of the range. -/
def KernelAddress (x : ULong) : Prop := 2 ^ 63 ≤ x.toNat

/-- The pages of swap can be added to the address without a carry out of the word. -/
def SumFits (env : StatsEnv) : Prop :=
  env.totalramPages.toNat + env.totalSwapPages.toNat < 2 ^ 64

/-- The share does not change the score: it is zero, the adjustment is the largest one, or it
takes the sum to zero or below. -/
def ShareIgnored (env : StatsEnv) (ram : ℕ) (task : TaskStruct) : Prop :=
  shareOf env ram task = 0 ∨ adjOf env task = 1000 ∨ shareOf env ram task + adjOf env task ≤ 0

section Variables

variable (env : StatsEnv) (task : TaskStruct)

/-- INTERNAL: `total_vm` as the expressions read it. -/
theorem ofWord_totalVm :
    CType.unsignedLong.ofWord (StatsVar.read env task _ .totalVm) = totalVmOf task := by
  unfold totalVmOf StatsVar.read
  cases task.mm <;> rfl

/-- INTERNAL: the resident pages as the expressions read them. -/
theorem ofWord_rss :
    CType.unsignedLong.ofWord (StatsVar.read env task _ .rss) = rssOf env task := by
  unfold rssOf StatsVar.read
  cases task.mm <;> rfl

/-- INTERNAL: the adjustment as the expressions read it. -/
theorem ofWord_adj :
    CType.short.ofWord (StatsVar.read env task _ .oomScoreAdj) = adjOf env task := by
  unfold adjOf StatsVar.read
  cases env.oomScoreAdj task <;> rfl

end Variables

/-! ## The expressions -/

/-- INTERNAL: the range of `unsigned long`. -/
theorem unsignedLong_holds {n : ℤ} (h : 0 ≤ n) (h' : n < 2 ^ 64) : CType.unsignedLong.Holds n :=
  ⟨h, h'⟩

/-- INTERNAL: the range of `int`. -/
theorem int_holds {n : ℤ} (h : -2 ^ 31 ≤ n) (h' : n < 2 ^ 31) : CType.int.Holds n := ⟨h, h'⟩

/-- INTERNAL: the range of `long`. -/
theorem long_holds {n : ℤ} (h : -2 ^ 63 ≤ n) (h' : n < 2 ^ 63) : CType.long.Holds n := ⟨h, h'⟩

/-- INTERNAL: a share of a total, scaled by a whole number, is no more than that number. -/
theorem scaled_share_le {part total scale : ℕ} (h : part ≤ total) :
    scale * part / total ≤ scale := by
  apply Nat.div_le_of_le_mul
  rw [mul_comm total scale]
  exact Nat.mul_le_mul_left scale h

/-- INTERNAL: a scaled share, computed in `unsigned long` numbers and cut to an `int`. -/
theorem scaledShare_computes {ν : IntType → Type} {ρ : ∀ t, ν t → BitVec t.bits}
    {x y : IntExpr ν CType.unsignedLong} {part total : ℕ} (scale : ℕ) (hx : x.Computes ρ part)
    (hy : y.Computes ρ total) (hpos : 0 < total) (hle : part ≤ total) (hscale : scale < 2 ^ 31)
    (hproduct : part * scale < 2 ^ 64) :
    (IntExpr.cast CType.int (.div (.mul x (.lit _ scale)) y)).Computes ρ
      (scale * part / total : ℕ) := by
  have hshare : scale * part / total ≤ scale := scaled_share_le hle
  have hquotient : ((part : ℤ) * scale).tdiv total = (scale * part / total : ℕ) := by
    rw [Int.tdiv_eq_ediv_of_nonneg (by positivity), mul_comm]
    norm_cast
  generalize scale * part / total = share at hshare hquotient ⊢
  apply IntExpr.Computes.cast
  · apply IntExpr.Computes.div (.mul hx (.lit ?_) ?_) hy (by omega) hquotient
    · exact unsignedLong_holds (by omega) (by omega)
    · exact unsignedLong_holds (by omega) (by omega)
    · exact unsignedLong_holds (by positivity) (by exact_mod_cast hproduct)
  · exact int_holds (by omega) (by omega)

/-- INTERNAL: pages in kilobytes.
SOURCE: pidstatsv2.c:64-65, 95-96 -/
theorem kilobytesExpr_computes {env : StatsEnv} {task : TaskStruct}
    {x : StatsVar CType.unsignedLong} {n : ℕ}
    (hx : CType.unsignedLong.ofWord (StatsVar.read env task _ x) = n) (hn : n < 2 ^ 44) :
    (kilobytesExpr x).Computes (StatsVar.read env task) (4 * n : ℕ) := by
  have hquotient : ((n : ℤ) * 2 ^ pageShift).tdiv 1024 = (4 * n : ℕ) := by
    rw [Int.tdiv_eq_ediv_of_nonneg (by positivity), pageShift]
    omega
  apply IntExpr.Computes.div (.shl (.var hx) ?_) (.lit ?_) (by decide) hquotient
  · exact unsignedLong_holds (by omega) (by omega)
  · rw [pageShift]
    exact unsignedLong_holds (by omega) (by omega)
  · exact unsignedLong_holds (by decide) (by decide)

section Expressions

variable {env : StatsEnv} {ram : ℕ} {tbl : TaskTable} (h : PageBounds env ram tbl)
  {task : TaskStruct} (htask : task ∈ tbl.tasks)

include h htask

/-- INTERNAL: the two sizes.
SOURCE: pidstatsv2.c:64-65, 95-96 -/
theorem sizeExprs_compute :
    vmsizeExpr.Computes (StatsVar.read env task) (4 * totalVmOf task : ℕ) ∧
      vmrssExpr.Computes (StatsVar.read env task) (4 * rssOf env task : ℕ) := by
  have hrss := h.rss_le task htask
  have htotal := h.total_vm task htask
  exact ⟨kilobytesExpr_computes (ofWord_totalVm env task) htotal,
    kilobytesExpr_computes (ofWord_rss env task) (by omega)⟩

/-- INTERNAL: the percentage, which is computed when `vmsize` is not zero. The kilobytes
cancel out.
SOURCE: pidstatsv2.c:68-70, 99-101 -/
theorem percentExpr_computes (hpos : 0 < totalVmOf task) :
    percentExpr.Computes (StatsVar.read env task) (100 * rssOf env task / totalVmOf task : ℕ) := by
  have hrss := h.rss_le task htask
  have htotal := h.total_vm task htask
  obtain ⟨hvmsize, hvmrss⟩ := sizeExprs_compute h htask
  have hcancel : 100 * (4 * rssOf env task) / (4 * totalVmOf task) =
      100 * rssOf env task / totalVmOf task := by
    rw [mul_left_comm, Nat.mul_div_mul_left _ _ (by decide)]
  rw [← hcancel]
  exact scaledShare_computes 100 hvmrss hvmsize (by omega) (by omega) (by decide) (by omega)

/-- INTERNAL: a quotient by the address of a function of the kernel: a thousand times the resident
pages are less than the divisor.
SOURCE: pidstatsv2.c:19, 33 -/
theorem baseScoreExpr_computes (haddr : KernelAddress env.totalramPages) (hfits : SumFits env) :
    baseScoreExpr.Computes (StatsVar.read env task) 0 := by
  unfold KernelAddress at haddr
  unfold SumFits at hfits
  have hrss := h.rss_le task htask
  have htotal_vm := h.total_vm task htask
  have htotal : totalpagesExpr.Computes (StatsVar.read env task)
      (env.totalramPages.toNat + env.totalSwapPages.toNat : ℕ) := by
    rw [Nat.cast_add]
    exact .add (.var rfl) (.var rfl) (unsignedLong_holds (by omega) (by omega))
  have hshare : 1000 * rssOf env task /
      (env.totalramPages.toNat + env.totalSwapPages.toNat) = 0 :=
    Nat.div_eq_of_lt (by omega)
  have hbase := scaledShare_computes 1000 (.var (ofWord_rss env task)) htotal (by omega) (by omega)
    (by decide) (by omega)
  rw [hshare] at hbase
  exact hbase

/-- INTERNAL: the adjusted score before it is put into its limits.
SOURCE: pidstatsv2.c:29, 34 -/
theorem scoreExpr_computes (haddr : KernelAddress env.totalramPages) (hfits : SumFits env) :
    scoreExpr.Computes (StatsVar.read env task) (adjOf env task) := by
  have hadj := h.adj task htask
  have hbase := baseScoreExpr_computes h htask haddr hfits
  rw [← zero_add (adjOf env task)]
  apply IntExpr.Computes.cast
  · apply IntExpr.Computes.add (.cast hbase ?_) (.cast (.var (ofWord_adj env task)) ?_)
    · exact long_holds (by omega) (by omega)
    · exact long_holds (by omega) (by omega)
    · exact long_holds (by omega) (by omega)
  · exact int_holds (by omega) (by omega)

end Expressions

/-- INTERNAL: the score is computed without an overflow only if the first sum is.
SOURCE: pidstatsv2.c:19 -/
theorem sumFits_of_exact {env : StatsEnv} {task : TaskStruct}
    (h : scoreExpr.Exact (StatsVar.read env task)) : SumFits env := by
  obtain ⟨⟨⟨⟨⟨-, htotal, -⟩, -⟩, -⟩, -⟩, -⟩ := h
  have hholds : CType.unsignedLong.Holds
      ((env.totalramPages.toNat : ℤ) + (env.totalSwapPages.toNat : ℤ)) := htotal.2.2
  have hlt : (env.totalramPages.toNat : ℤ) + (env.totalSwapPages.toNat : ℤ) < 2 ^ 64 := hholds.2
  unfold SumFits
  omega

/-! ## The records -/

/-- INTERNAL: the limits as numbers.
SOURCE: pidstatsv2.c:37-41 -/
theorem clampScore_toInt (score : CInt) :
    (clampScore score).toInt = max 0 (min 1000 score.toInt) := by
  have hthousand : (1000 : CInt).toInt = 1000 := rfl
  have hzero : (0 : CInt).toInt = 0 := rfl
  unfold clampScore
  split_ifs <;> omega

/-- INTERNAL: the score is the adjustment alone.
SOURCE: pidstatsv2.c:17-44 -/
theorem calculateOomScore_adj {env : StatsEnv} {ram : ℕ} {tbl : TaskTable}
    (h : PageBounds env ram tbl) {task : TaskStruct} (htask : task ∈ tbl.tasks)
    (haddr : KernelAddress env.totalramPages) (hfits : SumFits env) :
    (calculateOomScore env task).toInt = max 0 (min 1000 (adjOf env task)) := by
  have hscore : (scoreExpr.eval (StatsVar.read env task)).toInt = _ :=
    (scoreExpr_computes h htask haddr hfits).ofWord_eval
  rw [calculateOomScore_eval, clampScore_toInt, hscore]

/-- INTERNAL: the score is always between 0 and 1000.
SOURCE: pidstatsv2.c:37-41 -/
theorem calculateOomScore_range (env : StatsEnv) (task : TaskStruct) :
    0 ≤ (calculateOomScore env task).toInt ∧ (calculateOomScore env task).toInt ≤ 1000 := by
  rw [calculateOomScore_eval, clampScore_toInt]
  omega

/-- No operation that is made for the task overflows, loses something in a conversion or
divides by zero. The percentage is computed only when `vmsize` is not zero. -/
structure ComputedExactly (env : StatsEnv) (task : TaskStruct) : Prop where
  vmsize : vmsizeExpr.Exact (StatsVar.read env task)
  vmrss : vmrssExpr.Exact (StatsVar.read env task)
  percent : vmsizeExpr.eval (StatsVar.read env task) > 0 →
    percentExpr.Exact (StatsVar.read env task)
  score : scoreExpr.Exact (StatsVar.read env task)

/-- The members of a task's record beside the score say what they should, and the score is in its
range. -/
structure ExactSizes (env : StatsEnv) (task : TaskStruct) (s : MemUsageStats) : Prop where
  pid : s.pid = task.pid
  vmsize : s.vmsize.toNat = 4 * totalVmOf task
  vmrss : s.vmrss.toNat = 4 * rssOf env task
  vmrss_le : s.vmrss.toNat ≤ s.vmsize.toNat
  percent : s.committedPercent.toInt = (100 * rssOf env task / totalVmOf task : ℕ)
  percent_range : 0 ≤ s.committedPercent.toInt ∧ s.committedPercent.toInt ≤ 100
  score_range : 0 ≤ s.oomScore.toInt ∧ s.oomScore.toInt ≤ 1000

/-- The record of a task on a machine with `ram` pages of RAM says what it should. -/
structure ExactRecord (env : StatsEnv) (ram : ℕ) (task : TaskStruct) (s : MemUsageStats) : Prop
    extends ExactSizes env task s where
  score : s.oomScore.toInt = max 0 (min 1000 (shareOf env ram task + adjOf env task))

/-- INTERNAL: the score in a record is the one of `calculate_oom_score`.
SOURCE: pidstatsv2.c:78, 110 -/
theorem usageOf_oomScore (env : StatsEnv) (task : TaskStruct) :
    (usageOf (calculateOomScore env) env task).oomScore = calculateOomScore env task := by
  unfold usageOf
  cases task.mm <;> rfl

section Records

variable {env : StatsEnv} {ram : ℕ} {tbl : TaskTable} (h : PageBounds env ram tbl)
  {task : TaskStruct} (htask : task ∈ tbl.tasks)

include h htask

/-- INTERNAL: `vmsize` is zero only without pages.
SOURCE: pidstatsv2.c:68, 99 -/
theorem vmsizeExpr_pos_iff :
    vmsizeExpr.eval (StatsVar.read env task) > 0 ↔ 0 < totalVmOf task := by
  have hvmsize : ((vmsizeExpr.eval (StatsVar.read env task)).toNat : ℤ) =
      (4 * totalVmOf task : ℕ) := (sizeExprs_compute h htask).1.ofWord_eval
  have hzero : (0 : ULong).toNat = 0 := rfl
  rw [gt_iff_lt, BitVec.lt_def, hzero]
  omega

/-- INTERNAL: the operations that are made for a task, as long as the first sum stays in its
type. -/
theorem computedExactly (haddr : KernelAddress env.totalramPages) (hfits : SumFits env) :
    ComputedExactly env task where
  vmsize := (sizeExprs_compute h htask).1.exact
  vmrss := (sizeExprs_compute h htask).2.exact
  percent hpos := (percentExpr_computes h htask ((vmsizeExpr_pos_iff h htask).mp hpos)).exact
  score := (scoreExpr_computes h htask haddr hfits).exact

/-- INTERNAL: the record that is computed for a task.
SOURCE: pidstatsv2.c:62-78, 93-109 -/
theorem usageOf_exactSizes : ExactSizes env task (usageOf (calculateOomScore env) env task) := by
  obtain ⟨hvmsize, hvmrss, hpercent⟩ := usageOf_eval (calculateOomScore env) env task
  have hsize : ((usageOf (calculateOomScore env) env task).vmsize.toNat : ℤ) =
      (4 * totalVmOf task : ℕ) := by
    rw [hvmsize]
    exact (sizeExprs_compute h htask).1.ofWord_eval
  have hresident : ((usageOf (calculateOomScore env) env task).vmrss.toNat : ℤ) =
      (4 * rssOf env task : ℕ) := by
    rw [hvmrss]
    exact (sizeExprs_compute h htask).2.ofWord_eval
  have hshare : (usageOf (calculateOomScore env) env task).committedPercent.toInt =
      (100 * rssOf env task / totalVmOf task : ℕ) := by
    rw [hpercent, hvmsize]
    split_ifs with hpos
    · exact (percentExpr_computes h htask ((vmsizeExpr_pos_iff h htask).mp hpos)).ofWord_eval
    · -- without pages the quotient is zero, as the record is
      have hnone : totalVmOf task = 0 := by
        rw [vmsizeExpr_pos_iff h htask] at hpos
        omega
      rw [hnone, Nat.div_zero]
      rfl
  have hrss := h.rss_le task htask
  have hle : 100 * rssOf env task / totalVmOf task ≤ 100 := scaled_share_le hrss
  have hrange : 0 ≤ (usageOf (calculateOomScore env) env task).committedPercent.toInt ∧
      (usageOf (calculateOomScore env) env task).committedPercent.toInt ≤ 100 := by
    rw [hshare]
    exact ⟨Int.natCast_nonneg _, by exact_mod_cast hle⟩
  refine ⟨?_, by omega, by omega, by omega, hshare, hrange, ?_⟩
  · unfold usageOf
    cases task.mm <;> rfl
  · rw [usageOf_oomScore]
    exact calculateOomScore_range env task

/-- INTERNAL: the record of a task is what it should be, and computed without an overflow, exactly
when the sum with the address fits and the share would not have mattered.
SOURCE: pidstatsv2.c:17-44 -/
theorem usageOf_exact_iff (haddr : KernelAddress env.totalramPages) :
    (ComputedExactly env task ∧
        ExactRecord env ram task (usageOf (calculateOomScore env) env task)) ↔
      SumFits env ∧ ShareIgnored env ram task := by
  have hadj := h.adj task htask
  unfold ShareIgnored
  constructor
  · rintro ⟨hexact, hrecord⟩
    have hfits := sumFits_of_exact hexact.score
    have hscore := hrecord.score
    rw [usageOf_oomScore, calculateOomScore_adj h htask haddr hfits] at hscore
    exact ⟨hfits, by omega⟩
  · rintro ⟨hfits, hignored⟩
    refine ⟨computedExactly h htask haddr hfits, usageOf_exactSizes h htask, ?_⟩
    rw [usageOf_oomScore, calculateOomScore_adj h htask haddr hfits]
    omega

end Records

/-- MAIN: **when the records of the second version are exact.** For every process table and
system of real size, every argument, previous stack content and user memory, in the list form and
in the single form, take a record whose copy, like those before it, has succeeded. It holds the
sizes of its task in kilobytes and the whole percentage of resident pages (0 without pages), and
its score is between 0 and 1000. It is exact as a whole, and no operation on the way overflows,
divides by zero or loses a bit in a conversion, exactly when the pages of swap can be added to the
address of `totalram_pages` and the share of the resident pages makes no difference to the score.
As long as they can be added, the score is the adjustment alone, so a task with no less resident
pages and no smaller adjustment has no smaller score.
SOURCE: pidstatsv2.c:17-119 -/
theorem V2.usageRecords_exact_iff (env : StatsEnv) (ram : ℕ) (tbl : TaskTable)
    (current : TaskStruct) (pid : CInt) (buffer maxEntries : ULong) (stack user : Bytes)
    (h : PageBounds env ram tbl) (haddr : KernelAddress env.totalramPages) :
    let written := (V2.juliozGetMemoryUsageStats env tbl current pid buffer maxEntries stack user).2
    (∀ k task, (reportedTasks tbl current pid buffer maxEntries)[k]? = some task →
      (∀ i ≤ k, env.copyToUser i = 0) →
        let s := MemUsageStats.read written (buffer.toNat + memUsageStats.sizeof * k)
        ExactSizes env task s ∧
          (ComputedExactly env task ∧ ExactRecord env ram task s ↔
            SumFits env ∧ ShareIgnored env ram task)) ∧
      (SumFits env → ∀ t ∈ tbl.tasks, ∀ u ∈ tbl.tasks, rssOf env t ≤ rssOf env u →
        adjOf env t ≤ adjOf env u →
          (calculateOomScore env t).toInt ≤ (calculateOomScore env u).toInt) := by
  intro written
  refine ⟨?_, ?_⟩
  · intro k task hreported hcopy s
    have htask := mem_of_reported hreported
    have hrecord : s = usageOf (calculateOomScore env) env task :=
      usageStats_record (calculateOomScore env) env tbl current pid buffer maxEntries stack user
        hreported hcopy
    rw [hrecord]
    exact ⟨usageOf_exactSizes h htask, usageOf_exact_iff h htask haddr⟩
  · intro hfits t ht u hu _ hadj
    rw [calculateOomScore_adj h ht haddr hfits, calculateOomScore_adj h hu haddr hfits]
    omega

/-- A machine on which every address space has 100 resident pages and every process the adjustment
10, with `totalram_pages` at an address of the kernel's text. -/
def residentStats : StatsEnv :=
  ⟨fun _ => 100, fun _ => 0, fun _ => some 10, 0xffffffff81234560, 0, fun _ => 0⟩

/-- INTERNAL: a process of 300 pages and a kernel thread, on a machine of 1000 pages. -/
theorem residentStats_bounds :
    PageBounds residentStats 1000 (pairTable (some (pagesMm 300)) none) :=
  ⟨by decide, by decide, by decide, by decide, by decide, by decide, by decide⟩

/-- INTERNAL: a process of 300 pages, a tenth of the machine's pages resident, with the adjustment
10. Its score should be 110; the record says 10. -/
theorem V2.score_without_share :
    let tbl := pairTable (some (pagesMm 300)) none
    let task := leaderOf 1 (some (pagesMm 300))
    let written := (V2.juliozGetMemoryUsageStats residentStats tbl task 0 4096 2 (fun _ => 0xaa)
      (fun _ => 0)).2
    let s := MemUsageStats.read written ((4096 : ULong).toNat + memUsageStats.sizeof * (0 : ℕ))
    PageBounds residentStats 1000 tbl ∧ s.oomScore.toInt = 10 ∧
      max 0 (min 1000 (shareOf residentStats 1000 task + adjOf residentStats task)) = 110 := by
  intro tbl task written s
  have hrecord : s = usageOf (calculateOomScore residentStats) residentStats task :=
    usageStats_record (calculateOomScore residentStats) residentStats tbl task 0 4096 2
      (fun _ => 0xaa) (fun _ => 0) (show _ = some task from rfl) (fun _ _ => rfl)
  refine ⟨residentStats_bounds, ?_, by decide⟩
  rw [hrecord]
  decide

/-- INTERNAL: the same process: its percentage is exact, its record is not. -/
theorem V2.usageRecords_exact_iff_pair :
    let tbl := pairTable (some (pagesMm 300)) none
    let task := leaderOf 1 (some (pagesMm 300))
    let written := (V2.juliozGetMemoryUsageStats residentStats tbl task 0 4096 2 (fun _ => 0xaa)
      (fun _ => 0)).2
    let s := MemUsageStats.read written ((4096 : ULong).toNat + memUsageStats.sizeof * (0 : ℕ))
    s.committedPercent.toInt = 33 ∧
      ¬ (ComputedExactly residentStats task ∧ ExactRecord residentStats 1000 task s) := by
  intro tbl task written s
  have haddr : KernelAddress residentStats.totalramPages := by
    unfold KernelAddress
    decide
  obtain ⟨hrecords, -⟩ := V2.usageRecords_exact_iff residentStats 1000 tbl task 0 4096 2
    (fun _ => 0xaa) (fun _ => 0) residentStats_bounds haddr
  obtain ⟨hsizes, hiff⟩ := hrecords 0 task rfl (fun _ _ => rfl)
  have hthird : ((100 * rssOf residentStats (leaderOf 1 (some (pagesMm 300))) /
      totalVmOf (leaderOf 1 (some (pagesMm 300))) : ℕ) : ℤ) = 33 := by decide
  refine ⟨hsizes.percent.trans hthird, ?_⟩
  rw [hiff]
  rintro ⟨-, hignored⟩
  revert hignored
  unfold ShareIgnored
  decide

end UsacKernel.Analysis
