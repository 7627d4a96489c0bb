import UsacKernel.Model.SystemInfo

/-!
# The readings of CPU usage

Between two readings the module remembers the idle time and the sum of all times. As long
as the counters only grow and their sum does not wrap, the remembered pair is that of the
previous snapshot, no difference underflows, and the reading is the exact percentage for
the interval.
-/

set_option autoImplicit false

namespace UsacKernel.Analysis

open UsacKernel.Computation UsacKernel.Model

/-- The sum of the eight counters, without wrap-around. -/
def Cpustat.sum (c : Cpustat) : ℕ :=
  c.user.toNat + c.nice.toNat + c.system.toNat + c.idle.toNat + c.iowait.toNat + c.irq.toNat +
    c.softirq.toNat + c.steal.toNat

/-- The sum of the seven counters other than `idle`. -/
def Cpustat.busy (c : Cpustat) : ℕ :=
  c.user.toNat + c.nice.toNat + c.system.toNat + c.iowait.toNat + c.irq.toNat + c.softirq.toNat +
    c.steal.toNat

/-- `c'` is a later snapshot than `c`: no counter has decreased, the sum fits into 64 bits
and has grown by less than a hundredth of their range. -/
structure Follows (c c' : Cpustat) : Prop where
  user : c.user.toNat ≤ c'.user.toNat
  nice : c.nice.toNat ≤ c'.nice.toNat
  system : c.system.toNat ≤ c'.system.toNat
  idle : c.idle.toNat ≤ c'.idle.toNat
  iowait : c.iowait.toNat ≤ c'.iowait.toNat
  irq : c.irq.toNat ≤ c'.irq.toNat
  softirq : c.softirq.toNat ≤ c'.softirq.toNat
  steal : c.steal.toNat ≤ c'.steal.toNat
  sum_lt : Cpustat.sum c' < 2 ^ 64
  growth_lt : 100 * (Cpustat.sum c' - Cpustat.sum c) < 2 ^ 64

/-- INTERNAL: the total time is the busy time and the idle time. -/
theorem Cpustat.sum_eq (c : Cpustat) : Cpustat.sum c = Cpustat.busy c + c.idle.toNat := by
  unfold Cpustat.sum Cpustat.busy
  omega

/-- INTERNAL: the busy time does not go back between two readings of which no field does. -/
theorem Follows.busy_le {c c' : Cpustat} (h : Follows c c') :
    Cpustat.busy c ≤ Cpustat.busy c' := by
  obtain ⟨huser, hnice, hsystem, -, hiowait, hirq, hsoftirq, hsteal, -, -⟩ := h
  unfold Cpustat.busy
  omega

/-- INTERNAL: the 64-bit sum is the exact one. -/
theorem Cpustat.total_toNat (c : Cpustat) (hc : Cpustat.sum c < 2 ^ 64) :
    c.total.toNat = Cpustat.sum c := by
  unfold Cpustat.sum at hc ⊢
  simp only [Cpustat.total, BitVec.toNat_add, Nat.mod_add_mod]
  exact Nat.mod_eq_of_lt hc

/-- What a reading at `c'` is to be when the one before was at `c`: the saved values are
not above the new ones, the idle time has not grown more than the sum, and the usage is the
whole percentage of the growth that is not idle (0 when nothing has grown, as division by
zero is zero). -/
structure ExactReading (prev : PrevTimes) (c c' : Cpustat) : Prop where
  idle_le : prev.prevIdle.toNat ≤ c'.idle.toNat
  total_le : prev.prevTotal.toNat ≤ c'.total.toNat
  diff_le : (diffIdle prev c').toNat ≤ (diffTotal prev c').toNat
  usage : (calculateCpuUsage prev c').2.toNat =
    100 * (Cpustat.busy c' - Cpustat.busy c) / (Cpustat.sum c' - Cpustat.sum c)
  usage_le : (calculateCpuUsage prev c').2.toNat ≤ 100

/-- INTERNAL: one reading, with the previous snapshot saved.
SOURCE: mem_and_cpu_info_202110206.c:22-53 -/
theorem calculateCpuUsage_exact {c c' : Cpustat} (hc : Cpustat.sum c < 2 ^ 64)
    (h : Follows c c') : ExactReading ⟨c.idle, c.total⟩ c c' := by
  have hbusy := h.busy_le
  have hidle := h.idle
  have hgrowth := h.growth_lt
  have htotal := Cpustat.total_toNat c hc
  have htotal' := Cpustat.total_toNat c' h.sum_lt
  have hsum := Cpustat.sum_eq c
  have hsum' := Cpustat.sum_eq c'
  have hdiffIdle : (diffIdle ⟨c.idle, c.total⟩ c').toNat = c'.idle.toNat - c.idle.toNat :=
    BitVec.toNat_sub_of_le (BitVec.le_def.mpr hidle)
  have hdiffTotal : (diffTotal ⟨c.idle, c.total⟩ c').toNat = Cpustat.sum c' - Cpustat.sum c := by
    have hle : c.total ≤ c'.total := BitVec.le_def.mpr (by omega)
    rw [← htotal, ← htotal']
    exact BitVec.toNat_sub_of_le hle
  have hdiff : (diffIdle ⟨c.idle, c.total⟩ c').toNat ≤ (diffTotal ⟨c.idle, c.total⟩ c').toNat := by
    omega
  have husage : (calculateCpuUsage ⟨c.idle, c.total⟩ c').2.toNat =
      100 * (Cpustat.busy c' - Cpustat.busy c) / (Cpustat.sum c' - Cpustat.sum c) := by
    simp only [calculateCpuUsage]
    split_ifs with hgrown
    · have hbusyGrowth : (diffTotal ⟨c.idle, c.total⟩ c' - diffIdle ⟨c.idle, c.total⟩ c').toNat =
          Cpustat.busy c' - Cpustat.busy c := by
        rw [BitVec.toNat_sub_of_le (BitVec.le_def.mpr hdiff)]
        omega
      rw [BitVec.toNat_udiv, BitVec.toNat_mul, hbusyGrowth, hdiffTotal,
        show (100 : BitVec 64).toNat = 100 from rfl, Nat.mod_eq_of_lt (by omega)]
    · have hzero : (diffTotal ⟨c.idle, c.total⟩ c').toNat = 0 := by
        rw [gt_iff_lt, BitVec.lt_def] at hgrown
        exact Nat.eq_zero_of_not_pos hgrown
      rw [← hdiffTotal, hzero, Nat.div_zero]
      rfl
  refine ⟨hidle, by rw [htotal, htotal']; omega, hdiff, husage, ?_⟩
  rw [husage]
  exact Nat.div_le_of_le_mul (by rw [Nat.mul_comm]; exact Nat.mul_le_mul_right 100 (by omega))

/-- MAIN: **CPU readings are exact percentages.** For every sequence of snapshots in which
the counters do not decrease, their sum stays below `2^64` and grows by less than `2^64/100`
from one to the next, with the module initialised at the first one and read at each later
one: every reading is at most 100 and is the percentage of the time since the previous
reading that was not idle, and no difference underflows.
SOURCE: mem_and_cpu_info_202110206.c:18-53, 84-99 -/
theorem cpuReadings_exact (first : Cpustat) (rest : List Cpustat)
    (hfirst : Cpustat.sum first < 2 ^ 64) (hchain : (first :: rest).IsChain Follows) :
    let readings := cpuMachine.outputs (memandprocessesinfoInit first) rest
    readings.length = rest.length ∧
      ∀ (k : ℕ) (c c' : Cpustat), (first :: rest)[k]? = some c → rest[k]? = some c' →
        let prev := cpuMachine.final (memandprocessesinfoInit first) (rest.take k)
        readings[k]? = some (calculateCpuUsage prev c').2 ∧ ExactReading prev c c' := by
  induction rest generalizing first with
  | nil => exact ⟨rfl, fun k c c' _ h => by simp at h⟩
  | cons next rest ih =>
    rw [List.isChain_cons_cons] at hchain
    obtain ⟨hnext, hchain⟩ := hchain
    -- a reading leaves what the initialisation at its snapshot would leave
    obtain ⟨hlength, hreadings⟩ := ih next hnext.sum_lt hchain
    refine ⟨congrArg Nat.succ hlength, ?_⟩
    intro k c c' hc hc'
    cases k with
    | zero =>
      rw [List.getElem?_cons_zero, Option.some.injEq] at hc hc'
      subst hc hc'
      exact ⟨rfl, calculateCpuUsage_exact hfirst hnext⟩
    | succ k => exact hreadings k c c' hc hc'

/-- INTERNAL: a hundred ticks, of which 30 were idle. -/
theorem cpuReadings_exact_hundred :
    (cpuMachine.outputs (memandprocessesinfoInit ⟨10, 0, 5, 100, 0, 0, 0, 0⟩)
        [⟨70, 0, 15, 130, 0, 0, 0, 0⟩]).length = 1 ∧
      (calculateCpuUsage (memandprocessesinfoInit ⟨10, 0, 5, 100, 0, 0, 0, 0⟩)
        ⟨70, 0, 15, 130, 0, 0, 0, 0⟩).2.toNat = 70 := by
  obtain ⟨hlength, hreadings⟩ := cpuReadings_exact ⟨10, 0, 5, 100, 0, 0, 0, 0⟩
    [⟨70, 0, 15, 130, 0, 0, 0, 0⟩] (by decide)
    (List.isChain_pair.mpr (by constructor <;> decide))
  exact ⟨hlength, (hreadings 0 _ _ rfl rfl).2.usage.trans (by decide)⟩

end UsacKernel.Analysis
