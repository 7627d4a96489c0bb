import UsacKernel.Model.SyscallUsage

/-!
# What the counters of system calls count

A query should report, for each number, how often the system call was made and when last.
The table is made by the first query, so what it reports is the history since then: the
calls before the first query are lost. Every query of a run is exact when nothing was
lost.
-/

set_option autoImplicit false

namespace UsacKernel.Analysis

open UsacKernel.Computation UsacKernel.Model

/-! ## Histories -/

/-- When the calls with number `n` were made, in their order. -/
def callTimes (history : List CounterInput) (n : ℤ) : List Timespec64 :=
  history.filterMap fun
    | .call call now => if call.nr.toInt = n then some now else none
    | .query _ _ => none

/-- What a query is to report for number `n`: the number of calls, modulo `2^64`, and the
time of the last one. -/
def usageIn (history : List CounterInput) (n : ℤ) : SyscallUsage :=
  ⟨BitVec.ofNat 64 (callTimes history n).length, (callTimes history n).getLast?.getD ⟨0, 0⟩⟩

/-- INTERNAL: the calls of a longer history come after those of the shorter one. -/
theorem callTimes_append (before after : List CounterInput) (n : ℤ) :
    callTimes (before ++ after) n = callTimes before n ++ callTimes after n :=
  List.filterMap_append

/-- INTERNAL: one more call counts up its own number and no other. -/
theorem usageIn_call (history : List CounterInput) (call : TrackedCall) (now : Timespec64) (n : ℤ) :
    usageIn (history ++ [.call call now]) n =
      if call.nr.toInt = n then ⟨(usageIn history n).count + 1, now⟩ else usageIn history n := by
  unfold usageIn
  rw [callTimes_append]
  by_cases hn : call.nr.toInt = n
  · have hone : callTimes [.call call now] n = [now] := by simp [callTimes, hn]
    rw [hone, if_pos hn, List.length_append, List.length_singleton, BitVec.ofNat_add,
      List.getLast?_append]
    rfl
  · have hnone : callTimes [.call call now] n = [] := by simp [callTimes, hn]
    rw [hnone, if_neg hn, List.append_nil]

/-- INTERNAL: a query is not counted. -/
theorem usageIn_query (history : List CounterInput) (kzalloc : Bool) (left : ℕ) :
    usageIn (history ++ [.query kzalloc left]) = usageIn history := by
  funext n
  rw [usageIn, callTimes_append, show callTimes [.query kzalloc left] n = [] from rfl,
    List.append_nil]
  rfl

/-- INTERNAL: a history in which nothing is to be reported can be forgotten. -/
theorem usageIn_forget (before after : List CounterInput)
    (h : ∀ n, usageIn before n = .zero) : usageIn (before ++ after) = usageIn after := by
  funext n
  have hbefore := h n
  simp only [usageIn, SyscallUsage.zero, SyscallUsage.mk.injEq] at hbefore
  obtain ⟨hcount, hlast⟩ := hbefore
  unfold usageIn
  rw [callTimes_append, List.length_append, BitVec.ofNat_add, hcount, zero_add,
    List.getLast?_append]
  congr 1
  cases (callTimes after n).getLast? with
  | some now => rfl
  | none => exact hlast

/-- INTERNAL: a number is to be reported only for the calls that are tracked. -/
theorem usageIn_untracked (history : List CounterInput) (n : ℤ)
    (hn : ∀ call : TrackedCall, call.nr.toInt ≠ n) : usageIn history n = .zero := by
  have hnone : callTimes history n = [] := by
    rw [callTimes, List.filterMap_eq_nil_iff]
    intro i _
    cases i with
    | call call now => simp [hn call]
    | query kzalloc left => rfl
  rw [usageIn, hnone]
  rfl

/-! ## The counters along a run -/

/-- INTERNAL: without a query the table is never made.
SOURCE: syscall2.c:28-34 -/
theorem final_without_query (run : List CounterInput) (hrun : ∀ i ∈ run, i.isQuery = false) :
    counterMachine.final none run = none := by
  induction run with
  | nil => rfl
  | cons i run ih =>
    rw [List.forall_mem_cons] at hrun
    obtain ⟨hi, hrun⟩ := hrun
    cases i with
    | call call now => exact ih hrun
    | query kzalloc left => cases hi

/-- INTERNAL: a step on a table that holds what is to be reported for the past.
SOURCE: syscall2.c:28-60 -/
theorem step_table (past : List CounterInput) (i : CounterInput) :
    (counterMachine.step (some (usageIn past)) i).1 = some (usageIn (past ++ [i])) := by
  cases i with
  | query kzalloc left => rw [usageIn_query]; rfl
  | call call now =>
    have hroom : ¬ call.nr.toInt ≥ MAX_SYS_CALLS := by cases call <;> decide
    simp only [counterMachine, trackSyscall, if_neg hroom]
    congr 1
    funext n
    rw [usageIn_call]
    by_cases hn : call.nr.toInt = n
    · subst hn
      rw [Function.update_self, if_pos rfl]
    · rw [Function.update_of_ne (Ne.symm hn), if_neg hn]

/-- INTERNAL: from then on the table holds what is to be reported for the history.
SOURCE: syscall2.c:28-60 -/
theorem final_table (past run : List CounterInput) :
    counterMachine.final (some (usageIn past)) run = some (usageIn (past ++ run)) := by
  induction run generalizing past with
  | nil => rw [Mealy.final_nil, List.append_nil]
  | cons i run ih =>
    rw [Mealy.final_cons, step_table, ih, List.append_assoc, List.singleton_append]

/-- INTERNAL: the table after a first query, and what that query and a later one answer.
SOURCE: syscall2.c:22-26, 47-60 -/
theorem first_query_step (left : ℕ) :
    (counterMachine.step none (.query true left)).1 = some (usageIn []) := rfl

/-- INTERNAL: a query with the table in place answers with what the table has. -/
theorem query_answer (past : List CounterInput) :
    (counterMachine.step (some (usageIn past)) (.query true 0)).2 =
      some ⟨0, (List.range MAX_SYS_CALLS).map (fun k : ℕ => usageIn past k)⟩ := rfl

/-- INTERNAL: the first query answers with zeros, whatever was called before it. -/
theorem first_query_answer :
    (counterMachine.step none (.query true 0)).2 =
      some ⟨0, (List.range MAX_SYS_CALLS).map (fun k : ℕ => usageIn [] k)⟩ := rfl

/-! ## Exact queries -/

/-- Every query of the run answers with the usage in the history before it, for all
numbers. -/
def QueriesExact (run : List CounterInput) : Prop :=
  ∀ before kzalloc left after, run = before ++ .query kzalloc left :: after →
    (counterMachine.step (counterMachine.final none before) (.query kzalloc left)).2 =
      some ⟨0, (List.range MAX_SYS_CALLS).map (fun k : ℕ => usageIn before k)⟩

/-- The part of a run before its first query: calls only. -/
def beforeFirstQuery (run : List CounterInput) : List CounterInput :=
  run.takeWhile (fun i => !i.isQuery)

/-- INTERNAL: what comes before the first query is calls only. -/
theorem beforeFirstQuery_calls (run : List CounterInput) :
    ∀ i ∈ beforeFirstQuery run, i.isQuery = false := by
  intro i hi
  simpa using List.mem_takeWhile_imp hi

/-- INTERNAL: a run without queries, or the first query of a run. -/
theorem first_query_cases (run : List CounterInput) :
    (∀ i ∈ run, i.isQuery = false) ∨
      ∃ kzalloc left after, run = beforeFirstQuery run ++ .query kzalloc left :: after := by
  induction run with
  | nil => simp
  | cons i run ih =>
    cases i with
    | query kzalloc left => exact Or.inr ⟨kzalloc, left, run, rfl⟩
    | call call now =>
      rcases ih with hnone | ⟨kzalloc, left, after, hrun⟩
      · exact Or.inl (List.forall_mem_cons.mpr ⟨rfl, hnone⟩)
      · exact Or.inr ⟨kzalloc, left, after, congrArg (List.cons (.call call now)) hrun⟩

/-- INTERNAL: a query of a run is its first one or comes after that. -/
theorem query_position {early before after rest : List CounterInput} {i j : CounterInput}
    (hearly : ∀ i ∈ early, i.isQuery = false) (hi : i.isQuery = true)
    (h : early ++ j :: rest = before ++ i :: after) :
    before = early ∨ ∃ mid, before = early ++ j :: mid := by
  rcases List.append_eq_append_iff.mp h with ⟨mid, hbefore, htail⟩ | ⟨mid, hmid, htail⟩
  · cases mid with
    | nil => exact Or.inl (by rw [hbefore, List.append_nil])
    | cons k mid =>
      rw [List.cons_append, List.cons.injEq] at htail
      exact Or.inr ⟨mid, by rw [hbefore, htail.1]⟩
  · cases mid with
    | nil => exact Or.inl (by rw [hmid, List.append_nil])
    | cons k mid =>
      -- then the query would be one of the calls before the first query
      rw [List.cons_append, List.cons.injEq] at htail
      have hmem : i ∈ early := by
        rw [hmid, htail.1]
        exact List.mem_append_right before List.mem_cons_self
      rw [hearly i hmem] at hi
      cases hi

/-- INTERNAL: short of `2^64` calls, nothing is to be reported only when nothing was called. -/
theorem usageIn_eq_zero_iff (history : List CounterInput) (hcalls : ∀ i ∈ history, i.isQuery = false)
    (hlength : history.length < 2 ^ 64) :
    (∀ call : TrackedCall, usageIn history call.nr.toInt = .zero) ↔ history = [] := by
  constructor
  · intro hzero
    cases history with
    | nil => rfl
    | cons i history =>
      cases i with
      | query kzalloc left =>
        exact absurd (hcalls _ List.mem_cons_self) (by simp [CounterInput.isQuery])
      | call call now =>
        have hcount := congrArg (fun u => u.count.toNat) (hzero call)
        have htimes : callTimes (.call call now :: history) call.nr.toInt =
            now :: callTimes history call.nr.toInt := by
          simp [callTimes]
        have hshort : (callTimes history call.nr.toInt).length ≤ history.length :=
          List.length_filterMap_le _ _
        simp only [usageIn, htimes, List.length_cons, BitVec.toNat_ofNat, SyscallUsage.zero] at hcount
        rw [List.length_cons] at hlength
        rw [Nat.mod_eq_of_lt (by omega)] at hcount
        exact absurd hcount (by simp)
  · rintro rfl call
    rfl

section FirstQuery

variable {early rest : List CounterInput} (hearly : ∀ i ∈ early, i.isQuery = false)

include hearly

/-- INTERNAL: the first query reports zeros, so it is exact only if that is the usage.
SOURCE: syscall2.c:47-60 -/
theorem early_usage_of_exact (hexact : QueriesExact (early ++ .query true 0 :: rest))
    (call : TrackedCall) : usageIn early call.nr.toInt = .zero := by
  have hfirst := hexact early true 0 rest rfl
  rw [final_without_query early hearly, first_query_answer, Option.some.injEq,
    UsageReply.mk.injEq] at hfirst
  obtain ⟨-, hlist⟩ := hfirst
  have hlt : call.nr.toNat < MAX_SYS_CALLS := by cases call <;> decide
  have hcell := List.map_inj_left.mp hlist call.nr.toNat (List.mem_range.mpr hlt)
  have hnr : ((call.nr.toNat : ℕ) : ℤ) = call.nr.toInt := by cases call <;> rfl
  rw [hnr] at hcell
  exact hcell.symm

/-- INTERNAL: the table after the first query and some more inputs is the usage since then.
SOURCE: syscall2.c:28-60 -/
theorem final_after_first_query (mid : List CounterInput) :
    counterMachine.final none (early ++ .query true 0 :: mid) = some (usageIn mid) := by
  rw [Mealy.final_append, final_without_query early hearly, Mealy.final_cons, first_query_step,
    final_table, List.nil_append]

/-- INTERNAL: the answers are exact when no tracked call was made before the first query. -/
theorem exact_of_early_usage
    (hsucceeds : ∀ kzalloc left, .query kzalloc left ∈ early ++ .query true 0 :: rest →
      kzalloc = true ∧ left = 0)
    (hzero : ∀ call : TrackedCall, usageIn early call.nr.toInt = .zero) :
    QueriesExact (early ++ .query true 0 :: rest) := by
  intro before kzalloc left after hrun
  obtain ⟨rfl, rfl⟩ := hsucceeds kzalloc left (by rw [hrun]; simp)
  have hforget : ∀ n, usageIn early n = .zero := by
    intro n
    by_cases hn : ∃ call : TrackedCall, call.nr.toInt = n
    · obtain ⟨call, rfl⟩ := hn
      exact hzero call
    · push Not at hn
      exact usageIn_untracked _ n hn
  rcases query_position hearly rfl hrun with rfl | ⟨mid, rfl⟩
  · have hnothing : usageIn before = usageIn [] := funext hforget
    rw [final_without_query before hearly, first_query_answer, hnothing]
  · have hsince : usageIn (early ++ .query true 0 :: mid) = usageIn mid := by
      rw [usageIn_forget _ _ hforget, ← List.singleton_append]
      exact usageIn_forget _ _ (fun n => rfl)
    rw [hsince, final_after_first_query hearly, query_answer]

end FirstQuery

/-- MAIN: **which runs are counted exactly.** In a run whose allocations and copies
succeed, every query reports, for each tracked number, the calls since the start of the
run and the time of the last one, and zero for the other numbers, exactly when there is no
query or there is nothing to report for the calls before the first query. For runs shorter
than `2^64` that means: no tracked call is made before the first query. After the first
query every call is counted.
SOURCE: syscall2.c:18-60 -/
theorem queriesExact_iff (run : List CounterInput)
    (hsucceeds : ∀ kzalloc left, .query kzalloc left ∈ run → kzalloc = true ∧ left = 0) :
    (QueriesExact run ↔ (∀ i ∈ run, i.isQuery = false) ∨
        ∀ call : TrackedCall, usageIn (beforeFirstQuery run) call.nr.toInt = .zero) ∧
      (run.length < 2 ^ 64 →
        (QueriesExact run ↔ (∀ i ∈ run, i.isQuery = false) ∨ beforeFirstQuery run = [])) := by
  have hcalls := beforeFirstQuery_calls run
  have hiff : QueriesExact run ↔ (∀ i ∈ run, i.isQuery = false) ∨
      ∀ call : TrackedCall, usageIn (beforeFirstQuery run) call.nr.toInt = .zero := by
    rcases first_query_cases run with hnone | ⟨kzalloc, left, rest, hrun⟩
    · refine iff_of_true ?_ (Or.inl hnone)
      intro before kzalloc left after hrun
      have hquery := hnone (.query kzalloc left) (by rw [hrun]; simp)
      cases hquery
    obtain ⟨rfl, rfl⟩ := hsucceeds kzalloc left (by rw [hrun]; simp)
    have hsome : ¬ ∀ i ∈ run, i.isQuery = false := by
      intro hnone
      have hquery := hnone (.query true 0) (by rw [hrun]; simp)
      cases hquery
    simp only [hsome, false_or]
    constructor
    · intro hexact
      rw [hrun] at hexact
      exact early_usage_of_exact hcalls hexact
    · intro hzero
      rw [hrun] at hsucceeds ⊢
      exact exact_of_early_usage hcalls hsucceeds hzero
  refine ⟨hiff, ?_⟩
  intro hlength
  rw [hiff, usageIn_eq_zero_iff _ hcalls
    ((List.takeWhile_sublist _).length_le.trans_lt hlength)]

/-- INTERNAL: two calls of `write`, and the only query of the run. -/
theorem queries_lose_early_calls :
    let run : List CounterInput :=
      [.call .sysWrite ⟨10, 0⟩, .call .sysWrite ⟨20, 0⟩, .query true 0]
    (counterMachine.outputs none run).getLast? =
        some (some ⟨0, (List.range MAX_SYS_CALLS).map (fun _ => SyscallUsage.zero)⟩) ∧
      usageIn (run.take 2) 1 = ⟨2, ⟨20, 0⟩⟩ := by
  refine ⟨rfl, by decide⟩

/-- INTERNAL: a run that begins with a query meets the assumptions. -/
theorem queriesExact_query_first :
    QueriesExact [.query true 0, .call .sysWrite ⟨10, 0⟩, .query true 0] :=
  ((queriesExact_iff [.query true 0, .call .sysWrite ⟨10, 0⟩, .query true 0] (by simp)).2
    (by decide)).mpr (Or.inr rfl)

end UsacKernel.Analysis
