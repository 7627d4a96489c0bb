import UsacKernel.Model.MemoryLimit

/-!
# Calls that leave no trace

A system call on the registry that returns an error, that is made without
`CAP_SYS_ADMIN`, or that only reads, leaves `memory_list` exactly as it was, with its
entries in the same order. Such calls can be struck out of any run without changing what
the other calls return and deliver, or the list at the end.
-/

set_option autoImplicit false

namespace UsacKernel.Analysis

open UsacKernel.Computation UsacKernel.Model

def RegistryCall.readOnly : RegistryCall → Bool
  | .get _ => true
  | _ => false

/-- The call failed, was unprivileged, or was read-only. -/
def LeavesNoTrace (i : RegistryCall × Answers) (reply : RegistryReply) : Prop :=
  reply.ret ≠ 0 ∨ i.2.capable = false ∨ RegistryCall.readOnly i.1 = true

instance (i : RegistryCall × Answers) (reply : RegistryReply) :
    Decidable (LeavesNoTrace i reply) :=
  inferInstanceAs (Decidable (_ ∨ _ ∨ _))

/-- INTERNAL: past the checks the caller has the capability, unless the call is `get`.
SOURCE: crudmemlimit.c:84-86, 189-191, 223-225 -/
theorem capable_of_enter (call : RegistryCall) (a : Answers)
    (henter : registryObject.enter (call, a) = none) :
    a.capable = true ∨ RegistryCall.readOnly call = true := by
  by_contra hnot
  obtain ⟨hcap, hget⟩ := not_or.mp hnot
  cases call with
  | get maxEntries => exact hget rfl
  | add pid limit =>
    simp only [registryObject, addChecks, hcap, Option.map_eq_none_iff] at henter
    split_ifs at henter
    simp_all
  | update pid limit =>
    simp only [registryObject, updateChecks, hcap, Option.map_eq_none_iff] at henter
    split_ifs at henter
    simp_all
  | remove pid =>
    simp only [registryObject, removeChecks, hcap, Option.map_eq_none_iff] at henter
    split_ifs at henter
    simp_all

/-- INTERNAL: under the lock, a code other than `0` means the list was not changed.
SOURCE: crudmemlimit.c:95-116, 194-205, 228-240 -/
theorem locked_unchanged (call : RegistryCall) (a : Answers) (l : MemoryList)
    (h : (registryObject.leave (call, a) (registryObject.critical (call, a) l).1).ret ≠ 0 ∨
      RegistryCall.readOnly call = true) :
    (registryObject.critical (call, a) l).2 = l := by
  cases call with
  | get maxEntries => rfl
  | add pid limit =>
    simp only [registryObject, addLocked, RegistryCall.readOnly, Prod.map] at h ⊢
    split_ifs at h ⊢ <;> simp_all [RegistryReply.ret]
  | update pid limit =>
    simp only [registryObject, updateLocked_eq, RegistryCall.readOnly, Prod.map] at h ⊢
    split_ifs at h ⊢ <;> simp_all [RegistryReply.ret]
  | remove pid =>
    simp only [registryObject, removeLocked_eq, RegistryCall.readOnly, Prod.map] at h ⊢
    split_ifs at h ⊢ <;> simp_all [RegistryReply.ret]

/-- INTERNAL: a call that failed, was unprivileged or was read-only left the list as it
was. -/
theorem call_unchanged (l : MemoryList) (i : RegistryCall × Answers)
    (h : LeavesNoTrace i (registryObject.calls.step l i).2) :
    (registryObject.calls.step l i).1 = l := by
  obtain ⟨call, a⟩ := i
  simp only [LockedObject.calls, LockedObject.call] at h ⊢
  cases henter : registryObject.enter (call, a) with
  | some reply => rfl
  | none =>
    rw [henter] at h
    apply locked_unchanged
    rcases h with hret | hcap | hget
    · exact Or.inl hret
    · rcases capable_of_enter call a henter with hcap' | hget
      · rw [hcap] at hcap'
        cases hcap'
      · exact Or.inr hget
    · exact Or.inr hget

/-- MAIN: **failed, unprivileged and read-only calls leave no trace.** In a run of
`add`, `get`, `update` and `remove` calls, each with its own capability, task lookup,
allocation and user-copy outcomes, strike out any of the calls that returned a nonzero
code, were made without the capability, or were `get`. The calls that stay return the
same codes and deliver the same entries, and the list at the end is the same list.
SOURCE: crudmemlimit.c:72-241 -/
theorem registry_run_erase (l : MemoryList) (run : List (Bool × (RegistryCall × Answers)))
    (h : Mealy.Droppable registryObject.calls LeavesNoTrace l run) :
    registryObject.calls.outputs l (Mealy.keptOf run) =
        registryObject.calls.keptOutputs l run ∧
      registryObject.calls.final l (Mealy.keptOf run) =
        registryObject.calls.final l (Mealy.allOf run) := by
  obtain ⟨hfin, hout⟩ := Mealy.run_erase registryObject.calls LeavesNoTrace call_unchanged l run h
  exact ⟨hout, hfin⟩

/-- A caller with or without the capability, for whom every task exists and every
allocation and copy succeeds. -/
def plainAnswers (capable : Bool) : Answers :=
  ⟨capable, fun pid => some ⟨pid, pid, [], initPidNs, none⟩, true, 0, false⟩

/-- A run in which a duplicate `add`, an unprivileged `remove` and a `get` are struck
out. -/
def erasableRun : List (Bool × (RegistryCall × Answers)) :=
  [(true, .add 7 4096, plainAnswers true), (false, .add 7 1, plainAnswers true),
    (false, .remove 7, plainAnswers false), (false, .get 2, plainAnswers true),
    (true, .update 7 8192, plainAnswers true), (true, .get 2, plainAnswers false)]

/-- INTERNAL: a run with calls that can be left out meets the assumptions. -/
theorem registry_run_erase_erasableRun :
    registryObject.calls.outputs [] (Mealy.keptOf erasableRun) =
        registryObject.calls.keptOutputs [] erasableRun ∧
      registryObject.calls.final [] (Mealy.keptOf erasableRun) =
        registryObject.calls.final [] (Mealy.allOf erasableRun) :=
  registry_run_erase [] erasableRun (by decide)

end UsacKernel.Analysis
