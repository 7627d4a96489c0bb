import UsacKernel.Computation.Mealy

/-!
# Calls that test and then act

A call on shared state that is made in two atomic steps: a test, which may refuse it, and
the action. Between the two, other calls can take their own steps. Any number of calls
are under way at once, one in each slot.

`schedule_bounded` is the rule for a bound on the use of a resource: it holds at the end
of every schedule in which each accepted test had room for the calls that were accepted
before it and had not acted yet.
-/

set_option autoImplicit false

namespace UsacKernel.Computation

/-- A call in two steps; `test` is `some` when it refuses. -/
structure TestThenAct (σ ι ο : Type) where
  test : ι → σ → Option ο
  act : ι → σ → σ × ο

namespace TestThenAct

variable {κ σ ι ο : Type} [DecidableEq κ]

inductive Move (κ ι : Type) where
  | test (k : κ) (i : ι)
  | act (k : κ)

/-- The shared state, and for each slot the call that was accepted and has not acted. -/
structure Config (κ σ ι : Type) where
  shared : σ
  pending : κ → Option ι

def start (s : σ) : Config κ σ ι := ⟨s, fun _ => none⟩

/-- Both steps with nothing in between. -/
def call (A : TestThenAct σ ι ο) (i : ι) (s : σ) : σ × ο :=
  match A.test i s with
  | some o => (s, o)
  | none => A.act i s

/-- The machine whose inputs are the moves of a schedule; a move that its slot cannot
make is skipped. -/
def schedule (A : TestThenAct σ ι ο) : Mealy (Config κ σ ι) (Move κ ι) (Option (κ × ο)) where
  step c m :=
    match m with
    | .test k i =>
      match c.pending k with
      | some _ => (c, none)
      | none =>
        match A.test i c.shared with
        | some o => (c, some (k, o))
        | none => ({ c with pending := Function.update c.pending k (some i) }, none)
    | .act k =>
      match c.pending k with
      | none => (c, none)
      | some i =>
        (⟨(A.act i c.shared).1, Function.update c.pending k none⟩,
          some (k, (A.act i c.shared).2))

/-- INTERNAL: a test and its action with nothing between them are one call. -/
theorem schedule_call (A : TestThenAct σ ι ο) (c : Config κ σ ι) (k : κ) (i : ι)
    (hk : c.pending k = none) :
    A.schedule.final c [.test k i, .act k] = { c with shared := (A.call i c.shared).1 } := by
  cases ht : A.test i c.shared with
  | some o => simp [schedule, call, hk, ht]
  | none =>
    have hback : Function.update c.pending k none = c.pending := by
      rw [← hk, Function.update_eq_self]
    simp [schedule, call, hk, ht, hback]

/-! ## Bounded use -/

variable [Fintype κ]

/-- What the accepted calls that have not acted will use. -/
def pendingCost (cost : ι → ℕ) (c : Config κ σ ι) : ℕ :=
  ∑ k, (c.pending k).elim 0 cost

omit [DecidableEq κ] in
/-- INTERNAL: nothing is pending at the start. -/
@[simp] theorem pendingCost_start (cost : ι → ℕ) (s : σ) :
    pendingCost (κ := κ) cost (start s) = 0 := by
  simp [pendingCost, start]

/-- INTERNAL: a slot that is filled adds its cost to what is pending. -/
theorem pendingCost_fill (cost : ι → ℕ) (c : Config κ σ ι) (k : κ) (i : ι)
    (hk : c.pending k = none) :
    pendingCost cost { c with pending := Function.update c.pending k (some i) } =
      pendingCost cost c + cost i := by
  unfold pendingCost
  rw [← Finset.add_sum_erase _ _ (Finset.mem_univ k),
    ← Finset.add_sum_erase Finset.univ (fun k => (c.pending k).elim 0 cost) (Finset.mem_univ k)]
  have hrest : ∑ x ∈ Finset.univ.erase k, (Function.update c.pending k (some i) x).elim 0 cost =
      ∑ x ∈ Finset.univ.erase k, (c.pending x).elim 0 cost := by
    refine Finset.sum_congr rfl fun x hx => ?_
    rw [Function.update_of_ne (Finset.ne_of_mem_erase hx)]
  simp only [hrest, Function.update_self, hk, Option.elim_some, Option.elim_none]
  omega

/-- INTERNAL: a slot that is cleared takes its cost from what is pending. -/
theorem pendingCost_clear (cost : ι → ℕ) (c : Config κ σ ι) (k : κ) (i : ι)
    (hk : c.pending k = some i) (s : σ) :
    pendingCost cost ⟨s, Function.update c.pending k none⟩ + cost i = pendingCost cost c := by
  have hfill := pendingCost_fill cost ⟨s, Function.update c.pending k none⟩ k i (by simp)
  simp only [Function.update_idem] at hfill
  rw [← hfill, ← hk, Function.update_eq_self]
  rfl

/-- INTERNAL: the bound rule. An action uses at most its cost; an accepted test of a free slot has
found room for its own cost next to what is used and what is pending. -/
theorem schedule_bounded (A : TestThenAct σ ι ο) (usage : σ → ℕ) (cost : ι → ℕ) (bound : ℕ)
    (Inv : σ → Prop) (Good : ι → Prop) (P : Config κ σ ι → Move κ ι → Prop)
    (hgood : ∀ c k i, P c (.test k i) → Good i)
    (hact : ∀ c k i, P c (.act k) → c.pending k = some i → Inv c.shared → Good i →
      Inv (A.act i c.shared).1 ∧ usage (A.act i c.shared).1 ≤ usage c.shared + cost i)
    (hroom : ∀ c k i, P c (.test k i) → c.pending k = none → A.test i c.shared = none →
      Inv c.shared → usage c.shared + pendingCost cost c ≤ bound →
        usage c.shared + pendingCost cost c + cost i ≤ bound)
    (s : σ) (hs : Inv s) (husage : usage s ≤ bound) (ms : List (Move κ ι))
    (hms : A.schedule.Along P (start s) ms) :
    Inv (A.schedule.final (start s) ms).shared ∧
      usage (A.schedule.final (start s) ms).shared ≤ bound := by
  have hinv := Mealy.final_inv_along A.schedule P
    (fun c => Inv c.shared ∧ (∀ k i, c.pending k = some i → Good i) ∧
      usage c.shared + pendingCost cost c ≤ bound) ?_ (start s) ?_ ms hms
  · exact ⟨hinv.1, (Nat.le_add_right _ _).trans hinv.2.2⟩
  · -- usage and pending cost together: a test moves its cost in, an action moves it over
    rintro c m ⟨hI, hG, hb⟩ hP
    cases m with
    | test k i =>
      cases hk : c.pending k with
      | some j => simpa only [schedule, hk] using ⟨hI, hG, hb⟩
      | none =>
        cases ht : A.test i c.shared with
        | some o => simpa only [schedule, hk, ht] using ⟨hI, hG, hb⟩
        | none =>
          simp only [schedule, hk, ht]
          refine ⟨hI, ?_, ?_⟩
          · intro x j hx
            by_cases hxk : x = k
            · subst hxk
              rw [Function.update_self, Option.some.injEq] at hx
              exact hx ▸ hgood c x i hP
            · rw [Function.update_of_ne hxk] at hx
              exact hG x j hx
          · rw [pendingCost_fill cost c k i hk]
            have hfits := hroom c k i hP hk ht hI hb
            omega
    | act k =>
      cases hk : c.pending k with
      | none => simpa only [schedule, hk] using ⟨hI, hG, hb⟩
      | some i =>
        obtain ⟨hI', huse⟩ := hact c k i hP hk hI (hG k i hk)
        have hclear := pendingCost_clear cost c k i hk (A.act i c.shared).1
        simp only [schedule, hk]
        refine ⟨hI', ?_, by omega⟩
        intro x j hx
        by_cases hxk : x = k
        · subst hxk
          simp at hx
        · rw [Function.update_of_ne hxk] at hx
          exact hG x j hx
  · exact ⟨hs, by simp [start], by rw [pendingCost_start]; exact husage⟩

end TestThenAct

end UsacKernel.Computation
