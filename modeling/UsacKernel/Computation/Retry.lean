import Mathlib

/-!
# Retry loops

A loop whose body either answers or goes back to its label with a new state: the shape of a
`goto retry`. The loop is run with a bound on the number of attempts, and `retry_spec` is the
rule for it: an invariant of the label and a measure that every retry decreases give an answer
within the bound.
-/

set_option autoImplicit false

namespace UsacKernel.Computation

/-- One attempt: back to the label, or an answer. -/
inductive Attempt (σ ρ : Type) where
  | again (s : σ)
  | done (r : ρ)

variable {σ ρ : Type}

/-- The loop, with at most `fuel` attempts. -/
def retry (body : σ → Attempt σ ρ) : ℕ → σ → Option ρ
  | 0, _ => none
  | fuel + 1, s =>
    match body s with
    | .again s' => retry body fuel s'
    | .done r => some r

/-- What an attempt must establish: the invariant and a smaller measure, or the result. -/
def Attempt.Meets (inv : σ → Prop) (measure : σ → ℕ) (post : ρ → Prop) (bound : ℕ) :
    Attempt σ ρ → Prop
  | .again s => inv s ∧ measure s < bound
  | .done r => post r

/-- INTERNAL: enough attempts for the measure give an answer, with the postcondition. -/
theorem retry_spec {body : σ → Attempt σ ρ} {inv : σ → Prop} {measure : σ → ℕ} {post : ρ → Prop}
    (hbody : ∀ s, inv s → (body s).Meets inv measure post (measure s)) :
    ∀ (fuel : ℕ) (s : σ), inv s → measure s < fuel → ∃ r, retry body fuel s = some r ∧ post r := by
  intro fuel
  induction fuel with
  | zero =>
    intro s _ hfuel
    exact absurd hfuel (Nat.not_lt_zero _)
  | succ fuel ih =>
    intro s hs hfuel
    have hmeets := hbody s hs
    unfold retry
    cases hb : body s with
    | again s' =>
      rw [hb] at hmeets
      exact ih s' hmeets.1 (by have := hmeets.2; omega)
    | done r =>
      rw [hb] at hmeets
      exact ⟨r, rfl, hmeets⟩

/-- INTERNAL: an answer of the loop is the answer of one of its attempts. -/
theorem retry_eq_some {body : σ → Attempt σ ρ} {fuel : ℕ} {s : σ} {r : ρ}
    (h : retry body fuel s = some r) : ∃ s', body s' = .done r := by
  induction fuel generalizing s with
  | zero => cases h
  | succ fuel ih =>
    unfold retry at h
    cases hb : body s with
    | again s' =>
      rw [hb] at h
      exact ih h
    | done r' =>
      rw [hb] at h
      cases h
      exact ⟨s, hb⟩

/-- INTERNAL: a measure that counts what is still ahead: it decreases when one counted entry
falls behind and none comes back. -/
theorem countP_lt_countP {α : Type} {p q : α → Bool} {l : List α} {x : α} (hx : x ∈ l)
    (hq : q x = true) (hp : p x = false) (hpq : ∀ y ∈ l, p y = true → q y = true) :
    l.countP p < l.countP q := by
  obtain ⟨before, after, rfl⟩ := List.append_of_mem hx
  have hbefore : before.countP p ≤ before.countP q :=
    List.countP_mono_left (fun y hy => hpq y (List.mem_append_left _ hy))
  have hafter : after.countP p ≤ after.countP q :=
    List.countP_mono_left
      (fun y hy => hpq y (List.mem_append_right _ (List.mem_cons_of_mem x hy)))
  simp only [List.countP_append, List.countP_cons, hq, hp, if_true, Bool.false_eq_true, if_false]
  omega

end UsacKernel.Computation
