import UsacKernel.Computation.Mealy

/-!
# Objects guarded by one lock

A call on such an object runs some code before it takes the lock (and may return from
there), a critical section on the guarded state, and some code after it has released
the lock. Any number of tasks call the object; at the granularity of critical sections
a schedule is a list of events, and every list of events is a schedule: an event that
its task cannot make is skipped.

`schedule_simulation` is the rule for two such objects: when the critical sections
simulate each other, every schedule of the first is answered as the same schedule of
the second, in which the calls take effect in the order in which the lock was taken.
`schedule_inv` is the rule for one: what its critical sections keep, its schedules keep.
-/

set_option autoImplicit false

namespace UsacKernel.Computation

/-- An object guarded by one lock: `ι` its calls, `σ` the guarded state, `ρ` what a
critical section hands to the code after it, `ο` the answers. -/
structure LockedObject (σ ι ρ ο : Type) where
  /-- The code before the lock; `some` is a return from there. -/
  enter : ι → Option ο
  /-- The code between lock and unlock. -/
  critical : ι → σ → ρ × σ
  /-- The code after the unlock. -/
  leave : ι → ρ → ο

inductive Phase (ι ρ : Type) where
  | idle
  | waiting (i : ι)
  | leaving (i : ι) (r : ρ)

inductive Event (κ ι : Type) where
  | call (t : κ) (i : ι)
  | critical (t : κ)
  | finish (t : κ)

structure Config (κ σ ι ρ : Type) where
  shared : σ
  phase : κ → Phase ι ρ

namespace LockedObject

variable {κ σ τ ι ρ ρ₂ ο ο₂ : Type} [DecidableEq κ]

/-- A whole call with nothing in between. -/
def call (A : LockedObject σ ι ρ ο) (i : ι) (s : σ) : σ × ο :=
  match A.enter i with
  | some o => (s, o)
  | none => ((A.critical i s).2, A.leave i (A.critical i s).1)

omit [DecidableEq κ] in
/-- INTERNAL: a call returns before the lock and leaves the state, or makes its critical
section. -/
theorem call_cases (A : LockedObject σ ι ρ ο) (i : ι) (s : σ) :
    (∃ o, A.enter i = some o ∧ A.call i s = (s, o)) ∨
      A.enter i = none ∧ A.call i s = ((A.critical i s).2, A.leave i (A.critical i s).1) := by
  unfold call
  cases hi : A.enter i with
  | some o => exact Or.inl ⟨o, rfl, rfl⟩
  | none => exact Or.inr ⟨rfl, rfl⟩

/-- The object as a machine whose inputs are whole calls. -/
def calls (A : LockedObject σ ι ρ ο) : Mealy σ ι ο := ⟨fun s i => A.call i s⟩

/-- The object as a machine whose inputs are the moves of a schedule. -/
def schedule (A : LockedObject σ ι ρ ο) : Mealy (Config κ σ ι ρ) (Event κ ι) (Option (κ × ο)) where
  step c e :=
    match e with
    | .call t i =>
      match c.phase t with
      | .idle =>
        match A.enter i with
        | some o => (c, some (t, o))
        | none => ({ c with phase := Function.update c.phase t (.waiting i) }, none)
      | _ => (c, none)
    | .critical t =>
      match c.phase t with
      | .waiting i =>
        (⟨(A.critical i c.shared).2,
          Function.update c.phase t (.leaving i (A.critical i c.shared).1)⟩, none)
      | _ => (c, none)
    | .finish t =>
      match c.phase t with
      | .leaving i r =>
        ({ c with phase := Function.update c.phase t .idle }, some (t, A.leave i r))
      | _ => (c, none)

def start (s : σ) : Config κ σ ι ρ := ⟨s, fun _ => .idle⟩

/-- Two phases of the same task in two objects: the same call in the same place, and
after the critical section the same answer to come. -/
inductive PhaseRel (A : LockedObject σ ι ρ ο) (B : LockedObject τ ι ρ₂ ο₂) (obs : ο → ο₂) :
    Phase ι ρ → Phase ι ρ₂ → Prop where
  | idle : PhaseRel A B obs .idle .idle
  | waiting (i : ι) (h : A.enter i = none) : PhaseRel A B obs (.waiting i) (.waiting i)
  | leaving (i : ι) (r : ρ) (r₂ : ρ₂) (h : obs (A.leave i r) = B.leave i r₂) :
    PhaseRel A B obs (.leaving i r) (.leaving i r₂)

/-- Guarded states related by `R`, and every task in related phases. -/
structure ConfigRel (A : LockedObject σ ι ρ ο) (B : LockedObject τ ι ρ₂ ο₂) (obs : ο → ο₂)
    (R : σ → τ → Prop) (c : Config κ σ ι ρ) (d : Config κ τ ι ρ₂) : Prop where
  shared : R c.shared d.shared
  phase : ∀ t, PhaseRel A B obs (c.phase t) (d.phase t)

omit [DecidableEq κ] in
/-- INTERNAL: the configurations with nobody inside are related when the shared states are. -/
theorem ConfigRel.start (A : LockedObject σ ι ρ ο) (B : LockedObject τ ι ρ₂ ο₂) (obs : ο → ο₂)
    (R : σ → τ → Prop) (s : σ) (t : τ) (h : R s t) :
    ConfigRel (κ := κ) A B obs R (start s) (start t) :=
  ⟨h, fun _ => .idle⟩

/-- INTERNAL: moving one thread to related phases keeps the phases of all threads related. -/
theorem PhaseRel.update {A : LockedObject σ ι ρ ο} {B : LockedObject τ ι ρ₂ ο₂} {obs : ο → ο₂}
    {p : κ → Phase ι ρ} {q : κ → Phase ι ρ₂} (h : ∀ t, PhaseRel A B obs (p t) (q t))
    (t : κ) {x : Phase ι ρ} {y : Phase ι ρ₂} (hxy : PhaseRel A B obs x y) (u : κ) :
    PhaseRel A B obs (Function.update p t x u) (Function.update q t y u) := by
  by_cases hu : u = t
  · subst hu
    simpa using hxy
  · simpa [hu] using h u

/-- INTERNAL: one move of a schedule, when entering agrees and the critical sections
simulate each other. -/
theorem schedule_step (A : LockedObject σ ι ρ ο) (B : LockedObject τ ι ρ₂ ο₂) (obs : ο → ο₂)
    (R : σ → τ → Prop) (henter : ∀ i, (A.enter i).map obs = B.enter i)
    (hcrit : ∀ i s t, A.enter i = none → R s t →
      R (A.critical i s).2 (B.critical i t).2 ∧
        obs (A.leave i (A.critical i s).1) = B.leave i (B.critical i t).1)
    (c : Config κ σ ι ρ) (d : Config κ τ ι ρ₂) (e : Event κ ι) (h : ConfigRel A B obs R c d) :
    ConfigRel A B obs R (A.schedule.step c e).1 (B.schedule.step d e).1 ∧
      (A.schedule.step c e).2.map (Prod.map id obs) = (B.schedule.step d e).2 := by
  obtain ⟨hs, hp⟩ := h
  -- the two phases of the task that moves determine each other
  cases e with
  | call t i =>
    have ht := hp t
    generalize hc : c.phase t = p at ht
    generalize hd : d.phase t = q at ht
    cases ht with
    | idle =>
      have he := henter i
      cases hA : A.enter i with
      | some o =>
        rw [hA] at he
        simp only [schedule, hc, hd, hA, ← he, Option.map_some]
        exact ⟨⟨hs, hp⟩, rfl⟩
      | none =>
        rw [hA] at he
        simp only [schedule, hc, hd, hA, ← he, Option.map_none]
        exact ⟨⟨hs, PhaseRel.update hp t (.waiting i hA)⟩, trivial⟩
    | waiting | leaving =>
      simp only [schedule, hc, hd]
      exact ⟨⟨hs, hp⟩, rfl⟩
  | critical t =>
    have ht := hp t
    generalize hc : c.phase t = p at ht
    generalize hd : d.phase t = q at ht
    cases ht with
    | waiting i hA =>
      obtain ⟨hR, ho⟩ := hcrit i c.shared d.shared hA hs
      simp only [schedule, hc, hd]
      exact ⟨⟨hR, PhaseRel.update hp t (.leaving i _ _ ho)⟩, rfl⟩
    | idle | leaving =>
      simp only [schedule, hc, hd]
      exact ⟨⟨hs, hp⟩, rfl⟩
  | finish t =>
    have ht := hp t
    generalize hc : c.phase t = p at ht
    generalize hd : d.phase t = q at ht
    cases ht with
    | leaving i r r₂ ho =>
      simp only [schedule, hc, hd]
      exact ⟨⟨hs, PhaseRel.update hp t .idle⟩, by simp [ho]⟩
    | idle | waiting =>
      simp only [schedule, hc, hd]
      exact ⟨⟨hs, hp⟩, rfl⟩

/-- INTERNAL: related critical sections and equal checks on entry give related shared states and
equal observations after every schedule. -/
theorem schedule_simulation (A : LockedObject σ ι ρ ο) (B : LockedObject τ ι ρ₂ ο₂)
    (obs : ο → ο₂) (R : σ → τ → Prop) (henter : ∀ i, (A.enter i).map obs = B.enter i)
    (hcrit : ∀ i s t, A.enter i = none → R s t →
      R (A.critical i s).2 (B.critical i t).2 ∧
        obs (A.leave i (A.critical i s).1) = B.leave i (B.critical i t).1)
    (s : σ) (t : τ) (h : R s t) (es : List (Event κ ι)) :
    R (A.schedule.final (start s) es).shared (B.schedule.final (start t) es).shared ∧
      (A.schedule.outputs (start s) es).map (Option.map (Prod.map id obs)) =
        B.schedule.outputs (start t) es := by
  obtain ⟨hfin, hout⟩ := Mealy.outputs_simulation A.schedule B.schedule
    (Option.map (Prod.map id obs)) (ConfigRel A B obs R)
    (fun c d e => schedule_step A B obs R henter hcrit c d e)
    (start s) (start t) (ConfigRel.start A B obs R s t h) es
  exact ⟨hfin.shared, hout⟩

/-- INTERNAL: the guarded state changes in critical sections only. -/
theorem schedule_shared (A : LockedObject σ ι ρ ο) (c : Config κ σ ι ρ) (e : Event κ ι) :
    (A.schedule.step c e).1.shared = c.shared ∨
      ∃ t i, e = .critical t ∧ c.phase t = .waiting i ∧
        (A.schedule.step c e).1.shared = (A.critical i c.shared).2 := by
  cases e with
  | call t i =>
    left
    simp only [schedule]
    split
    · split <;> rfl
    · rfl
  | critical t =>
    cases hphase : c.phase t with
    | waiting i =>
      right
      refine ⟨t, i, rfl, hphase, ?_⟩
      simp only [schedule, hphase]
    | idle | leaving =>
      left
      simp only [schedule, hphase]
  | finish t =>
    left
    simp only [schedule]
    split <;> rfl

/-- Every call that waits for the lock is in `P` and has come past the code before it. -/
def Entered (A : LockedObject σ ι ρ ο) (P : ι → Prop) (c : Config κ σ ι ρ) : Prop :=
  ∀ t i, c.phase t = .waiting i → P i ∧ A.enter i = none

omit [DecidableEq κ] in
/-- INTERNAL: nobody waits at the start. -/
theorem Entered.start (A : LockedObject σ ι ρ ο) (P : ι → Prop) (s : σ) :
    A.Entered P (start s : Config κ σ ι ρ) := by
  intro t i hwaiting
  cases hwaiting

/-- INTERNAL: a thread may move to any phase, provided that it only waits with a call it has
entered. -/
theorem Entered.update {A : LockedObject σ ι ρ ο} {P : ι → Prop} {c : Config κ σ ι ρ}
    (h : A.Entered P c) (s : σ) (t : κ) (p : Phase ι ρ)
    (hp : ∀ i, p = .waiting i → P i ∧ A.enter i = none) :
    A.Entered P (⟨s, Function.update c.phase t p⟩ : Config κ σ ι ρ) := by
  intro u i hu
  by_cases hut : u = t
  · subst hut
    simp only [Function.update_self] at hu
    exact hp i hu
  · simp only [Function.update_of_ne hut] at hu
    exact h u i hu

/-- INTERNAL: an event keeps it that whoever waits has passed the checks on entry. -/
theorem Entered.step {A : LockedObject σ ι ρ ο} {P : ι → Prop} {c : Config κ σ ι ρ}
    (h : A.Entered P c) (e : Event κ ι) (he : ∀ t i, e = .call t i → P i) :
    A.Entered P (A.schedule.step c e).1 := by
  cases e with
  | call t i =>
    simp only [schedule]
    split
    · split
      · exact h
      · rename_i henter
        refine h.update c.shared t _ ?_
        rintro j ⟨⟩
        exact ⟨he t i rfl, henter⟩
    · exact h
  | critical t =>
    simp only [schedule]
    split
    · exact h.update _ t _ (fun j hj => nomatch hj)
    · exact h
  | finish t =>
    simp only [schedule]
    split
    · exact h.update _ t _ (fun j hj => nomatch hj)
    · exact h

/-- INTERNAL: the invariant rule. What the critical sections of the calls in `P` keep holds
of the guarded state after every schedule of such calls. -/
theorem schedule_inv (A : LockedObject σ ι ρ ο) (I : σ → Prop) (P : ι → Prop)
    (hcrit : ∀ i s, P i → A.enter i = none → I s → I (A.critical i s).2)
    (events : List (Event κ ι)) (hP : ∀ t i, Event.call t i ∈ events → P i)
    (c : Config κ σ ι ρ) (hc : I c.shared) (hentered : A.Entered P c) :
    I (A.schedule.final c events).shared := by
  induction events generalizing c with
  | nil => exact hc
  | cons e events ih =>
    rw [Mealy.final_cons]
    apply ih (fun t i h => hP t i (List.mem_cons_of_mem e h))
    · rcases schedule_shared A c e with hsame | ⟨t, i, -, hphase, hcritical⟩
      · rw [hsame]
        exact hc
      · obtain ⟨hPi, henter⟩ := hentered t i hphase
        rw [hcritical]
        exact hcrit i c.shared hPi henter hc
    · exact hentered.step e (fun t i he => hP t i (he ▸ List.mem_cons_self))

end LockedObject

end UsacKernel.Computation
