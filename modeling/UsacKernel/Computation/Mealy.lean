import Mathlib

/-!
# Machines with outputs

A `Mealy` machine takes an input, moves to a new state and answers with an output.
Its runs are lists of inputs. Four rules carry the arguments about runs:

* `final_inv`, `final_inv_along`: a property kept by every step holds at the end of every
  run;
* `outputs_simulation`: machines related step by step give related outputs;
* `exists_simulating_run`: a machine that can match every step of another can match its runs;
* `run_erase`: inputs that left the state as it was can be struck out of a run
  without changing what the others were answered.
-/

set_option autoImplicit false

namespace UsacKernel.Computation

structure Mealy (σ ι ο : Type) where
  step : σ → ι → σ × ο

namespace Mealy

variable {σ τ ι ο ο₂ : Type}

def final (M : Mealy σ ι ο) : σ → List ι → σ
  | s, [] => s
  | s, i :: is => M.final (M.step s i).1 is

def outputs (M : Mealy σ ι ο) : σ → List ι → List ο
  | _, [] => []
  | s, i :: is => (M.step s i).2 :: M.outputs (M.step s i).1 is

/-- INTERNAL: without inputs the machine stays where it is. -/
@[simp] theorem final_nil (M : Mealy σ ι ο) (s : σ) : M.final s [] = s := rfl

/-- INTERNAL: the state after a run is the state after the rest, from where the first input
leads. -/
@[simp] theorem final_cons (M : Mealy σ ι ο) (s : σ) (i : ι) (is : List ι) :
    M.final s (i :: is) = M.final (M.step s i).1 is := rfl

/-- INTERNAL: without inputs there is no output. -/
@[simp] theorem outputs_nil (M : Mealy σ ι ο) (s : σ) : M.outputs s [] = [] := rfl

/-- INTERNAL: the first output is that of the first step. -/
@[simp] theorem outputs_cons (M : Mealy σ ι ο) (s : σ) (i : ι) (is : List ι) :
    M.outputs s (i :: is) = (M.step s i).2 :: M.outputs (M.step s i).1 is := rfl

/-- INTERNAL: a run of two parts goes on where the first part ended. -/
theorem final_append (M : Mealy σ ι ο) (s : σ) (is js : List ι) :
    M.final s (is ++ js) = M.final (M.final s is) js := by
  induction is generalizing s with
  | nil => rfl
  | cons i is ih => exact ih _

/-- INTERNAL: the invariant rule: what every step keeps, every run keeps. -/
theorem final_inv (M : Mealy σ ι ο) (I : σ → Prop)
    (hstep : ∀ s i, I s → I (M.step s i).1) (s : σ) (hs : I s) (is : List ι) :
    I (M.final s is) := by
  induction is generalizing s with
  | nil => exact hs
  | cons i is ih => exact ih _ (hstep s i hs)

/-- Every input of the run satisfies `P` in the state in which it is taken. -/
def Along (M : Mealy σ ι ο) (P : σ → ι → Prop) : σ → List ι → Prop
  | _, [] => True
  | s, i :: is => P s i ∧ M.Along P (M.step s i).1 is

/-- INTERNAL: two conditions that hold along a run hold together. -/
theorem Along.and {M : Mealy σ ι ο} {P Q : σ → ι → Prop} {s : σ} {is : List ι}
    (hP : M.Along P s is) (hQ : M.Along Q s is) : M.Along (fun s i => P s i ∧ Q s i) s is := by
  induction is generalizing s with
  | nil => trivial
  | cons i is ih => exact ⟨⟨hP.1, hQ.1⟩, ih hP.2 hQ.2⟩

/-- INTERNAL: a condition holds along a run when it does along its two parts. -/
theorem Along.append {M : Mealy σ ι ο} {P : σ → ι → Prop} {s : σ} {is js : List ι}
    (his : M.Along P s is) (hjs : M.Along P (M.final s is) js) : M.Along P s (is ++ js) := by
  induction is generalizing s with
  | nil => exact hjs
  | cons i is ih => exact ⟨his.1, ih his.2 hjs⟩

/-- INTERNAL: a condition along a run may be replaced by one that follows from it and an
invariant. -/
theorem Along.imp_inv {M : Mealy σ ι ο} {P Q : σ → ι → Prop} (I : σ → Prop)
    (hstep : ∀ s i, I s → I (M.step s i).1) (hPQ : ∀ s i, I s → P s i → Q s i)
    {s : σ} {is : List ι} (hI : I s) (hP : M.Along P s is) : M.Along Q s is := by
  induction is generalizing s with
  | nil => trivial
  | cons i is ih => exact ⟨hPQ s i hI hP.1, ih (hstep s i hI) hP.2⟩

/-- INTERNAL: two conditions that agree wherever the first has held so far hold along the
same runs. -/
theorem along_iff (M : Mealy σ ι ο) {P Q : σ → ι → Prop} (I : σ → Prop)
    (hstep : ∀ s i, I s → P s i → I (M.step s i).1) (hPQ : ∀ s i, I s → (P s i ↔ Q s i))
    {s : σ} (hI : I s) (is : List ι) : M.Along P s is ↔ M.Along Q s is := by
  induction is generalizing s with
  | nil => exact Iff.rfl
  | cons i is ih =>
    constructor
    · rintro ⟨hP, hrest⟩
      exact ⟨(hPQ s i hI).mp hP, (ih (hstep s i hI hP)).mp hrest⟩
    · rintro ⟨hQ, hrest⟩
      have hP := (hPQ s i hI).mpr hQ
      exact ⟨hP, (ih (hstep s i hI hP)).mpr hrest⟩

/-- INTERNAL: the invariant rule for runs along which a condition holds. -/
theorem final_inv_along (M : Mealy σ ι ο) (P : σ → ι → Prop) (I : σ → Prop)
    (hstep : ∀ s i, I s → P s i → I (M.step s i).1) (s : σ) (hs : I s) (is : List ι)
    (his : M.Along P s is) : I (M.final s is) := by
  induction is generalizing s with
  | nil => exact hs
  | cons i is ih => exact ih _ (hstep s i hs his.1) his.2

/-- INTERNAL: the cause of a property. When it holds at the end of a run and not at the
start, some input brought it about, and it has held ever since. -/
theorem exists_cause (M : Mealy σ ι ο) (Q : σ → Prop) (s : σ) (hs : ¬ Q s) (is : List ι)
    (h : Q (M.final s is)) :
    ∃ before i after, is = before ++ i :: after ∧ ¬ Q (M.final s before) ∧
      Q (M.step (M.final s before) i).1 ∧
      M.Along (fun s j => Q (M.step s j).1) (M.step (M.final s before) i).1 after := by
  -- from the end backwards: either it held before the last input, or that input is the cause
  induction is using List.reverseRecOn with
  | nil => exact absurd h hs
  | append_singleton is j ih =>
    rw [final_append] at h
    by_cases hQ : Q (M.final s is)
    · obtain ⟨before, i, after, rfl, hno, hyes, hafter⟩ := ih hQ
      refine ⟨before, i, after ++ [j], by simp, hno, hyes, ?_⟩
      rw [final_append, final_cons] at h
      exact hafter.append ⟨h, trivial⟩
    · exact ⟨is, j, [], rfl, hQ, h, trivial⟩

/-- INTERNAL: the simulation rule. A relation that every step keeps, and under which
the outputs agree through `obs`, holds at the end of every run, and the whole list of
outputs agrees. -/
theorem outputs_simulation (M : Mealy σ ι ο) (N : Mealy τ ι ο₂) (obs : ο → ο₂)
    (R : σ → τ → Prop)
    (hstep : ∀ s t i, R s t →
      R (M.step s i).1 (N.step t i).1 ∧ obs (M.step s i).2 = (N.step t i).2)
    (s : σ) (t : τ) (h : R s t) (is : List ι) :
    R (M.final s is) (N.final t is) ∧ (M.outputs s is).map obs = N.outputs t is := by
  induction is generalizing s t with
  | nil => exact ⟨h, rfl⟩
  | cons i is ih =>
    obtain ⟨hR, ho⟩ := hstep s t i h
    obtain ⟨hfin, hout⟩ := ih _ _ hR
    refine ⟨hfin, ?_⟩
    simp only [outputs_cons, List.map_cons, ho, hout]

/-- INTERNAL: the forward simulation rule. When every input that the first machine takes from
related states is matched by some input of the second, which answers the same, every run is
matched by a run. -/
theorem exists_simulating_run {κ : Type} (M : Mealy σ ι ο) (N : Mealy τ κ ο) (R : σ → τ → Prop)
    (P : ι → Prop) (Q : ι → κ → Prop)
    (hstep : ∀ s t i, P i → R s t →
      ∃ k, Q i k ∧ R (M.step s i).1 (N.step t k).1 ∧ (N.step t k).2 = (M.step s i).2)
    (s : σ) (t : τ) (h : R s t) (is : List ι) (his : ∀ i ∈ is, P i) :
    ∃ ks, List.Forall₂ Q is ks ∧ R (M.final s is) (N.final t ks) ∧
      N.outputs t ks = M.outputs s is := by
  induction is generalizing s t with
  | nil => exact ⟨[], List.Forall₂.nil, h, rfl⟩
  | cons i is ih =>
    obtain ⟨hi, hrest⟩ := List.forall_mem_cons.mp his
    obtain ⟨k, hQ, hR, ho⟩ := hstep s t i hi h
    obtain ⟨ks, hQs, hfin, hout⟩ := ih _ _ hR hrest
    refine ⟨k :: ks, List.Forall₂.cons hQ hQs, hfin, ?_⟩
    rw [outputs_cons, outputs_cons, ho, hout]

/-! ## Striking inputs out of a run

Each input carries a mark; the marked ones are kept. -/

/-- The inputs of a marked run. -/
def allOf {α : Type} (run : List (Bool × α)) : List α := run.map Prod.snd

/-- The inputs of a marked run that are kept. -/
def keptOf {α : Type} (run : List (Bool × α)) : List α := (run.filter Prod.fst).map Prod.snd

/-- The outputs, in the whole run, of the inputs that are kept. -/
def keptOutputs (M : Mealy σ ι ο) (s : σ) (run : List (Bool × ι)) : List ο :=
  keptOf ((run.map Prod.fst).zip (M.outputs s (allOf run)))

/-- Every input that is struck out has, in the whole run, an answer for which `drop`
allows it. -/
def Droppable (M : Mealy σ ι ο) (drop : ι → ο → Prop) (s : σ) (run : List (Bool × ι)) : Prop :=
  ∀ x ∈ run.zip (M.outputs s (allOf run)), x.1.1 = false → drop x.1.2 x.2

instance (M : Mealy σ ι ο) (drop : ι → ο → Prop) [∀ i o, Decidable (drop i o)] (s : σ)
    (run : List (Bool × ι)) : Decidable (Droppable M drop s run) :=
  inferInstanceAs (Decidable (∀ x ∈ run.zip (M.outputs s (allOf run)), x.1.1 = false → _))

/-- INTERNAL: the first input may be dropped by its own output, the others by theirs. -/
theorem droppable_cons (M : Mealy σ ι ο) (drop : ι → ο → Prop) (s : σ) (keep : Bool) (i : ι)
    (run : List (Bool × ι)) :
    Droppable M drop s ((keep, i) :: run) ↔
      (keep = false → drop i (M.step s i).2) ∧ Droppable M drop (M.step s i).1 run := by
  simp [Droppable, allOf, List.zip_cons_cons]

/-- INTERNAL: the erasure rule. When the answers that allow an input to be dropped
occur only on steps that keep the state, dropping such inputs changes neither the final
state nor the answers to the inputs that stay. -/
theorem run_erase (M : Mealy σ ι ο) (drop : ι → ο → Prop)
    (hdrop : ∀ s i, drop i (M.step s i).2 → (M.step s i).1 = s)
    (s : σ) (run : List (Bool × ι)) (h : Droppable M drop s run) :
    M.final s (keptOf run) = M.final s (allOf run) ∧
      M.outputs s (keptOf run) = M.keptOutputs s run := by
  induction run generalizing s with
  | nil => exact ⟨rfl, rfl⟩
  | cons x run ih =>
    obtain ⟨keep, i⟩ := x
    obtain ⟨hi, hrest⟩ := (droppable_cons M drop s keep i run).mp h
    obtain ⟨hfin, hout⟩ := ih _ hrest
    cases keep with
    | true =>
      refine ⟨hfin, ?_⟩
      change (M.step s i).2 :: M.outputs _ (keptOf run) = _
      rw [hout]
      rfl
    | false =>
      -- the input that is struck out left the state, so the rest runs from the same one
      have hs := hdrop s i (hi rfl)
      rw [hs] at hfin hout
      refine ⟨?_, ?_⟩
      · change M.final s (keptOf run) = M.final (M.step s i).1 (allOf run)
        rw [hs]
        exact hfin
      · change M.outputs s (keptOf run) =
          keptOf ((run.map Prod.fst).zip (M.outputs (M.step s i).1 (allOf run)))
        rw [hs]
        exact hout

end Mealy

end UsacKernel.Computation
