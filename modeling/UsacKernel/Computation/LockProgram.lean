import Mathlib

/-!
# Programs with locks

A small language for code that takes and releases locks, and any number of threads that
run it. Each lock guards some data; an `access` reads or writes the data of a lock, a
`peek` reads it without a claim to hold the lock. Functions are called and return, so a
`ret` in a called function ends that function only. A thread that is done can start
another program.

`Typed` is a discipline on programs: locks are taken in the order of a rank, released in
the reverse order, data is accessed under its lock, and a function returns with the locks
it was called with. `reachable_sound` says that threads which run disciplined programs
keep it in every interleaving, and `no_waiting_cycle` that they never wait for each other
in a circle.
-/

set_option autoImplicit false

namespace UsacKernel.Computation

inductive LockMode where
  | read
  | write
  deriving DecidableEq

/-- Programs over locks `Λ`, with data `σ l` guarded by the lock `l`, and local variables
`τ`. -/
inductive Stmt (Λ : Type) (σ : Λ → Type) (τ : Type) where
  | skip
  | lock (l : Λ) (m : LockMode)
  | unlock (l : Λ)
  | downgrade (l : Λ)
  | access (l : Λ) (f : τ → σ l → τ × σ l)
  | peek (l : Λ) (f : τ → σ l → τ)
  | assign (f : τ → τ)
  | seq (p q : Stmt Λ σ τ)
  | ite (c : τ → Bool) (p q : Stmt Λ σ τ)
  | loop (c : τ → Bool) (p : Stmt Λ σ τ)
  | call (p : Stmt Λ σ τ)
  | ret

def Stmt.block {Λ : Type} {σ : Λ → Type} {τ : Type} : List (Stmt Λ σ τ) → Stmt Λ σ τ
  | [] => .skip
  | p :: ps => .seq p (Stmt.block ps)

def Stmt.ifThen {Λ : Type} {σ : Λ → Type} {τ : Type} (c : τ → Bool) (p : Stmt Λ σ τ) :
    Stmt Λ σ τ := .ite c p .skip

/-- What a thread still has to do: statements, and the ends of the functions they are
in. -/
inductive Frame (Λ : Type) (σ : Λ → Type) (τ : Type) where
  | run (p : Stmt Λ σ τ)
  | back

/-- A thread: its control, its variables, and the locks it holds, latest first. -/
structure Thread (Λ : Type) (σ : Λ → Type) (τ : Type) where
  control : List (Frame Λ σ τ)
  locals : τ
  held : List (Λ × LockMode)

structure System (κ Λ : Type) (σ : Λ → Type) (τ : Type) where
  data : ∀ l, σ l
  thread : κ → Thread Λ σ τ

namespace LockProgram

variable {κ Λ : Type} {σ : Λ → Type} {τ : Type}

/-! ## Running -/

section Running

variable [DecidableEq Λ]

/-- Where a `ret` leads to. -/
def returnTo : List (Frame Λ σ τ) → List (Frame Λ σ τ)
  | [] => []
  | .back :: k => k
  | .run _ :: k => returnTo k

/-- The latest hold on a lock is given up. -/
def release (l : Λ) (held : List (Λ × LockMode)) : List (Λ × LockMode) :=
  held.eraseP (fun x => decide (x.1 = l))

/-- The latest hold on a lock becomes one for reading. -/
def demote (l : Λ) : List (Λ × LockMode) → List (Λ × LockMode)
  | [] => []
  | x :: held => if x.1 = l then (l, .read) :: held else x :: demote l held

/-- The next step of a thread, if the lock it takes is free. -/
def next (d : ∀ l, σ l) (th : Thread Λ σ τ) : Option ((∀ l, σ l) × Thread Λ σ τ) :=
  match th.control with
  | [] => none
  | .back :: k => some (d, { th with control := k })
  | .run p :: k =>
    match p with
    | .skip => some (d, { th with control := k })
    | .lock l m => some (d, { th with control := k, held := (l, m) :: th.held })
    | .unlock l => some (d, { th with control := k, held := release l th.held })
    | .downgrade l => some (d, { th with control := k, held := demote l th.held })
    | .access l f =>
      some (Function.update d l (f th.locals (d l)).2,
        { th with control := k, locals := (f th.locals (d l)).1 })
    | .peek l f => some (d, { th with control := k, locals := f th.locals (d l) })
    | .assign f => some (d, { th with control := k, locals := f th.locals })
    | .seq p q => some (d, { th with control := .run p :: .run q :: k })
    | .ite c p q => some (d, { th with control := .run (if c th.locals then p else q) :: k })
    | .loop c p =>
      some (d, { th with
        control := if c th.locals then .run p :: .run (.loop c p) :: k else k })
    | .call p => some (d, { th with control := .run p :: .back :: k })
    | .ret => some (d, { th with control := returnTo k })

/-- The lock that the thread is about to take. -/
def wants (th : Thread Λ σ τ) : Option (Λ × LockMode) :=
  match th.control with
  | .run (.lock l m) :: _ => some (l, m)
  | _ => none

/-- No thread holds the lock in a way that excludes the mode. -/
def Free (c : System κ Λ σ τ) (l : Λ) : LockMode → Prop
  | .read => ∀ t, (l, .write) ∉ (c.thread t).held
  | .write => ∀ t m, (l, m) ∉ (c.thread t).held

variable [DecidableEq κ]

/-- One step of the system: an idle thread starts a program, or a thread makes its next
step, for which the lock it takes has to be free. -/
inductive Move (programs : Set (Stmt Λ σ τ)) : System κ Λ σ τ → System κ Λ σ τ → Prop where
  | start (c : System κ Λ σ τ) (t : κ) (p : Stmt Λ σ τ) (x : τ) (hp : p ∈ programs)
      (hidle : (c.thread t).control = []) :
      Move programs c { c with
        thread := Function.update c.thread t
          { c.thread t with control := [.run p], locals := x } }
  | run (c : System κ Λ σ τ) (t : κ) (d : ∀ l, σ l) (th : Thread Λ σ τ)
      (hfree : ∀ l m, wants (c.thread t) = some (l, m) → Free c l m)
      (hnext : next c.data (c.thread t) = some (d, th)) :
      Move programs c ⟨d, Function.update c.thread t th⟩

def idle (d : ∀ l, σ l) (x : κ → τ) : System κ Λ σ τ := ⟨d, fun t => ⟨[], x t, []⟩⟩

def Reachable (programs : Set (Stmt Λ σ τ)) (c : System κ Λ σ τ) : Prop :=
  ∃ d x, Relation.ReflTransGen (Move programs) (idle d x) c

end Running

/-! ## The discipline -/

section Discipline

variable (rank : Λ → ℕ) (guard : Λ)

/-- `Typed R H p H'`: in a function that is to return with the locks `R`, the statement
`p`, entered with the locks `H`, keeps the discipline and is left with `H'`. The data of
`guard` is not even peeked at without the lock, and no function returns with it. -/
inductive Typed : List (Λ × LockMode) → List (Λ × LockMode) → Stmt Λ σ τ →
    List (Λ × LockMode) → Prop where
  | skip (R H : List (Λ × LockMode)) : Typed R H .skip H
  | lock (R H : List (Λ × LockMode)) (l : Λ) (m : LockMode) (h : ∀ x ∈ H, rank x.1 < rank l) :
      Typed R H (.lock l m) ((l, m) :: H)
  | unlock (R H : List (Λ × LockMode)) (l : Λ) (m : LockMode) : Typed R ((l, m) :: H) (.unlock l) H
  | downgrade (R H : List (Λ × LockMode)) (l : Λ) :
      Typed R ((l, .write) :: H) (.downgrade l) ((l, .read) :: H)
  | access (R H : List (Λ × LockMode)) (l : Λ) (f : τ → σ l → τ × σ l) (h : (l, .write) ∈ H) :
      Typed R H (.access l f) H
  | peek (R H : List (Λ × LockMode)) (l : Λ) (f : τ → σ l → τ) (h : l ≠ guard) :
      Typed R H (.peek l f) H
  | assign (R H : List (Λ × LockMode)) (f : τ → τ) : Typed R H (.assign f) H
  | seq {R H H' H'' : List (Λ × LockMode)} {p q : Stmt Λ σ τ} (hp : Typed R H p H')
      (hq : Typed R H' q H'') : Typed R H (.seq p q) H''
  | ite {R H H' : List (Λ × LockMode)} (c : τ → Bool) {p q : Stmt Λ σ τ} (hp : Typed R H p H')
      (hq : Typed R H q H') : Typed R H (.ite c p q) H'
  | loop {R H : List (Λ × LockMode)} (c : τ → Bool) {p : Stmt Λ σ τ} (hp : Typed R H p H) :
      Typed R H (.loop c p) H
  | call (R : List (Λ × LockMode)) {H : List (Λ × LockMode)} {p : Stmt Λ σ τ}
      (hguard : ∀ m, (guard, m) ∉ H) (hp : Typed H H p H) : Typed R H (.call p) H
  | ret (R H' : List (Λ × LockMode)) : Typed R R .ret H'

/-- The discipline for what a thread still has to do, in a function that is to return with
`R`, holding `H`. -/
inductive StackOk : List (Λ × LockMode) → List (Λ × LockMode) → List (Frame Λ σ τ) → Prop where
  | done : StackOk [] [] []
  | run {R H H' : List (Λ × LockMode)} {p : Stmt Λ σ τ} {k : List (Frame Λ σ τ)}
      (hp : Typed rank guard R H p H') (hk : StackOk R H' k) : StackOk R H (.run p :: k)
  | back {R R' : List (Λ × LockMode)} {k : List (Frame Λ σ τ)} (hguard : ∀ m, (guard, m) ∉ R)
      (hk : StackOk R' R k) : StackOk R R (.back :: k)

variable {rank guard}

/-- INTERNAL: no function that is being run was called with the guard held. -/
theorem StackOk.guard_not_mem {R H : List (Λ × LockMode)} {k : List (Frame Λ σ τ)}
    (h : StackOk rank guard R H k) (m : LockMode) : (guard, m) ∉ R := by
  induction h with
  | done => exact List.not_mem_nil
  | run _ _ ih => exact ih
  | back hguard _ _ => exact hguard m

/-- INTERNAL: what is left after a `ret` continues with the locks of the call. -/
theorem StackOk.returnTo {R H : List (Λ × LockMode)} {k : List (Frame Λ σ τ)}
    (h : StackOk rank guard R H k) : ∃ R', StackOk rank guard R' R (returnTo k) := by
  induction h with
  | done => exact ⟨[], .done⟩
  | run _ _ ih => exact ih
  | back _ hk _ => exact ⟨_, hk⟩

section Inversion

variable {R H : List (Λ × LockMode)} {k : List (Frame Λ σ τ)}

/-- INTERNAL: a thread about to access the data of a lock holds the lock for writing. -/
theorem StackOk.access {l : Λ} {f : τ → σ l → τ × σ l}
    (h : StackOk rank guard R H (.run (.access l f) :: k)) : (l, .write) ∈ H := by
  cases h with
  | run hp _ =>
    cases hp with
    | access _ _ _ _ hheld => exact hheld

/-- INTERNAL: a thread about to read without a lock does not read the data of the guard. -/
theorem StackOk.peek {l : Λ} {f : τ → σ l → τ}
    (h : StackOk rank guard R H (.run (.peek l f) :: k)) : l ≠ guard := by
  cases h with
  | run hp _ =>
    cases hp with
    | peek _ _ _ _ hl => exact hl

/-- INTERNAL: a thread about to take a lock holds only locks of lower rank. -/
theorem StackOk.lock {l : Λ} {m : LockMode}
    (h : StackOk rank guard R H (.run (.lock l m) :: k)) : ∀ x ∈ H, rank x.1 < rank l := by
  cases h with
  | run hp _ =>
    cases hp with
    | lock _ _ _ _ hrank => exact hrank

/-- INTERNAL: a thread about to return does not hold the guard. -/
theorem StackOk.ret (h : StackOk rank guard R H (.run .ret :: k)) (m : LockMode) :
    (guard, m) ∉ H := by
  cases h with
  | run hp hk =>
    cases hp with
    | ret => exact hk.guard_not_mem m

/-- INTERNAL: a thread that is done holds nothing. -/
theorem StackOk.nil (h : StackOk (σ := σ) (τ := τ) rank guard R H []) : H = [] := by
  cases h
  rfl

end Inversion

section Steps

variable [DecidableEq Λ]

/-- INTERNAL: a step of a disciplined thread leaves a disciplined thread. -/
theorem StackOk.next {R : List (Λ × LockMode)} {d d' : ∀ l, σ l} {th th' : Thread Λ σ τ}
    (h : StackOk rank guard R th.held th.control) (hnext : next d th = some (d', th')) :
    ∃ R', StackOk rank guard R' th'.held th'.control := by
  obtain ⟨control, locals, held⟩ := th
  simp only at h
  cases h with
  | done => cases hnext
  | back hguard hk =>
    simp only [LockProgram.next, Option.some.injEq, Prod.mk.injEq] at hnext
    obtain ⟨-, rfl⟩ := hnext
    exact ⟨_, hk⟩
  | run hp hk =>
    cases hp <;> simp only [LockProgram.next, Option.some.injEq, Prod.mk.injEq] at hnext <;>
      obtain ⟨-, rfl⟩ := hnext
    case skip => exact ⟨_, hk⟩
    case lock => exact ⟨_, hk⟩
    case unlock => exact ⟨_, by simpa [release] using hk⟩
    case downgrade => exact ⟨_, by simpa [demote] using hk⟩
    case access => exact ⟨_, hk⟩
    case peek => exact ⟨_, hk⟩
    case assign => exact ⟨_, hk⟩
    case seq hp hq => exact ⟨_, .run hp (.run hq hk)⟩
    case ite c p q hp hq =>
      refine ⟨_, .run ?_ hk⟩
      split
      · exact hp
      · exact hq
    case loop c p hp =>
      -- one more round, or the end; either way the loop is entered with the same locks
      simp only
      split
      · exact ⟨_, .run hp (.run (.loop c hp) hk)⟩
      · exact ⟨_, hk⟩
    case call hguard hp => exact ⟨_, .run hp (.back hguard hk)⟩
    case ret => exact hk.returnTo

/-- INTERNAL: what a thread holds after a step it held before, perhaps in the stronger
mode, or was about to take. -/
theorem next_held {d d' : ∀ l, σ l} {th th' : Thread Λ σ τ} (hnext : next d th = some (d', th'))
    {l : Λ} {m : LockMode} (h : (l, m) ∈ th'.held) :
    (l, m) ∈ th.held ∨ wants th = some (l, m) ∨ m = .read ∧ (l, .write) ∈ th.held := by
  obtain ⟨control, locals, held⟩ := th
  have hdemote (l' : Λ) (held : List (Λ × LockMode)) (h : (l, m) ∈ demote l' held) :
      (l, m) ∈ held ∨ m = .read ∧ (l, .write) ∈ held := by
    induction held with
    | nil => exact absurd h List.not_mem_nil
    | cons x held ih =>
      obtain ⟨l₁, m₁⟩ := x
      unfold demote at h
      split at h
      · rename_i hx
        rcases List.mem_cons.mp h with h | h
        · cases m₁ <;> simp_all
        · exact Or.inl (List.mem_cons_of_mem _ h)
      · rcases List.mem_cons.mp h with h | h
        · exact Or.inl (h ▸ List.mem_cons_self)
        · rcases ih h with h | h
          · exact Or.inl (List.mem_cons_of_mem _ h)
          · exact Or.inr ⟨h.1, List.mem_cons_of_mem _ h.2⟩
  rcases control with _ | ⟨_ | _, k⟩
  · cases hnext
  · rename_i p
    cases p <;> simp only [next, Option.some.injEq, Prod.mk.injEq] at hnext <;>
      obtain ⟨-, rfl⟩ := hnext
    case lock l' m' =>
      rcases List.mem_cons.mp h with h | h
      · exact Or.inr (Or.inl (by rw [wants, h]))
      · exact Or.inl h
    case unlock l' => exact Or.inl (List.mem_of_mem_eraseP h)
    case downgrade l' =>
      rcases hdemote l' held h with h | h
      · exact Or.inl h
      · exact Or.inr (Or.inr h)
    all_goals exact Or.inl h
  · simp only [next, Option.some.injEq, Prod.mk.injEq] at hnext
    obtain ⟨-, rfl⟩ := hnext
    exact Or.inl h

end Steps

/-! ## Any number of threads -/

variable (rank guard) in
/-- Every thread keeps the discipline, and a lock held for writing is held once. -/
structure Sound (c : System κ Λ σ τ) : Prop where
  stack : ∀ t, ∃ R, StackOk rank guard R (c.thread t).held (c.thread t).control
  exclusive : ∀ t u l m, t ≠ u → (l, .write) ∈ (c.thread t).held → (l, m) ∉ (c.thread u).held

/-- INTERNAL: a step of the system keeps every thread disciplined; the thread that moves is the
only one that changes. -/
theorem Sound.move [DecidableEq κ] [DecidableEq Λ] {programs : Set (Stmt Λ σ τ)}
    (hprograms : ∀ p ∈ programs, Typed rank guard [] [] p []) {c c' : System κ Λ σ τ}
    (h : Sound rank guard c) (hmove : Move programs c c') : Sound rank guard c' := by
  cases hmove with
  | start t p x hp hidle =>
    have hheld : ∀ u, (Function.update c.thread t
        { c.thread t with control := [.run p], locals := x } u).held = (c.thread u).held := by
      intro u
      by_cases hu : u = t
      · subst hu
        simp
      · simp [hu]
    refine ⟨fun u => ?_, fun u v l m huv => ?_⟩
    · by_cases hu : u = t
      · subst hu
        obtain ⟨R, hR⟩ := h.stack u
        rw [hidle] at hR
        simp only [Function.update_self, hR.nil]
        exact ⟨[], .run (hprograms p hp) .done⟩
      · simpa [hu] using h.stack u
    · simp only [hheld]
      exact h.exclusive u v l m huv
  | run t d th hfree hnext =>
    refine ⟨fun u => ?_, fun u v l m huv hu hv => ?_⟩
    · by_cases hu : u = t
      · subst hu
        obtain ⟨R, hR⟩ := h.stack u
        simpa using hR.next hnext
      · simpa [hu] using h.stack u
    · -- the moving thread is one of the two, or nothing has changed
      by_cases hut : u = t
      · subst hut
        have hvu : v ≠ u := Ne.symm huv
        simp only [Function.update_self, Function.update_of_ne hvu] at hu hv
        rcases next_held hnext hu with hold | hwants | ⟨hmode, _⟩
        · exact h.exclusive u v l m huv hold hv
        · exact hfree l .write hwants v m hv
        · cases hmode
      · by_cases hvt : v = t
        · subst hvt
          simp only [Function.update_self, Function.update_of_ne hut] at hu hv
          rcases next_held hnext hv with hold | hwants | ⟨_, hold⟩
          · exact h.exclusive u v l m huv hu hold
          · cases m with
            | read => exact hfree l .read hwants u hu
            | write => exact hfree l .write hwants u .write hu
          · exact h.exclusive u v l .write huv hu hold
        · simp only [Function.update_of_ne hut, Function.update_of_ne hvt] at hu hv
          exact h.exclusive u v l m huv hu hv

/-- INTERNAL: threads that run disciplined programs are disciplined in every reachable state. -/
theorem reachable_sound [DecidableEq κ] [DecidableEq Λ] {programs : Set (Stmt Λ σ τ)}
    (hprograms : ∀ p ∈ programs, Typed rank guard [] [] p []) {c : System κ Λ σ τ}
    (h : Reachable programs c) : Sound rank guard c := by
  obtain ⟨d, x, hsteps⟩ := h
  induction hsteps with
  | refl => exact ⟨fun _ => ⟨[], .done⟩, fun _ _ _ _ _ h => absurd h List.not_mem_nil⟩
  | tail _ hmove ih => exact ih.move hprograms hmove

/-! ## What a sound state is like -/

section Consequences

variable {c : System κ Λ σ τ} {t : κ} {k : List (Frame Λ σ τ)}

/-- INTERNAL: data is accessed by the only thread that holds its lock. -/
theorem Sound.access (h : Sound rank guard c) {l : Λ} {f : τ → σ l → τ × σ l}
    (hk : (c.thread t).control = .run (.access l f) :: k) :
    (l, .write) ∈ (c.thread t).held ∧ ∀ u m, u ≠ t → (l, m) ∉ (c.thread u).held := by
  obtain ⟨R, hR⟩ := h.stack t
  rw [hk] at hR
  exact ⟨hR.access, fun u m hu => h.exclusive t u l m (Ne.symm hu) hR.access⟩

/-- INTERNAL: the data of the guard is never read without the lock. -/
theorem Sound.peek (h : Sound rank guard c) {l : Λ} {f : τ → σ l → τ}
    (hk : (c.thread t).control = .run (.peek l f) :: k) : l ≠ guard := by
  obtain ⟨R, hR⟩ := h.stack t
  rw [hk] at hR
  exact hR.peek

/-- INTERNAL: a lock is taken above all that are held. -/
theorem Sound.wants_rank (h : Sound rank guard c) {l : Λ} {m : LockMode}
    (hwants : wants (c.thread t) = some (l, m)) : ∀ x ∈ (c.thread t).held, rank x.1 < rank l := by
  obtain ⟨R, hR⟩ := h.stack t
  unfold wants at hwants
  split at hwants
  · rename_i l' m' k hcontrol
    rw [hcontrol] at hR
    cases hwants
    exact hR.lock
  · cases hwants

/-- INTERNAL: no function returns with the guard held. -/
theorem Sound.ret (h : Sound rank guard c) (hk : (c.thread t).control = .run .ret :: k)
    (m : LockMode) : (guard, m) ∉ (c.thread t).held := by
  obtain ⟨R, hR⟩ := h.stack t
  rw [hk] at hR
  exact hR.ret m

/-- INTERNAL: a thread that is done holds no lock. -/
theorem Sound.done (h : Sound rank guard c) (hk : (c.thread t).control = []) :
    (c.thread t).held = [] := by
  obtain ⟨R, hR⟩ := h.stack t
  rw [hk] at hR
  exact hR.nil

/-- The thread `t` is about to take a lock that `u` holds. -/
def WaitsFor (c : System κ Λ σ τ) (t u : κ) : Prop :=
  ∃ l m m', wants (c.thread t) = some (l, m) ∧ (l, m') ∈ (c.thread u).held

/-- INTERNAL: along a chain of waiting threads the locks they want rise in rank. -/
theorem Sound.rank_lt_of_waits (h : Sound rank guard c) {t u : κ}
    (hwaits : Relation.TransGen (WaitsFor c) t u) {l l' : Λ} {m m' : LockMode}
    (ht : wants (c.thread t) = some (l, m)) (hu : wants (c.thread u) = some (l', m')) :
    rank l < rank l' := by
  induction hwaits generalizing l' m' with
  | single hwait =>
    obtain ⟨l₁, m₁, m₂, hwants, hheld⟩ := hwait
    rw [ht, Option.some.injEq, Prod.mk.injEq] at hwants
    rw [← hwants.1] at hheld
    exact h.wants_rank hu _ hheld
  | tail _ hwait ih =>
    obtain ⟨l₁, m₁, m₂, hwants, hheld⟩ := hwait
    exact (ih hwants).trans (h.wants_rank hu _ hheld)

/-- INTERNAL: threads never wait for each other in a circle, for the rank of the lock a thread
waits for grows along the circle. -/
theorem Sound.no_waiting_cycle (h : Sound rank guard c) (t : κ) :
    ¬ Relation.TransGen (WaitsFor c) t t := by
  intro hcycle
  obtain ⟨u, ⟨l, m, m', hwants, _⟩, _⟩ := Relation.TransGen.head'_iff.mp hcycle
  exact lt_irrefl _ (h.rank_lt_of_waits hcycle hwants hwants)

end Consequences

end Discipline

end LockProgram

end UsacKernel.Computation
