import UsacKernel.Computation.LockProgram

/-!
# What a program with locks computes when nobody else runs

`wp` is a weakest precondition for total correctness, with one postcondition for the end of
a statement and one for a `ret`. `wp_steps` says that a program whose precondition holds
comes to its end by steps of its thread, and `Sound.moves_of_steps` that these are moves of
the whole system while the other threads hold no lock.
-/

set_option autoImplicit false

namespace UsacKernel.Computation

structure Solo (Λ : Type) (σ : Λ → Type) (τ : Type) where
  data : ∀ l, σ l
  locals : τ
  held : List (Λ × LockMode)

/-- The data and the thread, with what the thread still has to do. -/
def Solo.at {Λ : Type} {σ : Λ → Type} {τ : Type} (s : Solo Λ σ τ)
    (control : List (Frame Λ σ τ)) : (∀ l, σ l) × Thread Λ σ τ :=
  (s.data, ⟨control, s.locals, s.held⟩)

namespace LockProgram

variable {κ Λ : Type} {σ : Λ → Type} {τ : Type} [DecidableEq Λ]

/-! ## Weakest preconditions -/

/-- `n` rounds of a loop are enough to come to its end. -/
def rounds (c : τ → Bool) (body : (Solo Λ σ τ → Prop) → Solo Λ σ τ → Prop)
    (Q : Solo Λ σ τ → Prop) : ℕ → Solo Λ σ τ → Prop
  | 0, _ => False
  | n + 1, s => if c s.locals then body (rounds c body Q n) s else Q s

/-- The program ends, in `Q` if it comes to its end and in `R` if it returns. -/
def wp : Stmt Λ σ τ → (Solo Λ σ τ → Prop) → (Solo Λ σ τ → Prop) → Solo Λ σ τ → Prop
  | .skip, Q, _, s => Q s
  | .lock l m, Q, _, s => Q { s with held := (l, m) :: s.held }
  | .unlock l, Q, _, s => Q { s with held := release l s.held }
  | .downgrade l, Q, _, s => Q { s with held := demote l s.held }
  | .access l f, Q, _, s =>
    Q { s with
      data := Function.update s.data l (f s.locals (s.data l)).2
      locals := (f s.locals (s.data l)).1 }
  | .peek l f, Q, _, s => Q { s with locals := f s.locals (s.data l) }
  | .assign f, Q, _, s => Q { s with locals := f s.locals }
  | .seq p q, Q, R, s => wp p (wp q Q R) R s
  | .ite c p q, Q, R, s => if c s.locals then wp p Q R s else wp q Q R s
  | .loop c p, Q, R, s => ∃ n, rounds c (fun Q' => wp p Q' R) Q n s
  | .call p, Q, _, s => wp p Q Q s
  | .ret, _, R, s => R s

section Rules

variable {Q R : Solo Λ σ τ → Prop} {s : Solo Λ σ τ}

/-- INTERNAL: a block is its first statement followed by the block of the others. -/
theorem wp_block_cons (p : Stmt Λ σ τ) (ps : List (Stmt Λ σ τ)) :
    wp (.block (p :: ps)) Q R s ↔ wp p (wp (.block ps) Q R) R s := Iff.rfl

/-- INTERNAL: a conditional without an else branch goes on behind it when the test fails. -/
theorem wp_ifThen {c : τ → Bool} {p : Stmt Λ σ τ} (htrue : c s.locals = true → wp p Q R s)
    (hfalse : c s.locals = false → Q s) : wp (.ifThen c p) Q R s := by
  rw [Stmt.ifThen, wp]
  split
  · rename_i hc
    exact htrue hc
  · rename_i hc
    exact hfalse (Bool.eq_false_of_not_eq_true hc)

/-- INTERNAL: an assignment changes the local variables. -/
theorem wp_assign (f : τ → τ) :
    wp (.assign f) Q R s ↔ Q { s with locals := f s.locals } := Iff.rfl

/-- INTERNAL: a called function goes on behind the call, whether it returns or comes to its end.
-/
theorem wp_call (p : Stmt Λ σ τ) : wp (.call p) Q R s ↔ wp p Q Q s := Iff.rfl

end Rules

def Steps : (∀ l, σ l) × Thread Λ σ τ → (∀ l, σ l) × Thread Λ σ τ → Prop :=
  Relation.ReflTransGen fun a b => next a.1 a.2 = some b

def stepMany : ℕ → (∀ l, σ l) × Thread Λ σ τ → Option ((∀ l, σ l) × Thread Λ σ τ)
  | 0, a => some a
  | n + 1, a => (next a.1 a.2).bind (stepMany n)

/-- INTERNAL: a run of a given number of steps is a run. -/
theorem steps_of_stepMany (n : ℕ) {a b : (∀ l, σ l) × Thread Λ σ τ}
    (h : stepMany n a = some b) : Steps a b := by
  induction n generalizing a with
  | zero =>
    cases h
    exact .refl
  | succ n ih =>
    obtain ⟨a', hstep, hrest⟩ := Option.bind_eq_some_iff.mp h
    exact .head hstep (ih hrest)

/-- The thread comes to the end `k` of a statement in `Q`, or returns from it in `R`. -/
def Ends (Q R : Solo Λ σ τ → Prop) (k : List (Frame Λ σ τ))
    (a : (∀ l, σ l) × Thread Λ σ τ) : Prop :=
  ∃ s, Q s ∧ Steps a (s.at k) ∨ R s ∧ Steps a (s.at (returnTo k))

/-- INTERNAL: a run that ends well after its first step ends well. -/
theorem Ends.head {Q R : Solo Λ σ τ → Prop} {k : List (Frame Λ σ τ)}
    {a b : (∀ l, σ l) × Thread Λ σ τ} (hstep : next a.1 a.2 = some b) (h : Ends Q R k b) :
    Ends Q R k a := by
  obtain ⟨s, ⟨hQ, hsteps⟩ | ⟨hR, hsteps⟩⟩ := h
  · exact ⟨s, Or.inl ⟨hQ, .head hstep hsteps⟩⟩
  · exact ⟨s, Or.inr ⟨hR, .head hstep hsteps⟩⟩

/-- INTERNAL: one statement after the other; a return skips the second. -/
theorem Ends.bind {Q Q' R : Solo Λ σ τ → Prop} {p : Stmt Λ σ τ} {k : List (Frame Λ σ τ)}
    {a : (∀ l, σ l) × Thread Λ σ τ} (h : Ends Q' R (.run p :: k) a)
    (hnext : ∀ s, Q' s → Ends Q R k (s.at (.run p :: k))) : Ends Q R k a := by
  obtain ⟨s, ⟨hQ', hsteps⟩ | ⟨hR, hsteps⟩⟩ := h
  · obtain ⟨s', ⟨hQ, hsteps'⟩ | ⟨hR, hsteps'⟩⟩ := hnext s hQ'
    · exact ⟨s', Or.inl ⟨hQ, hsteps.trans hsteps'⟩⟩
    · exact ⟨s', Or.inr ⟨hR, hsteps.trans hsteps'⟩⟩
  · exact ⟨s, Or.inr ⟨hR, hsteps⟩⟩

/-- INTERNAL: the rounds of a loop, when the body runs as its precondition says. -/
theorem Ends.loop {c : τ → Bool} {p : Stmt Λ σ τ} {Q R : Solo Λ σ τ → Prop}
    (hbody : ∀ Q' s k, wp p Q' R s → Ends Q' R k (s.at (.run p :: k))) (n : ℕ)
    {s : Solo Λ σ τ} (h : rounds c (fun Q' => wp p Q' R) Q n s) (k : List (Frame Λ σ τ)) :
    Ends Q R k (s.at (.run (.loop c p) :: k)) := by
  induction n generalizing s with
  | zero => exact h.elim
  | succ n ih =>
    simp only [rounds] at h
    split at h
    · rename_i hc
      have hstep : next s.data (s.at (.run (.loop c p) :: k)).2 =
          some (s.at (.run p :: .run (.loop c p) :: k)) := by
        simp [next, Solo.at, hc]
      exact .head hstep (.bind (hbody _ s _ h) fun s' hs' => ih hs')
    · rename_i hc
      have hstep : next s.data (s.at (.run (.loop c p) :: k)).2 = some (s.at k) := by
        simp [next, Solo.at, hc]
      exact ⟨s, Or.inl ⟨h, .single hstep⟩⟩

/-- INTERNAL: a thread runs as the weakest precondition says. -/
theorem wp_steps (p : Stmt Λ σ τ) {Q R : Solo Λ σ τ → Prop} {s : Solo Λ σ τ} (h : wp p Q R s)
    (k : List (Frame Λ σ τ)) : Ends Q R k (s.at (.run p :: k)) := by
  induction p generalizing Q R s k with
  | seq p q ihp ihq =>
    have hfirst : Ends (wp q Q R) R (.run q :: k) (s.at (.run p :: .run q :: k)) := ihp h _
    exact .head (b := s.at (.run p :: .run q :: k)) rfl (hfirst.bind fun s' hs' => ihq hs' k)
  | ite c p q ihp ihq =>
    refine .head (b := s.at (.run (if c s.locals then p else q) :: k)) rfl ?_
    simp only [wp] at h
    cases hc : c s.locals with
    | true => exact ihp (by simpa [hc] using h) k
    | false => exact ihq (by simpa [hc] using h) k
  | loop c p ih =>
    obtain ⟨n, hn⟩ := h
    exact Ends.loop (fun Q' s' k' h' => ih h' k') n hn k
  | call p ih =>
    -- both ends of the called function are the end of the call
    refine .head (b := s.at (.run p :: .back :: k)) rfl ?_
    obtain ⟨s', ⟨hQ, hsteps⟩ | ⟨hQ, hsteps⟩⟩ := ih h (.back :: k)
    · exact ⟨s', Or.inl ⟨hQ, hsteps.tail rfl⟩⟩
    · exact ⟨s', Or.inl ⟨hQ, hsteps⟩⟩
  | ret => exact ⟨s, Or.inr ⟨h, .single rfl⟩⟩
  | _ => exact ⟨_, Or.inl ⟨h, .single rfl⟩⟩

/-! ## In the whole system -/

section System

variable [DecidableEq κ] {rank : Λ → ℕ} {guard : Λ} {programs : Set (Stmt Λ σ τ)}
  {c : System κ Λ σ τ} {t : κ}

omit [DecidableEq Λ] in
/-- INTERNAL: the lock a thread waits for is free when no other thread holds anything, for the
thread itself holds only locks of lower rank. -/
theorem Sound.free (h : Sound rank guard c) (hothers : ∀ u, u ≠ t → (c.thread u).held = [])
    {l : Λ} {m : LockMode} (hwants : wants (c.thread t) = some (l, m)) : Free c l m := by
  have hnot (u : κ) (m' : LockMode) : (l, m') ∉ (c.thread u).held := by
    by_cases hu : u = t
    · subst hu
      exact fun hheld => lt_irrefl _ (h.wants_rank hwants _ hheld)
    · rw [hothers u hu]
      exact List.not_mem_nil
  cases m with
  | read => exact fun u => hnot u .write
  | write => exact hnot

/-- INTERNAL: the steps of one thread are moves of the system, while the others hold no
lock. -/
theorem Sound.moves_of_steps (hprograms : ∀ p ∈ programs, Typed rank guard [] [] p [])
    (h : Sound rank guard c) (hothers : ∀ u, u ≠ t → (c.thread u).held = [])
    {b : (∀ l, σ l) × Thread Λ σ τ} (hsteps : Steps (c.data, c.thread t) b) :
    Relation.ReflTransGen (Move programs) c ⟨b.1, Function.update c.thread t b.2⟩ ∧
      Sound rank guard (⟨b.1, Function.update c.thread t b.2⟩ : System κ Λ σ τ) := by
  induction hsteps with
  | refl =>
    simp only [Function.update_eq_self]
    exact ⟨.refl, h⟩
  | @tail a b _ hstep ih =>
    obtain ⟨hmoves, hsound⟩ := ih
    have hfree : ∀ l m, wants a.2 = some (l, m) →
        Free (⟨a.1, Function.update c.thread t a.2⟩ : System κ Λ σ τ) l m := by
      intro l m hwants
      refine hsound.free (t := t) (fun u hu => ?_) (by simpa using hwants)
      simpa [hu] using hothers u hu
    have hmove : Move programs _ _ :=
      .run (⟨a.1, Function.update c.thread t a.2⟩ : System κ Λ σ τ) t b.1 b.2
        (by simpa using hfree) (by simpa using hstep)
    simp only [Function.update_idem] at hmove
    exact ⟨hmoves.tail hmove, hsound.move hprograms hmove⟩

/-- INTERNAL: a thread that starts a program makes its steps, while the others hold no
lock. -/
theorem Sound.moves_of_start (hprograms : ∀ p ∈ programs, Typed rank guard [] [] p [])
    (h : Sound rank guard c) (hidle : (c.thread t).control = [])
    (hothers : ∀ u, u ≠ t → (c.thread u).held = []) {p : Stmt Λ σ τ} (hp : p ∈ programs) (x : τ)
    {b : (∀ l, σ l) × Thread Λ σ τ} (hsteps : Steps (c.data, ⟨[.run p], x, []⟩) b) :
    Relation.ReflTransGen (Move programs) c ⟨b.1, Function.update c.thread t b.2⟩ ∧
      Sound rank guard (⟨b.1, Function.update c.thread t b.2⟩ : System κ Λ σ τ) := by
  have hstart := Move.start c t p x hp hidle
  have hsound := h.move hprograms hstart
  simp only [h.done hidle] at hstart hsound
  obtain ⟨hmoves, hend⟩ := hsound.moves_of_steps (t := t) hprograms
    (fun u hu => by simpa [hu] using hothers u hu) (b := b) (by simpa using hsteps)
  simp only [Function.update_idem] at hmoves hend
  exact ⟨hmoves.head hstart, hend⟩

/-- INTERNAL: a thread that starts a program while no lock is held brings it to its end. -/
theorem Sound.runs (hprograms : ∀ p ∈ programs, Typed rank guard [] [] p [])
    (h : Sound rank guard c) (hidle : (c.thread t).control = [])
    (hothers : ∀ u, u ≠ t → (c.thread u).held = []) {p : Stmt Λ σ τ} (hp : p ∈ programs) (x : τ)
    {Q : Solo Λ σ τ → Prop} (hwp : wp p Q Q ⟨c.data, x, []⟩) :
    ∃ d x', Q ⟨d, x', []⟩ ∧
      Relation.ReflTransGen (Move programs) c ⟨d, Function.update c.thread t ⟨[], x', []⟩⟩ := by
  have hends : ∃ s, Q s ∧ Steps (Solo.at ⟨c.data, x, []⟩ [.run p]) (s.at []) := by
    obtain ⟨s, ⟨hQ, hsteps⟩ | ⟨hQ, hsteps⟩⟩ := wp_steps p hwp []
    · exact ⟨s, hQ, hsteps⟩
    · exact ⟨s, hQ, hsteps⟩
  obtain ⟨s, hQ, hsteps⟩ := hends
  obtain ⟨hmoves, hend⟩ := h.moves_of_start hprograms hidle hothers hp x hsteps
  have hheld : s.held = [] := by simpa [Solo.at] using hend.done (t := t) (by simp [Solo.at])
  refine ⟨s.data, s.locals, hheld ▸ hQ, ?_⟩
  simpa [Solo.at, hheld] using hmoves

end System

end LockProgram

end UsacKernel.Computation
