import Mathlib.Logic.Basic

/-!
# What a program leaves

Programs with a state and exceptions, by the states they leave: `Runs` tells apart where the program
returned and where it threw, and says nothing of values. `Keeps` is an invariant of both.
-/

namespace Leaving
variable {ε σ τ α β : Type}

/-- From states of `P` to states of `Q` where `x` returns, to states of `E` where it throws. -/
structure Runs (P : σ → Prop) (x : EStateM ε σ α) (Q E : σ → Prop) : Prop where
  ok : ∀ s a t, P s → x s = .ok a t → Q t
  error : ∀ s e t, P s → x s = .error e t → E t

/-- However `x` ends, what `I` says holds again. -/
abbrev Keeps (I : σ → Prop) (x : EStateM ε σ α) : Prop := Runs I x I I

namespace Runs
variable {P P' Q Q' R E E' : σ → Prop} {x : EStateM ε σ α} {f : α → EStateM ε σ β}

theorem weaken (h : Runs P x Q E) (start : ∀ s, P' s → P s) (ok : ∀ s, Q s → Q' s) (error : ∀ s, E s → E' s) :
    Runs P' x Q' E' where
  ok s a t p run := ok t (h.ok s a t (start s p) run)
  error s e t p run := error t (h.error s e t (start s p) run)

/-- One of the states a program may start in. -/
theorem start (h : Runs P x Q E) {s : σ} (p : P s) : Runs (· = s) x Q E :=
  h.weaken (fun s' same => by rw [same]; exact p) (fun _ q => q) fun _ e => e

theorem throwing (h : Runs P x Q E) (error : ∀ s, E s → E' s) : Runs P x Q E' :=
  h.weaken (fun _ p => p) (fun _ q => q) error

/-- A parameter of the start that the program does not know. -/
theorem of_exists {ι : Type} {P : ι → σ → Prop} (h : ∀ i, Runs (P i) x Q E) : Runs (fun s => ∃ i, P i s) x Q E where
  ok s a t p run := by
    obtain ⟨i, p⟩ := p
    exact (h i).ok s a t p run
  error s e t p run := by
    obtain ⟨i, p⟩ := p
    exact (h i).error s e t p run

/-- Two properties of the same program. -/
theorem and (h : Runs P x Q E) (h' : Runs P' x Q' E') :
    Runs (fun s => P s ∧ P' s) x (fun s => Q s ∧ Q' s) fun s => E s ∧ E' s where
  ok s a t p run := ⟨h.ok s a t p.1 run, h'.ok s a t p.2 run⟩
  error s e t p run := ⟨h.error s e t p.1 run, h'.error s e t p.2 run⟩

/-- A program whose run is known. -/
theorem of_run {value : σ → α} {next : σ → σ} (run : ∀ s, x s = .ok (value s) (next s))
    (h : ∀ s, P s → Q (next s)) : Runs P x Q E where
  ok s a t p ran := by
    rw [run s] at ran
    cases ran
    exact h s p
  error s e t _ ran := by
    rw [run s] at ran
    cases ran

/-- A program that ends in one state only. -/
theorem of_state (h : ∀ s, P s → Runs (· = s) x Q E) : Runs P x Q E where
  ok s a t p run := (h s p).ok s a t rfl run
  error s e t p run := (h s p).error s e t rfl run

/-- Programs with the same run on a state. -/
theorem at_state {y : EStateM ε σ α} {s : σ} (same : x s = y s) (h : Runs (· = s) y Q E) : Runs (· = s) x Q E where
  ok s' a t here run := by
    subst here
    exact h.ok s' a t rfl (same.symm.trans run)
  error s' e t here run := by
    subst here
    exact h.error s' e t rfl (same.symm.trans run)

theorem bind (h : Runs P x Q E) (rest : ∀ a, Runs Q (f a) R E) : Runs P (x >>= f) R E where
  ok s b t p run := by
    change EStateM.bind x f s = _ at run
    unfold EStateM.bind at run
    cases first : x s with
    | ok a s' =>
      rw [first] at run
      exact (rest a).ok s' b t (h.ok s a s' p first) run
    | error e s' =>
      rw [first] at run
      cases run
  error s e t p run := by
    change EStateM.bind x f s = _ at run
    unfold EStateM.bind at run
    cases first : x s with
    | ok a s' =>
      rw [first] at run
      exact (rest a).error s' e t (h.ok s a s' p first) run
    | error e' s' =>
      rw [first] at run
      cases run
      exact h.error _ _ _ p first

theorem pure {a : α} (h : ∀ s, P s → Q s) : Runs P (pure a : EStateM ε σ α) Q E :=
  of_run (fun _ => rfl) h

theorem throw (e : ε) (h : ∀ s, P s → E s) : Runs P (throw e : EStateM ε σ α) Q E where
  ok s a t _ run := by cases run
  error s e' t p run := by
    cases run
    exact h s p

theorem modify {F : σ → σ} (h : ∀ s, P s → Q (F s)) : Runs P (modify F : EStateM ε σ PUnit) Q E :=
  of_run (fun _ => rfl) h

/-- A program that looks at its state before it goes on. -/
theorem get {f : σ → EStateM ε σ β} (rest : ∀ s, P s → Runs (· = s) (f s) R E) : Runs P (get >>= f) R E where
  ok s b t p run := (rest s p).ok s b t rfl run
  error s e t p run := (rest s p).error s e t rfl run

end Runs

end Leaving
