import Mathlib.Logic.Basic

/-!
# Computations in lockstep

Two programs with states and exceptions, each on a state of its own: `Together` says that they
return the same or throw the same, from related states to related states. `Gives` says it of a
program and an outcome that is known without its state. Both are closed under the steps of a
program, so that a proof follows the text the two have in common.
-/

namespace Lockstep
variable {ε σ τ α β : Type}

/-! ## Two programs -/

/-- Both return, or both throw the same. -/
inductive Ends (Q : α → β → σ → τ → Prop) (E : ε → σ → τ → Prop) : EStateM.Result ε σ α → EStateM.Result ε τ β → Prop
  | ok {a : α} {b : β} {s : σ} {t : τ} (h : Q a b s t) : Ends Q E (.ok a s) (.ok b t)
  | error {e : ε} {s : σ} {t : τ} (h : E e s t) : Ends Q E (.error e s) (.error e t)

/-- From states related by `P` to results and states related by `Q` where they return, to states related
by `E` where they throw. -/
def Together (P : σ → τ → Prop) (x : EStateM ε σ α) (y : EStateM ε τ β) (Q : α → β → σ → τ → Prop)
    (E : ε → σ → τ → Prop) : Prop :=
  ∀ s t, P s t → Ends Q E (x s) (y t)

section Rules
variable {γ δ : Type} {P P' : σ → τ → Prop} {Q Q' : α → β → σ → τ → Prop} {R : γ → δ → σ → τ → Prop}
variable {E E' : ε → σ → τ → Prop}
variable {x : EStateM ε σ α} {y : EStateM ε τ β} {f : α → EStateM ε σ γ} {g : β → EStateM ε τ δ}

theorem Ends.weaken {r : EStateM.Result ε σ α} {r' : EStateM.Result ε τ β} (h : Ends Q E r r')
    (ok : ∀ a b s t, Q a b s t → Q' a b s t) (error : ∀ e s t, E e s t → E' e s t) : Ends Q' E' r r' := by
  cases h with
  | ok q => exact .ok (ok _ _ _ _ q)
  | error e => exact .error (error _ _ _ e)

/-- Where the first program returns, so does the second. -/
theorem Ends.of_ok {a : α} {s : σ} {r : EStateM.Result ε τ β} (h : Ends Q E (.ok a s) r) :
    ∃ b t, r = .ok b t ∧ Q a b s t := by
  cases h with
  | ok q => exact ⟨_, _, rfl, q⟩

theorem Ends.bind {s : σ} {t : τ} (h : Ends Q E (x s) (y t)) (rest : ∀ a b s t, Q a b s t → Ends R E (f a s) (g b t)) :
    Ends R E ((x >>= f) s) ((y >>= g) t) := by
  change Ends R E (EStateM.bind x f s) (EStateM.bind y g t)
  unfold EStateM.bind
  cases left : x s <;> cases right : y t <;> rw [left, right] at h <;> cases h
  · exact rest _ _ _ _ ‹_›
  · exact .error ‹_›

namespace Together

theorem weaken (h : Together P x y Q E) (start : ∀ s t, P' s t → P s t) (ok : ∀ a b s t, Q a b s t → Q' a b s t)
    (error : ∀ e s t, E e s t → E' e s t) : Together P' x y Q' E' :=
  fun s t p => (h s t (start s t p)).weaken ok error

theorem pure {a : α} {b : β} (h : ∀ s t, P s t → Q a b s t) :
    Together P (pure a : EStateM ε σ α) (pure b : EStateM ε τ β) Q E :=
  fun s t p => .ok (h s t p)

theorem throw (e : ε) (h : ∀ s t, P s t → E e s t) :
    Together P (throw e : EStateM ε σ α) (throw e : EStateM ε τ β) Q E :=
  fun s t p => .error (h s t p)

theorem bind (h : Together P x y Q E) (rest : ∀ a b, Together (Q a b) (f a) (g b) R E) :
    Together P (x >>= f) (y >>= g) R E :=
  fun s t p => (h s t p).bind fun a b s t q => rest a b s t q

theorem modify {F : σ → σ} {G : τ → τ} {Q : PUnit → PUnit → σ → τ → Prop}
    (h : ∀ s t, P s t → Q ⟨⟩ ⟨⟩ (F s) (G t)) : Together P (modify F : EStateM ε σ PUnit) (modify G : EStateM ε τ PUnit) Q E :=
  fun s t p => .ok (h s t p)

/-- Programs that look at their states before they go on. -/
theorem get {f : σ → EStateM ε σ γ} {g : τ → EStateM ε τ δ} (rest : ∀ s t, P s t → Ends R E (f s s) (g t t)) :
    Together P (get >>= f) (get >>= g) R E :=
  fun s t p => rest s t p

end Together

end Rules

/-! ## A program and an outcome -/

/-- A run that returns what the outcome is, in a state of which `Q` holds, or throws what it is. -/
inductive Gives (Q : α → σ → Prop) : EStateM.Result ε σ α → Except ε α → Prop
  | ok {a : α} {s : σ} (h : Q a s) : Gives Q (.ok a s) (.ok a)
  | error {e : ε} {s : σ} : Gives Q (.error e s) (.error e)

namespace Gives
variable {Q Q' : α → σ → Prop} {R : β → σ → Prop} {o : Except ε α} {x : EStateM ε σ α}

theorem weaken {r : EStateM.Result ε σ α} (h : Gives Q r o) (ok : ∀ a s, o = .ok a → Q a s → Q' a s) : Gives Q' r o := by
  cases h with
  | ok q => exact .ok (ok _ _ rfl q)
  | error => exact .error

theorem bind {f : α → EStateM ε σ β} {g : α → Except ε β} {s : σ} (h : Gives Q (x s) o)
    (rest : ∀ a t, o = .ok a → Q a t → Gives R (f a t) (g a)) : Gives R ((x >>= f) s) (o >>= g) := by
  change Gives R (EStateM.bind x f s) (Except.bind o g)
  unfold EStateM.bind
  cases run : x s <;> rw [run] at h <;> cases h
  · exact rest _ _ rfl ‹_›
  · exact .error

/-- A step that does not fail and leaves the outcome to what follows. -/
theorem step {f : α → EStateM ε σ β} {s t : σ} {a : α} {o : Except ε β} (run : x s = .ok a t)
    (rest : Gives R (f a t) o) : Gives R ((x >>= f) s) o := by
  change Gives R (EStateM.bind x f s) o
  unfold EStateM.bind
  rw [run]
  exact rest

end Gives

/-! ## Outcomes -/

/-- A sequence that came to a value did so in both parts. -/
theorem of_bind_ok {o : Except ε α} {g : α → Except ε β} {b : β} (h : (o >>= g) = .ok b) :
    ∃ a, o = .ok a ∧ g a = .ok b := by
  cases o with
  | ok a => exact ⟨a, rfl, h⟩
  | error e => cases h

/-- A value that is put in and taken out again. -/
theorem bind_value (o : Except ε α) (b : β) {γ : Type} (g : β → Except ε γ) :
    ((o >>= fun _ => .ok b) >>= g) = (o >>= fun _ => g b) := by
  cases o <;> rfl

theorem bind_unit (o : Except ε Unit) : (o >>= fun _ => .ok ()) = o := by
  cases o <;> rfl

end Lockstep
