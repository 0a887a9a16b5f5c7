import SqlHandler.Posix.Regex

/-!
# How a run of the handler ends

A member function runs on the state of its object and ends with a value or with a
fault; the state reached stays, as it does when an exception leaves a member
function. `foreign` is an exception that is no `BESError`, with its text if it is a
`std::exception`. `undefined` is behaviour C++ does not define, `endless` a loop that
does not stop and `terminated` the end of the process, which an exception comes to
that is to leave a function whose specification does not name it; no `catch` sees any
of the three.
-/

namespace SqlHandler
open Posix

/-- The classes of exceptions the handler tells apart. -/
inductive ErrorKind where
  | sqlInternalError
  | sqlInternalFatalError
  | besInternalError
  | besInternalFatalError
  | besError
  deriving DecidableEq, Repr

/-- `BESError` and what derives from it, `get_message()` included. -/
structure BESError where
  kind : ErrorKind
  message : Str
  deriving DecidableEq, Repr

inductive Fault where
  | error (e : BESError)
  | foreign (what : Option Str)
  | undefined
  | endless
  | terminated
  deriving DecidableEq, Repr

/-- What leaves a function that is specified to throw `allowed` errors only. -/
def Fault.specified (allowed : ErrorKind → Bool) : Fault → Fault
  | .error e => if allowed e.kind then .error e else .terminated
  | .foreign _ => .terminated
  | fault => fault

/-- A member function of an object with state `σ`. -/
abbrev Proc (σ α : Type) := EStateM Fault σ α

namespace Proc
variable {σ τ α β : Type}

def raise (kind : ErrorKind) (message : Str) : Proc σ α := throw (.error ⟨kind, message⟩)

/-- `catch (BESError &e)` -/
def catchBES (x : Proc σ α) (handle : BESError → Proc σ α) : Proc σ α := fun s =>
  match x s with
  | .error (.error e) s' => handle e s'
  | r => r

/-- A function with the exception specification `throw(...)` of the `allowed` errors. -/
def throwOnly (allowed : ErrorKind → Bool) (x : Proc σ α) : Proc σ α := fun s =>
  match x s with
  | .ok a s' => .ok a s'
  | .error fault s' => .error (fault.specified allowed) s'

/-- A call on a part of the state. -/
def zoom (part : σ → τ) (put : σ → τ → σ) (x : Proc τ α) : Proc σ α := fun s =>
  match x (part s) with
  | .ok a t => .ok a (put s t)
  | .error e t => .error e (put s t)

theorem bind_ok {x : Proc σ α} {f : α → Proc σ β} {s s' : σ} {a : α} (h : x s = .ok a s') :
    (x >>= f) s = f a s' := by
  change EStateM.bind x f s = _
  rw [EStateM.bind, h]

theorem bind_error {x : Proc σ α} {f : α → Proc σ β} {s s' : σ} {e : Fault} (h : x s = .error e s') :
    (x >>= f) s = .error e s' := by
  change EStateM.bind x f s = _
  rw [EStateM.bind, h]

theorem modify_run (f : σ → σ) (s : σ) : (modify f : Proc σ Unit) s = .ok () (f s) := rfl

theorem get_bind (f : σ → Proc σ α) (s : σ) : ((get : Proc σ σ) >>= f) s = f s s := rfl

theorem set_bind (t : σ) (f : PUnit → Proc σ α) (s : σ) : ((set t : Proc σ PUnit) >>= f) s = f ⟨⟩ t := rfl

/-- A sequence that returned did so in both parts. -/
theorem of_bind_ok {x : Proc σ α} {f : α → Proc σ β} {s s' : σ} {b : β} (h : (x >>= f) s = .ok b s') :
    ∃ a t, x s = .ok a t ∧ f a t = .ok b s' := by
  cases run : x s with
  | ok a t =>
    rw [bind_ok run] at h
    exact ⟨a, t, rfl, h⟩
  | error fault t =>
    rw [bind_error run] at h
    cases h

/-- A sequence depends on the result of its first part alone. -/
theorem bind_congr {x x' : Proc σ α} {f : α → Proc σ β} {s s' : σ} (h : x s = x' s') : (x >>= f) s = (x' >>= f) s' := by
  change EStateM.bind x f s = EStateM.bind x' f s'
  rw [EStateM.bind, EStateM.bind, h]

theorem catchBES_ok {x : Proc σ α} {handle : BESError → Proc σ α} {s s' : σ} {a : α}
    (h : x s = .ok a s') : x.catchBES handle s = .ok a s' := by
  unfold catchBES
  rw [h]

theorem catchBES_error {x : Proc σ α} {handle : BESError → Proc σ α} {s s' : σ} {e : BESError}
    (h : x s = .error (.error e) s') : x.catchBES handle s = handle e s' := by
  unfold catchBES
  rw [h]

theorem catchBES_undefined {x : Proc σ α} {handle : BESError → Proc σ α} {s s' : σ}
    (h : x s = .error .undefined s') : x.catchBES handle s = .error .undefined s' := by
  unfold catchBES
  rw [h]

theorem zoom_ok {part : σ → τ} {put : σ → τ → σ} {x : Proc τ α} {s : σ} {t : τ} {a : α}
    (h : x (part s) = .ok a t) : zoom part put x s = .ok a (put s t) := by
  unfold zoom
  rw [h]

theorem zoom_error {part : σ → τ} {put : σ → τ → σ} {x : Proc τ α} {s : σ} {t : τ} {e : Fault}
    (h : x (part s) = .error e t) : zoom part put x s = .error e (put s t) := by
  unfold zoom
  rw [h]

/-- A function that a change of the state passes through. -/
def Commutes (f : σ → σ) (x : Proc σ α) : Prop :=
  ∀ s, x (f s) = match x s with
    | .ok a s' => .ok a (f s')
    | .error e s' => .error e (f s')

theorem Commutes.pure (f : σ → σ) (a : α) : Commutes f (pure a : Proc σ α) := fun _ => rfl

theorem Commutes.bind {f : σ → σ} {x : Proc σ α} {y : α → Proc σ β} (hx : Commutes f x)
    (hy : ∀ a, Commutes f (y a)) : Commutes f (x >>= y) := by
  intro s
  have first := hx s
  cases run : x s with
  | ok a s' =>
    simp only [run] at first
    rw [bind_ok run, bind_ok first]
    exact hy a s'
  | error fault s' =>
    simp only [run] at first
    rw [bind_error run, bind_error first]

theorem Commutes.ok {f : σ → σ} {x : Proc σ α} (h : Commutes f x) {s s' : σ} {a : α} (run : x s = .ok a s') :
    x (f s) = .ok a (f s') := by
  rw [h s, run]

theorem Commutes.error {f : σ → σ} {x : Proc σ α} (h : Commutes f x) {s s' : σ} {e : Fault} (run : x s = .error e s') :
    x (f s) = .error e (f s') := by
  rw [h s, run]

end Proc

end SqlHandler
