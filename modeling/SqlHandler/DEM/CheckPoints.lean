import SqlHandler.Handler.Actions
import Mathlib.Data.List.TakeWhile

/-!
# Check points

`SQLCheckPoint::init` and `check` on the static members of the class. `init` sets the bits
while it reads the list and takes none back when it throws, so the values in front of the
one it rejects stay active, before and after a later `init` (`answer_iff`). The list comes
from `TheBESKeys`, and `BESUtil::explode` cuts it at the commas. A value that no `int` holds
has no number that `atoi` must give, and ends a run of the model.
-/

namespace SqlHandler
open Posix

/-- `_SQLH_CHECK_SIZE` -/
def checkSize : Nat := 6

/-- `_SQLH_CHECKS` -/
def CheckPoint.code : CheckPoint → Nat
  | .onAlways => 0
  | .onConnect => 1
  | .onClose => 2
  | .onQuery => 3
  | .onGetNext => 4
  | .onNextRow => 5
  | .onCustom => 6

/-- The number a text begins with. -/
def leadingNumber (s : Str) : Nat := (s.takeWhile Char.isDigit).foldl (fun n c => 10 * n + (c.toNat - '0'.toNat)) 0

/-- The number `atoi` reads, of any size. -/
def numberOf (s : Str) : Int :=
  match s.dropWhile fun c => [' ', '\t', '\n', '\x0b', '\x0c', '\r'].contains c with
  | '-' :: rest => -leadingNumber rest
  | '+' :: rest => leadingNumber rest
  | rest => leadingNumber rest

/-- `atoi`; its behaviour is undefined where an `int` does not hold the number. -/
def atoi (s : Str) : Option Int := if -2 ^ 31 ≤ numberOf s ∧ numberOf s < 2 ^ 31 then some (numberOf s) else none

/-- The static members of `SQLCheckPoint`. -/
structure SQLCheckPoint where
  isSet : Bool
  function : Nat → Bool
  lastTypeChecked : Nat
  lastStatus : Bool

namespace SQLCheckPoint

/-- The members when the program starts. -/
def start : SQLCheckPoint := ⟨false, fun _ => false, 0, false⟩

/-- A value that `init` accepts. -/
def good (token : Str) : Bool := (atoi token).any fun val : Int => decide (val < checkSize) && decide (0 < val)

/-- The check point of a value that is accepted. -/
def pointOf (token : Str) : Nat := ((atoi token).getD 0).toNat

/-- `function.set(val, true)` -/
def setFunction (val : Nat) (s : SQLCheckPoint) : SQLCheckPoint := { s with function := fun t => t == val || s.function t }

def badValue : Fault := .error ⟨.besInternalError, "Bad value into \"SQL.CheckPoint\" key set.".toList⟩

/-- The loop over the values of one line. -/
def setTokens : List Str → Proc SQLCheckPoint Unit
  | [] => return ()
  | token :: rest =>
    match atoi token with
    | none => throw .undefined
    | some val =>
      if val < checkSize ∧ 0 < val then do
        modify (setFunction val.toNat)
        setTokens rest
      else throw badValue

variable (explode : Str → List Str)

/-- The loop over the lines of the key. -/
def setValues : List Str → Proc SQLCheckPoint Unit
  | [] => return ()
  | value :: rest => do
    setTokens (explode value)
    setValues rest

/-- `init`, on the lines of the key if it is there. -/
def init (config : Option (List Str)) : Proc SQLCheckPoint Bool := do
  if (← get).isSet then return true
  else do
    modify fun s => { s with lastStatus := false, lastTypeChecked := checkSize + 1 }
    match config with
    | none => Proc.raise .besInternalError "Unable to find \"SQL.CheckPoint\" key into configuration file".toList
    | some values => do
      setValues explode values
      modify fun s => { s with isSet := true }
      return true

/-- `check`; `function` has no bit from `_SQLH_CHECK_SIZE` on. -/
def check (type : Nat) : Proc SQLCheckPoint Bool := do
  let s ← get
  if type = s.lastTypeChecked then return s.lastStatus
  else if type < checkSize then do
    set { s with lastTypeChecked := type, lastStatus := s.function type }
    return s.function type
  else throw .undefined

/-! ## Runs -/

/-- A call from outside. -/
inductive Event where
  | init (config : Option (List Str))
  | check (t : CheckPoint)
  deriving DecidableEq

/-- A call; who calls `init` goes on when it throws. -/
def perform : Event → Proc SQLCheckPoint Unit
  | .init config => Proc.catchBES (do let _ ← init explode config) fun _ => return ()
  | .check t => do let _ ← check t.code

def performAll : List Event → Proc SQLCheckPoint Unit
  | [] => return ()
  | e :: es => do
    perform explode e
    performAll es

/-! ## What the configuration says -/

/-- The values of a configuration. -/
def tokens (config : Option (List Str)) : List Str := (config.getD []).flatMap explode

/-- The call is an `init` whose configuration is accepted. -/
def Event.accepted : Event → Bool
  | .init config => config.isSome && (tokens explode config).all good
  | .check _ => false

/-- The check points of a configuration, up to a value that is rejected. -/
def Event.values : Event → List Nat
  | .init config => ((tokens explode config).takeWhile good).map pointOf
  | .check _ => []

/-- The first value that is not accepted has a number no `int` holds. -/
def Event.overflows : Event → Bool
  | .init config => ((tokens explode config).find? fun token => !good token).any fun token => (atoi token).isNone
  | .check _ => false

/-- What the first `init` that succeeded has listed. -/
def listed (es : List Event) : List Nat := (es.find? (Event.accepted explode)).toList.flatMap (Event.values explode)

/-- What stood in front of a rejected value before an `init` succeeded. -/
def leaked (es : List Event) : List Nat :=
  (es.takeWhile fun e => !e.accepted explode).flatMap (Event.values explode)

/-! ## Steps -/

variable {explode}

/-- The bits of a state with those of a list. -/
def withBits (l : List Nat) (s : SQLCheckPoint) : SQLCheckPoint := l.foldl (fun s val => setFunction val s) s

theorem withBits_eq (l : List Nat) (s : SQLCheckPoint) :
    withBits l s = { s with function := fun t => decide (t ∈ l) || s.function t } := by
  induction l generalizing s with
  | nil => simp [withBits]
  | cons val l ih =>
    refine (ih (setFunction val s)).trans ?_
    simp only [setFunction, mk.injEq, true_and, and_true]
    funext t
    by_cases here : t = val
    · simp [here]
    · simp [here, beq_false_of_ne here]

/-- What the values of a list end in. -/
def verdict (l : List Str) : Except Fault Unit :=
  match l.find? fun token => !good token with
  | none => .ok ()
  | some token => if (atoi token).isNone then .error .undefined else .error badValue

theorem verdict_cons (token : Str) (l : List Str) : verdict (token :: l) =
    if good token then verdict l else if (atoi token).isNone then .error .undefined else .error badValue := by
  unfold verdict
  rw [List.find?_cons]
  cases good token <;> rfl

/-- A call that ended so, in a state. -/
def endsIn {α : Type} (s : SQLCheckPoint) : Except Fault α → EStateM.Result Fault SQLCheckPoint α
  | .ok a => .ok a s
  | .error fault => .error fault s

/-- The values of a line are set up to the first that is not accepted. -/
theorem setTokens_run (l : List Str) (s : SQLCheckPoint) :
    setTokens l s = endsIn (withBits ((l.takeWhile good).map pointOf) s) (verdict l) := by
  induction l generalizing s with
  | nil => rfl
  | cons token l ih =>
    unfold setTokens
    rw [verdict_cons, List.takeWhile_cons]
    cases number : atoi token with
    | none =>
      have rejected : good token = false := by simp [good, number]
      rw [rejected]
      rfl
    | some val =>
      have judged : good token = decide (val < checkSize ∧ 0 < val) := by simp [good, number, Bool.decide_and]
      have point : pointOf token = val.toNat := by simp [pointOf, number]
      by_cases inside : val < checkSize ∧ 0 < val
      · have accepted : good token = true := judged.trans (decide_eq_true inside)
        simp only [if_pos inside, accepted, if_true, List.map_cons, point]
        rw [Proc.bind_ok (Proc.modify_run _ s), ih]
        rfl
      · have rejected : good token = false := judged.trans (decide_eq_false inside)
        rw [rejected]
        simp only [if_neg inside]
        rfl

theorem setValues_run (values : List Str) (s : SQLCheckPoint) :
    setValues explode values s = setTokens (values.flatMap explode) s := by
  have append : ∀ l l' : List Str, setTokens (l ++ l') = (do setTokens l; setTokens l') := by
    intro l l'
    induction l with
    | nil => rfl
    | cons token l ih =>
      funext s
      rw [List.cons_append, setTokens, setTokens]
      cases atoi token with
      | none => rfl
      | some val =>
        by_cases inside : val < checkSize ∧ 0 < val
        · simp only [if_pos inside, ih]
          rfl
        · simp only [if_neg inside]
          rfl
  induction values generalizing s with
  | nil => rfl
  | cons value values ih =>
    rw [setValues, List.flatMap_cons, append]
    exact congrArg (fun rest => (setTokens (explode value) >>= fun _ => rest) s) (funext ih)

/-- The state `init` leaves, whether it throws or not. -/
def afterInit (explode : Str → List Str) (config : Option (List Str)) (s : SQLCheckPoint) : SQLCheckPoint :=
  if s.isSet then s
  else { withBits (Event.values explode (.init config)) { s with lastStatus := false, lastTypeChecked := checkSize + 1 } with
    isSet := Event.accepted explode (.init config) }

theorem init_set (config : Option (List Str)) {s : SQLCheckPoint} (done : s.isSet = true) :
    init explode config s = .ok true (afterInit explode config s) := by
  unfold afterInit init
  rw [Proc.get_bind, if_pos done, if_pos done]
  rfl

/-- The list of a configuration is accepted, rejected, or has a number that is none. -/
theorem init_values {s : SQLCheckPoint} (unset : s.isSet = false) (values : List Str) :
    init explode (some values) s = match verdict (tokens explode (some values)) with
      | .ok () => .ok true (afterInit explode (some values) s)
      | .error fault => .error fault (afterInit explode (some values) s) := by
  have run := @setValues_run explode values { s with lastStatus := false, lastTypeChecked := checkSize + 1 }
  rw [setTokens_run] at run
  unfold afterInit init
  rw [Proc.get_bind, if_neg (by simp [unset]), if_neg (by simp [unset]), Proc.bind_ok (Proc.modify_run _ s)]
  change ((setValues explode values >>= fun _ => (do modify fun s => { s with isSet := true }; return true)) _ = _)
  have same : tokens explode (some values) = values.flatMap explode := rfl
  rw [same]
  cases ends : verdict (values.flatMap explode) with
  | ok u =>
    rw [ends] at run
    have all : (values.flatMap explode).all good = true := by
      unfold verdict at ends
      split at ends
      · rename_i none'
        simpa using none'
      · split at ends <;> cases ends
    rw [Proc.bind_ok run]
    simp only [Event.values, Event.accepted, same, all, Option.isSome_some, Bool.true_and]
    rfl
  | error fault =>
    rw [ends] at run
    have some' : (values.flatMap explode).all good = false := by
      unfold verdict at ends
      split at ends
      · cases ends
      · rename_i token found
        rw [List.all_eq_false]
        exact ⟨token, List.mem_of_find?_eq_some found, by simpa using List.find?_some found⟩
    rw [Proc.bind_error run]
    simp only [Event.values, Event.accepted, same, some', Option.isSome_some, Bool.true_and]
    rw [withBits_eq]
    simp [unset]

/-- `init`, but where it is the first to read a number that is none. -/
theorem init_run (config : Option (List Str)) {s : SQLCheckPoint}
    (fits : s.isSet = true ∨ Event.overflows explode (.init config) = false) :
    init explode config s = .ok true (afterInit explode config s) ∨
      ∃ e, init explode config s = .error (.error e) (afterInit explode config s) := by
  cases set' : s.isSet with
  | true => exact .inl (init_set config set')
  | false =>
    rw [set'] at fits
    have fits := fits.resolve_left Bool.false_ne_true
    cases config with
    | none =>
      refine .inr ⟨⟨.besInternalError, "Unable to find \"SQL.CheckPoint\" key into configuration file".toList⟩, ?_⟩
      unfold afterInit init
      rw [Proc.get_bind, if_neg (by simp [set']), if_neg (by simp [set']), Proc.bind_ok (Proc.modify_run _ s)]
      have kept : (⟨false, s.function, checkSize + 1, false⟩ : SQLCheckPoint) =
          { s with lastStatus := false, lastTypeChecked := checkSize + 1 } := by rw [set']
      exact congrArg (EStateM.Result.error _) kept.symm
    | some values =>
      rw [init_values set']
      cases found : (tokens explode (some values)).find? fun token => !good token with
      | none =>
        simp only [verdict, found]
        exact .inl trivial
      | some token =>
        simp only [Event.overflows, found, Option.any_some] at fits
        simp only [verdict, found, fits]
        exact .inr ⟨_, rfl⟩

/-- `init`, where it is the first to read a number that is none. -/
theorem init_overflows {config : Option (List Str)} {s : SQLCheckPoint} (unset : s.isSet = false)
    (overflows : Event.overflows explode (.init config) = true) :
    init explode config s = .error .undefined (afterInit explode config s) := by
  cases config with
  | none => cases overflows
  | some values =>
    rw [init_values unset]
    cases found : (tokens explode (some values)).find? fun token => !good token with
    | none =>
      simp only [Event.overflows, found] at overflows
      cases overflows
    | some token =>
      simp only [Event.overflows, found, Option.any_some] at overflows
      simp only [verdict, found, overflows, if_true]

/-! ## Runs from the start -/

/-- What a state says after some calls. -/
structure Reached (explode : Str → List Str) (es : List Event) (s : SQLCheckPoint) : Prop where
  isSet : s.isSet = (es.find? (Event.accepted explode)).isSome
  function : ∀ t, s.function t = decide (t ∈ leaked explode es ∨ t ∈ listed explode es)
  last : s.lastTypeChecked = checkSize + 1 ∨ s.lastTypeChecked < checkSize ∧ s.lastStatus = s.function s.lastTypeChecked

theorem start_reached (explode : Str → List Str) : Reached explode [] start where
  isSet := rfl
  function _ := by simp [start, leaked, listed]
  last := .inr ⟨by decide, rfl⟩

/-- What is listed and leaked once an `init` has succeeded stays. -/
theorem append_done {es : List Event} (e : Event) (done : (es.find? (Event.accepted explode)).isSome = true) :
    leaked explode (es ++ [e]) = leaked explode es ∧ listed explode (es ++ [e]) = listed explode es := by
  obtain ⟨first, found⟩ := Option.isSome_iff_exists.1 done
  have short : ((es.takeWhile fun e => !e.accepted explode).length = es.length) → False := by
    intro whole
    have taken : (es.takeWhile fun e => !e.accepted explode) = es :=
      (List.takeWhile_prefix fun e : Event => !e.accepted explode).eq_of_length whole
    have all := List.takeWhile_eq_self_iff.1 taken
    have rejected := all first (List.mem_of_find?_eq_some found)
    rw [List.find?_some found] at rejected
    cases rejected
  constructor
  · rw [leaked, List.takeWhile_append, if_neg short, leaked]
  · rw [listed, List.find?_append, found, listed, found]
    rfl

/-- Until then the values of a rejected call are leaked, those of an accepted one listed. -/
theorem append_first {es : List Event} (e : Event) (none : es.find? (Event.accepted explode) = none) :
    leaked explode (es ++ [e]) = leaked explode es ++ (if e.accepted explode then [] else e.values explode) ∧
      listed explode es = [] ∧ listed explode (es ++ [e]) = if e.accepted explode then e.values explode else [] := by
  have all : ∀ d ∈ es, (!d.accepted explode) = true := by
    intro d mem
    simpa using List.find?_eq_none.1 none d mem
  have whole : (es.takeWhile fun e => !e.accepted explode) = es := List.takeWhile_eq_self_iff.2 all
  refine ⟨?_, by rw [listed, none]; rfl, ?_⟩
  · rw [leaked, List.takeWhile_append_of_pos all, List.flatMap_append, leaked, whole, List.takeWhile_cons]
    cases e.accepted explode <;> simp
  · rw [listed, List.find?_append, none, Option.none_or, List.find?_singleton]
    cases e.accepted explode <;> simp

theorem Reached.init {es : List Event} {s : SQLCheckPoint} (h : Reached explode es s) (config : Option (List Str)) :
    Reached explode (es ++ [.init config]) (afterInit explode config s) := by
  unfold afterInit
  cases found : es.find? (Event.accepted explode) with
  | some first =>
    have done : (es.find? (Event.accepted explode)).isSome = true := by rw [found]; rfl
    obtain ⟨sameLeaked, sameListed⟩ := append_done (.init config) done
    rw [if_pos (h.isSet.trans done)]
    refine ⟨?_, ?_, h.last⟩
    · rw [h.isSet, List.find?_append, found]
      rfl
    · rw [sameLeaked, sameListed]
      exact h.function
  | none =>
    obtain ⟨moreLeaked, noneListed, nowListed⟩ := append_first (.init config) found
    have unset : s.isSet = false := by rw [h.isSet, found]; rfl
    rw [if_neg (by simp [unset]), withBits_eq]
    refine ⟨?_, ?_, .inl rfl⟩
    · rw [List.find?_append, found, Option.none_or, List.find?_singleton]
      cases Event.accepted explode (.init config) <;> rfl
    · intro t
      have before := h.function t
      rw [noneListed] at before
      rw [moreLeaked, nowListed]
      change (decide (t ∈ Event.values explode (.init config)) || s.function t) = _
      rw [before]
      cases Event.accepted explode (.init config) <;> simp [Bool.or_comm]

/-- A check gives the bit, from the members or from the answer kept. -/
theorem Reached.check {es : List Event} {s : SQLCheckPoint} (h : Reached explode es s) {t : CheckPoint} (inside : t ≠ .onCustom) :
    ∃ s', check t.code s = .ok (s.function t.code) s' ∧ Reached explode (es ++ [.check t]) s' := by
  have lt : t.code < checkSize := by
    cases t <;> first | exact absurd rfl inside | decide
  have same : leaked explode (es ++ [.check t]) = leaked explode es ∧ listed explode (es ++ [.check t]) = listed explode es ∧
      ((es ++ [Event.check t]).find? (Event.accepted explode)).isSome = (es.find? (Event.accepted explode)).isSome := by
    cases found : es.find? (Event.accepted explode) with
    | some first =>
      obtain ⟨sameLeaked, sameListed⟩ := append_done (.check t) (by rw [found]; rfl)
      exact ⟨sameLeaked, sameListed, by rw [List.find?_append, found]; rfl⟩
    | none =>
      obtain ⟨moreLeaked, noneListed, nowListed⟩ := append_first (.check t) found
      refine ⟨by simpa [Event.accepted, Event.values] using moreLeaked, nowListed.trans noneListed.symm, ?_⟩
      rw [List.find?_append, found]
      rfl
  unfold SQLCheckPoint.check
  rw [Proc.get_bind]
  split
  · rename_i again
    rcases h.last with never | ⟨-, kept⟩
    · rw [never] at again
      exact absurd lt (by rw [again]; decide)
    · refine ⟨s, by rw [again, ← kept]; rfl, ?_⟩
      rw [← again] at kept
      exact ⟨h.isSet.trans same.2.2.symm, by rw [same.1, same.2.1]; exact h.function, h.last⟩
  · exact ⟨_, rfl, h.isSet.trans same.2.2.symm, by rw [same.1, same.2.1]; exact h.function, .inr ⟨lt, rfl⟩⟩

/-- A call whose behaviour is defined behind the calls `es`: no check of `_SQLH_ON_CUSTOM`, and no `init`
that reads a number no `int` holds before one has succeeded. -/
def Defined (explode : Str → List Str) (es : List Event) (e : Event) : Prop :=
  e ≠ .check .onCustom ∧ ((es.find? (Event.accepted explode)).isSome = true ∨ e.overflows explode = false)

/-- A call that is defined returns. -/
theorem Reached.perform {past : List Event} {e : Event} {s : SQLCheckPoint} (h : Reached explode past s)
    (defined : Defined explode past e) :
    ∃ s', SQLCheckPoint.perform explode e s = .ok () s' ∧ Reached explode (past ++ [e]) s' := by
  obtain ⟨inside, fits⟩ := defined
  cases e with
  | init config =>
    refine ⟨_, ?_, h.init config⟩
    rcases init_run config (fits.imp_left h.isSet.trans) with run | ⟨err, run⟩
    · exact Proc.catchBES_ok (Proc.bind_ok run)
    · exact Proc.catchBES_error (Proc.bind_error run)
  | check t =>
    obtain ⟨s', run, reached⟩ := h.check fun e => inside (congrArg Event.check e)
    exact ⟨s', Proc.bind_ok run, reached⟩

/-- A check of `_SQLH_ON_CUSTOM` reads a bit that is not there. -/
theorem custom_undefined {es : List Event} {s : SQLCheckPoint} (h : Reached explode es s) :
    SQLCheckPoint.check CheckPoint.onCustom.code s = .error .undefined s := by
  unfold SQLCheckPoint.check
  have other : CheckPoint.onCustom.code ≠ s.lastTypeChecked := by
    rcases h.last with never | ⟨lt, -⟩
    · rw [never]
      decide
    · exact fun e => absurd (e ▸ lt : CheckPoint.onCustom.code < checkSize) (by decide)
  rw [Proc.get_bind, if_neg other]
  rfl

/-- A call that returns is defined. -/
theorem Reached.defined {past : List Event} {e : Event} {s s' : SQLCheckPoint} (h : Reached explode past s)
    (run : SQLCheckPoint.perform explode e s = .ok () s') : Defined explode past e := by
  cases e with
  | init config =>
    refine ⟨by simp, ?_⟩
    by_contra wild
    obtain ⟨first, overflows⟩ := not_or.1 wild
    have unset : s.isSet = false := h.isSet.trans (Bool.eq_false_iff.2 first)
    have ends := init_overflows unset ((Bool.not_eq_false _).mp overflows)
    rw [SQLCheckPoint.perform, Proc.catchBES_undefined (Proc.bind_error ends)] at run
    cases run
  | check t =>
    refine ⟨fun custom => ?_, .inr rfl⟩
    cases custom
    obtain ⟨b, s₂, check, -⟩ := Proc.of_bind_ok run
    rw [custom_undefined h] at check
    cases check

/-- Every call of a run is defined behind the calls before it. -/
def AllDefined (explode : Str → List Str) (past es : List Event) : Prop :=
  ∀ before e, before ++ [e] <+: es → Defined explode (past ++ before) e

theorem allDefined_cons {past es : List Event} {e : Event} :
    AllDefined explode past (e :: es) ↔ Defined explode past e ∧ AllDefined explode (past ++ [e]) es := by
  constructor
  · intro all
    refine ⟨by simpa using all [] e (by simp), fun before d pre => ?_⟩
    simpa using all (e :: before) d (by simpa using pre)
  · rintro ⟨first, rest⟩ before d pre
    cases before with
    | nil =>
      obtain rfl : d = e := by simpa using pre
      simpa using first
    | cons d' before =>
      obtain ⟨rfl, behind⟩ : d' = e ∧ before ++ [d] <+: es := by simpa using pre
      simpa using rest before d behind

/-- A run of defined calls goes on to its end. -/
theorem performAll_reached {past : List Event} (es : List Event) {s : SQLCheckPoint} (h : Reached explode past s)
    (defined : AllDefined explode past es) :
    ∃ s', performAll explode es s = .ok () s' ∧ Reached explode (past ++ es) s' := by
  induction es generalizing past s with
  | nil => exact ⟨s, rfl, by simpa using h⟩
  | cons e es ih =>
    obtain ⟨first, rest⟩ := allDefined_cons.1 defined
    obtain ⟨s₁, run, reached⟩ := h.perform first
    obtain ⟨s₂, last, reached⟩ := ih reached rest
    refine ⟨s₂, ?_, by simpa using reached⟩
    rw [performAll, Proc.bind_ok run]
    exact last

/-- No other run does. -/
theorem performAll_defined {past : List Event} (es : List Event) {s s' : SQLCheckPoint} (h : Reached explode past s)
    (run : performAll explode es s = .ok () s') : AllDefined explode past es := by
  induction es generalizing past s with
  | nil => exact fun before e pre => by simp at pre
  | cons e es ih =>
    obtain ⟨⟨⟩, s₁, first, rest⟩ := Proc.of_bind_ok run
    have defined := h.defined first
    obtain ⟨s₁', again, reached⟩ := h.perform defined
    rw [first] at again
    cases again
    exact allDefined_cons.2 ⟨defined, ih reached rest⟩

/-- The check after a run answers what the first `init` that succeeded has listed. -/
def Right (explode : Str → List Str) (es : List Event) (t : CheckPoint) : Prop :=
  ∃ s s', performAll explode es start = .ok () s ∧ SQLCheckPoint.check t.code s = .ok (decide (t.code ∈ listed explode es)) s'

/-- It does so if and only if every call is defined, no check being of `_SQLH_ON_CUSTOM` and no list that
is read having a number beyond an `int`, and the check point was not set in front of a rejected value
unless it is listed as well. Nothing is assumed of how the lines are cut. -/
theorem answer_iff (explode : Str → List Str) (es : List Event) (t : CheckPoint) : Right explode es t ↔
    (AllDefined explode [] es ∧ t ≠ .onCustom) ∧ (t.code ∈ leaked explode es → t.code ∈ listed explode es) := by
  constructor
  · rintro ⟨s, s', run, check⟩
    have defined := performAll_defined es (start_reached explode) run
    obtain ⟨s₁, run₁, reached⟩ := performAll_reached es (start_reached explode) defined
    rw [run] at run₁
    cases run₁
    have notCustom : t ≠ .onCustom := by
      rintro rfl
      rw [custom_undefined reached] at check
      cases check
    refine ⟨⟨defined, notCustom⟩, fun leak => ?_⟩
    obtain ⟨s₂, check₂, -⟩ := reached.check notCustom
    rw [check] at check₂
    have answers : decide (t.code ∈ listed explode es) = s.function t.code := by
      injection check₂
    rw [reached.function] at answers
    simpa [leak] using answers
  · rintro ⟨⟨defined, notCustom⟩, kept⟩
    obtain ⟨s, run, reached⟩ := performAll_reached es (start_reached explode) defined
    obtain ⟨s', check, -⟩ := reached.check notCustom
    refine ⟨s, s', run, ?_⟩
    rw [check, reached.function]
    have same : t.code ∈ leaked explode es ∨ t.code ∈ listed explode es ↔ t.code ∈ listed explode es :=
      ⟨fun either => either.elim kept id, .inr⟩
    simp only [List.nil_append, same]

/-- A list whose second value is rejected leaves the first one active. -/
theorem rejected_active : ∃ s s', performAll (fun s => s.splitOn ',') [.init (some ["1,9".toList])] start = .ok () s ∧
    SQLCheckPoint.check CheckPoint.onConnect.code s = .ok true s' ∧
    CheckPoint.onConnect.code ∉ listed (fun s => s.splitOn ',') [.init (some ["1,9".toList])] :=
  ⟨_, _, rfl, rfl, by decide⟩

end SQLCheckPoint

end SqlHandler
