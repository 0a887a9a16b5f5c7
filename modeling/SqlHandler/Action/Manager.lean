import SqlHandler.Handler.Actions

/-!
# The action manager

`SQLActionManager::doActions` for any factory, its member functions and its actions
working on a world of their own. A session of the factory is what it is to be asked
for: codes up to NULL or `stop`, the list of each, and of the list the actions up to
the first that contributes nothing. Where the codes end, `doActions` ends as the
session says, and a factory that notes its calls finds those of the session noted.
-/

namespace SqlHandler
open Posix

/-- `SQLAction::action` -/
abbrev SQLAction (σ Args Out : Type) := Option Args → Proc σ (Option Out)

/-- `SQLActionFactory`. The list `getActions` hands out is reset; from then on it is the
actions its iterator has before it. -/
structure SQLActionFactory (σ Code Args Out : Type) where
  getCode : Proc σ (Option Code)
  getActions : Code → Proc σ (List (SQLAction σ Args Out))
  getArgs : Code → Proc σ (Option Args)
  stop : Code → Proc σ Bool

namespace SQLActionFactory
variable {σ Code Args Out Merge Join : Type}

/-! ## `doActions` -/

/-- `SQLActionManager::merge` -/
def merge (previous : Option Merge) (_actual : Option Out) : Option Merge := previous

/-- `SQLActionManager::join` -/
def join (previous : Option Join) (_actual : Option Merge) : Option Join := previous

/-- `SQLActionManager::tryNext`, `actions.doNext(args)` being the next action on its arguments. -/
def tryNext (action : SQLAction σ Args Out) (args : Option Args) : Proc σ (Option Out) := fun s =>
  match action args s with
  | .ok out s' => .ok out s'
  | .error fault s' =>
    match SQLActionManager.tryNext (.error fault : ActionResult Out) with
    | .ok out => .ok out s'
    | .error fault => .error fault s'

/-- The arguments of the next action: asked for once a list, or once an action. -/
def nextArgs (f : SQLActionFactory σ Code Args Out) (multipleArgs firstTime : Bool) (code : Code)
    (args : Option Args) : Proc σ (Option Args) :=
  if multipleArgs then f.getArgs code else if firstTime then f.getArgs code else return args

/-- The body of the loop over the actions of one code. -/
def runNext (f : SQLActionFactory σ Code Args Out) (multipleArgs firstTime : Bool) (code : Code)
    (args : Option Args) (action : SQLAction σ Args Out) : Proc σ (Option Args × Option Out) := do
  let args ← f.nextArgs multipleArgs firstTime code args
  let out ← tryNext action args
  return (args, out)

/-- The loop over the actions of one code. `catch (SQLInternalError &)` stands around it and
`_merge` outside, so what is merged so far stays. -/
def runActions (f : SQLActionFactory σ Code Args Out) (mergeF : Option Merge → Option Out → Option Merge)
    (multipleArgs : Bool) (code : Code) :
    Bool → Option Args → Option Merge → List (SQLAction σ Args Out) → Proc σ (Option Merge)
  | _, _, merged, [] => return merged
  | firstTime, args, merged, action :: rest => fun s =>
    match f.runNext multipleArgs firstTime code args action s with
    | .ok (args, out) s' =>
      runActions f mergeF multipleArgs code (firstTime && multipleArgs) args (mergeF merged out) rest s'
    | .error (.error ⟨.sqlInternalError, _⟩) s' => .ok merged s'
    | .error fault s' => .error fault s'

/-- The loop over the codes, which the factory alone ends. -/
def runCodes (f : SQLActionFactory σ Code Args Out) (mergeF : Option Merge → Option Out → Option Merge)
    (joinF : Option Join → Option Merge → Option Join) (multipleArgs : Bool) :
    Nat → Option Join → Proc σ (Option Join)
  | 0, _ => throw .endless
  | fuel + 1, joined => do
    match ← f.getCode with
    | none => return joined
    | some code => do
      let actions ← f.getActions code
      let merged ← f.runActions mergeF multipleArgs code true none none actions
      let joined := joinF joined merged
      if ← f.stop code then return joined
      runCodes f mergeF joinF multipleArgs fuel joined

/-- `SQLActionManager::doActions`, a NULL function being `none` -/
def doActions (f : SQLActionFactory σ Code Args Out) (mergeF : Option (Option Merge → Option Out → Option Merge))
    (joinF : Option (Option Join → Option Merge → Option Join)) (multipleArgs : Bool) (fuel : Nat) :
    Proc σ (Option Join) :=
  f.runCodes (mergeF.getD merge) (joinF.getD join) multipleArgs fuel none

/-! ## Factories whose answers are given

A factory that asks nothing of its world but the next answer runs as
`SQLActionManager.doActions` does on the answers. -/

/-- The value a run leaves. -/
def valueOf {τ α : Type} : EStateM.Result Fault τ α → Except Fault α
  | .ok a _ => .ok a
  | .error fault _ => .error fault

def given {τ α : Type} : Except Fault α → Proc τ α
  | .ok a => return a
  | .error fault => throw fault

def ofAnswers : SQLActionFactory (ActionFactory Out) (CodeStep Out) Unit Out where
  getCode
    | [] => .ok none []
    | .ok step :: rest => .ok (some step) rest
    | .error fault :: rest => .error fault rest
  getActions step := (fun actions => actions.map fun action _ => given action) <$> given step.actions
  getArgs _ := return none
  stop step := return step.stop

theorem tryNext_given {τ : Type} (action : ActionResult Out) (args : Option Args) (t : τ) :
    tryNext (fun _ => given action) args t = given (SQLActionManager.tryNext action) t := by
  cases action with
  | ok out => rfl
  | error fault =>
    change (match SQLActionManager.tryNext (.error fault : ActionResult Out) with
      | .ok out => EStateM.Result.ok out t
      | .error fault => EStateM.Result.error fault t) = _
    cases SQLActionManager.tryNext (.error fault : ActionResult Out) with
    | ok out => rfl
    | error fault => rfl

theorem runActions_ofAnswers (mergeF : Option Merge → Option Out → Option Merge) (multipleArgs : Bool)
    (step : CodeStep Out) (actions : List (ActionResult Out)) (firstTime : Bool) (args : Option Unit)
    (merged : Option Merge) (s : ActionFactory Out) :
    ofAnswers.runActions mergeF multipleArgs step firstTime args merged (actions.map fun action _ => given action) s =
      given (SQLActionManager.runActions mergeF merged actions) s := by
  induction actions generalizing firstTime args merged with
  | nil => rfl
  | cons action rest ih =>
    have turn : ∃ args', ofAnswers.runNext multipleArgs firstTime step args (fun _ => given action) s =
        given ((SQLActionManager.tryNext action).map fun out => (args', out)) s := by
      obtain ⟨args', asked⟩ : ∃ args', ofAnswers.nextArgs multipleArgs firstTime step args s = .ok args' s := by
        unfold nextArgs
        cases multipleArgs with
        | true => exact ⟨_, rfl⟩
        | false => cases firstTime <;> exact ⟨_, rfl⟩
      refine ⟨args', ?_⟩
      have tried := tryNext_given action args' s
      unfold runNext
      rw [Proc.bind_ok asked]
      cases h : SQLActionManager.tryNext action with
      | ok out => rw [Proc.bind_ok (by rw [tried, h]; rfl)]; rfl
      | error fault => rw [Proc.bind_error (by rw [tried, h]; rfl)]; rfl
    obtain ⟨args', turn⟩ := turn
    rw [List.map_cons]
    unfold runActions SQLActionManager.runActions
    rw [turn]
    cases SQLActionManager.tryNext action with
    | ok out => exact ih (firstTime && multipleArgs) args' (mergeF merged out)
    | error fault =>
      cases fault with
      | error e =>
        obtain ⟨kind, message⟩ := e
        cases kind <;> rfl
      | foreign what => rfl
      | undefined => rfl
      | endless => rfl
      | terminated => rfl

theorem runCodes_ofAnswers (mergeF : Option Merge → Option Out → Option Merge)
    (joinF : Option Join → Option Merge → Option Join) (multipleArgs : Bool) (factory : ActionFactory Out)
    (fuel : Nat) (enough : factory.length < fuel) (joined : Option Join) :
    valueOf (ofAnswers.runCodes mergeF joinF multipleArgs fuel joined factory) =
      SQLActionManager.doActions mergeF joinF joined factory := by
  induction factory generalizing fuel joined with
  | nil =>
    obtain ⟨fuel, rfl⟩ := Nat.exists_eq_succ_of_ne_zero (Nat.ne_of_gt enough)
    rfl
  | cons answer rest ih =>
    obtain ⟨fuel, rfl⟩ := Nat.exists_eq_succ_of_ne_zero (Nat.ne_of_gt (Nat.lt_of_le_of_lt (Nat.zero_le _) enough))
    have left : rest.length < fuel := Nat.lt_of_succ_lt_succ enough
    unfold runCodes SQLActionManager.doActions
    cases answer with
    | error fault => rfl
    | ok step =>
      obtain ⟨actions, stop⟩ := step
      rw [Proc.bind_ok (rfl : ofAnswers.getCode (.ok ⟨actions, stop⟩ :: rest) = .ok (some ⟨actions, stop⟩) rest)]
      cases actions with
      | error fault => rfl
      | ok actions =>
        have run := runActions_ofAnswers mergeF multipleArgs ⟨.ok actions, stop⟩ actions true none none rest
        dsimp only
        rw [Proc.bind_ok (rfl : ofAnswers.getActions ⟨.ok actions, stop⟩ rest =
          .ok (actions.map fun action _ => given action) rest)]
        change _ = (SQLActionManager.runActions mergeF none actions >>= fun merged =>
          if stop then pure (joinF joined merged) else SQLActionManager.doActions mergeF joinF (joinF joined merged) rest)
        cases merged : SQLActionManager.runActions mergeF none actions with
        | error fault =>
          rw [merged] at run
          rw [Proc.bind_error run]
          rfl
        | ok merged' =>
          rw [merged] at run
          rw [Proc.bind_ok run]
          cases stop with
          | true => rfl
          | false => exact ih fuel left (joinF joined merged')

/-! ## Outcomes -/

/-- What an outcome hands to the merge: a value itself, a `BESInternalError` NULL. -/
def contribution : ActionResult Out → Option (Option Out)
  | .ok out => some out
  | .error (.error ⟨.besInternalError, _⟩) => some none
  | .error _ => none

/-- No `BESError` but those two classes is raised. -/
def Harmless (outcome : ActionResult Out) : Prop :=
  ∀ e, outcome = .error (.error e) → e.kind = .besInternalError ∨ e.kind = .sqlInternalError

/-- The outcome is a value or a `BESError`. -/
def OnlyBES (outcome : ActionResult Out) : Prop := ∀ fault, outcome = .error fault → ∃ e, fault = .error e

/-- The state a run stops in. -/
def stateOf {τ α : Type} : EStateM.Result Fault τ α → τ
  | .ok _ t => t
  | .error _ t => t

/-- The members of the factory answer, and its actions raise no exceptions but `BESError`s. -/
structure Answers (f : SQLActionFactory σ Code Args Out) : Prop where
  getCode : ∀ s, ∃ code s', f.getCode s = .ok code s'
  getActions : ∀ code s, ∃ actions s', f.getActions code s = .ok actions s' ∧
    ∀ action ∈ actions, ∀ args t, OnlyBES (valueOf (action args t))
  getArgs : ∀ code s, ∃ args s', f.getArgs code s = .ok args s'
  stop : ∀ code s, ∃ stopped s', f.stop code s = .ok stopped s'

theorem tryNext_cases (o : ActionResult Out) (bes : OnlyBES o) :
    (∃ out, SQLActionManager.tryNext o = .ok out ∧ contribution o = some out ∧ Harmless o) ∨
    (∃ message, SQLActionManager.tryNext o = .error (.error ⟨.sqlInternalError, message⟩) ∧
      contribution o = none ∧ Harmless o) ∨
    (∃ message, SQLActionManager.tryNext o = .error (.error ⟨.sqlInternalFatalError, message⟩) ∧
      contribution o = none ∧ ¬ Harmless o) := by
  have harmful : ∀ {kind message}, o = .error (.error ⟨kind, message⟩) → kind ≠ .besInternalError →
      kind ≠ .sqlInternalError → ¬ Harmless o := by
    intro kind message raised notBes notSql harmless
    rcases harmless _ raised with same | same
    · exact notBes same
    · exact notSql same
  cases o with
  | ok out => exact .inl ⟨out, rfl, rfl, fun e raised => by cases raised⟩
  | error fault =>
    obtain ⟨⟨kind, message⟩, rfl⟩ := bes fault rfl
    have only : ∀ e, (.error (.error ⟨kind, message⟩) : ActionResult Out) = .error (.error e) → e.kind = kind := by
      intro e same
      cases same
      rfl
    cases kind with
    | sqlInternalError => exact .inr (.inl ⟨message, rfl, rfl, fun e raised => .inr (only e raised)⟩)
    | besInternalError => exact .inl ⟨none, rfl, rfl, fun e raised => .inl (only e raised)⟩
    | sqlInternalFatalError =>
      exact .inr (.inr ⟨message, rfl, rfl, harmful rfl (fun h => by cases h) (fun h => by cases h)⟩)
    | besInternalFatalError =>
      exact .inr (.inr ⟨_, rfl, rfl, harmful rfl (fun h => by cases h) (fun h => by cases h)⟩)
    | besError => exact .inr (.inr ⟨_, rfl, rfl, harmful rfl (fun h => by cases h) (fun h => by cases h)⟩)

/-! ## Sessions of a factory -/

/-- A code `getCode` has answered, the list `getActions` has answered for it, and what the
actions of it that were executed ended in, one after the other. -/
structure Entry (σ Code Args Out : Type) where
  code : Code
  actions : List (SQLAction σ Args Out)
  executed : List (ActionResult Out)

namespace Entry

/-- Every outcome of the entry is harmless. -/
def Calm (entry : Entry σ Code Args Out) : Prop := ∀ o ∈ entry.executed, Harmless o

/-- The merge over the outputs of the actions that were executed. -/
def merged (mergeF : Option Merge → Option Out → Option Merge) (entry : Entry σ Code Args Out) : Option Merge :=
  (entry.executed.filterMap contribution).foldl mergeF none

/-- The first actions of the list were executed, up to and including the first that
contributes nothing. -/
structure UpToFirst (entry : Entry σ Code Args Out) : Prop where
  within : entry.executed.length ≤ entry.actions.length
  before : ∀ o ∈ entry.executed.dropLast, (contribution o).isSome
  through : entry.executed.length < entry.actions.length → ∃ o, entry.executed.getLast? = some o ∧ contribution o = none

end Entry

/-- The actions of a list are executed from `s` on, each on the arguments that are asked for
it, up to the first that contributes nothing; `ran` is what they end in. -/
inductive Executes (f : SQLActionFactory σ Code Args Out) (multipleArgs : Bool) (code : Code) :
    Bool → Option Args → List (SQLAction σ Args Out) → σ → List (ActionResult Out) → σ → Prop where
  | done (firstTime : Bool) (args : Option Args) (s : σ) : Executes f multipleArgs code firstTime args [] s [] s
  | stopped {firstTime : Bool} {args args' : Option Args} {action : SQLAction σ Args Out}
      {rest : List (SQLAction σ Args Out)} {s s₁ : σ}
      (asked : f.nextArgs multipleArgs firstTime code args s = .ok args' s₁)
      (stops : contribution (valueOf (action args' s₁)) = none) :
      Executes f multipleArgs code firstTime args (action :: rest) s [valueOf (action args' s₁)] (stateOf (action args' s₁))
  | next {firstTime : Bool} {args args' : Option Args} {action : SQLAction σ Args Out}
      {rest : List (SQLAction σ Args Out)} {s s₁ t : σ} {ran : List (ActionResult Out)}
      (asked : f.nextArgs multipleArgs firstTime code args s = .ok args' s₁)
      (passes : (contribution (valueOf (action args' s₁))).isSome)
      (goesOn : Executes f multipleArgs code (firstTime && multipleArgs) args' rest (stateOf (action args' s₁)) ran t) :
      Executes f multipleArgs code firstTime args (action :: rest) s (valueOf (action args' s₁) :: ran) t

/-- The codes from `s` on, each with its list and the actions executed of it: up to NULL, up to
`stop`, or up to an outcome that is not harmless. -/
inductive Session (f : SQLActionFactory σ Code Args Out) (multipleArgs : Bool) :
    σ → List (Entry σ Code Args Out) → σ → Prop where
  | null {s t : σ} (asked : f.getCode s = .ok none t) : Session f multipleArgs s [] t
  | harmed {s s₁ s₂ t : σ} {code : Code} {actions : List (SQLAction σ Args Out)} {ran : List (ActionResult Out)}
      (asked : f.getCode s = .ok (some code) s₁) (listed : f.getActions code s₁ = .ok actions s₂)
      (executes : f.Executes multipleArgs code true none actions s₂ ran t) (harm : ¬ ∀ o ∈ ran, Harmless o) :
      Session f multipleArgs s [⟨code, actions, ran⟩] t
  | stop {s s₁ s₂ s₃ t : σ} {code : Code} {actions : List (SQLAction σ Args Out)} {ran : List (ActionResult Out)}
      (asked : f.getCode s = .ok (some code) s₁) (listed : f.getActions code s₁ = .ok actions s₂)
      (executes : f.Executes multipleArgs code true none actions s₂ ran s₃) (calm : ∀ o ∈ ran, Harmless o)
      (stopped : f.stop code s₃ = .ok true t) : Session f multipleArgs s [⟨code, actions, ran⟩] t
  | next {s s₁ s₂ s₃ s₄ t : σ} {code : Code} {actions : List (SQLAction σ Args Out)} {ran : List (ActionResult Out)}
      {entries : List (Entry σ Code Args Out)}
      (asked : f.getCode s = .ok (some code) s₁) (listed : f.getActions code s₁ = .ok actions s₂)
      (executes : f.Executes multipleArgs code true none actions s₂ ran s₃) (calm : ∀ o ∈ ran, Harmless o)
      (goesOn : f.stop code s₃ = .ok false s₄) (rest : Session f multipleArgs s₄ entries t) :
      Session f multipleArgs s (⟨code, actions, ran⟩ :: entries) t

/-- The codes end: `getCode` comes to NULL or `stop` to true, the list of each code being
executed before the next one is asked for, and none is asked for behind an error that leaves. -/
inductive CodesEnd (f : SQLActionFactory σ Code Args Out) (multipleArgs : Bool) : σ → Prop where
  | null {s t : σ} (asked : f.getCode s = .ok none t) : CodesEnd f multipleArgs s
  | code {s s₁ s₂ : σ} {code : Code} {actions : List (SQLAction σ Args Out)}
      (asked : f.getCode s = .ok (some code) s₁) (listed : f.getActions code s₁ = .ok actions s₂)
      (rest : ∀ ran s₃ s₄, f.Executes multipleArgs code true none actions s₂ ran s₃ → (∀ o ∈ ran, Harmless o) →
        f.stop code s₃ = .ok false s₄ → CodesEnd f multipleArgs s₄) : CodesEnd f multipleArgs s

section Sessions
variable {f : SQLActionFactory σ Code Args Out} {multipleArgs firstTime : Bool} {code : Code} {args : Option Args}
  {actions : List (SQLAction σ Args Out)} {ran : List (ActionResult Out)} {entries : List (Entry σ Code Args Out)} {s t : σ}

theorem Executes.within (h : f.Executes multipleArgs code firstTime args actions s ran t) :
    ran.length ≤ actions.length := by
  induction h with
  | done => exact Nat.le_refl 0
  | stopped => exact Nat.succ_le_succ (Nat.zero_le _)
  | next asked passes goesOn ih => exact Nat.succ_le_succ ih

theorem Executes.before (h : f.Executes multipleArgs code firstTime args actions s ran t) :
    ∀ o ∈ ran.dropLast, (contribution o).isSome := by
  induction h with
  | done => intro o mem; cases mem
  | stopped => intro o mem; cases mem
  | @next firstTime args args' action rest s s₁ t ran asked passes goesOn ih =>
    intro o mem
    cases ran with
    | nil => cases mem
    | cons o' ran =>
      rw [List.dropLast_cons_cons] at mem
      rcases List.mem_cons.mp mem with rfl | mem
      · exact passes
      · exact ih o mem

theorem Executes.through (h : f.Executes multipleArgs code firstTime args actions s ran t)
    (short : ran.length < actions.length) : ∃ o, ran.getLast? = some o ∧ contribution o = none := by
  induction h with
  | done => exact absurd short (Nat.lt_irrefl 0)
  | stopped asked stops => exact ⟨_, rfl, stops⟩
  | next asked passes goesOn ih =>
    obtain ⟨o, last, stops⟩ := ih (Nat.lt_of_succ_lt_succ short)
    refine ⟨o, ?_, stops⟩
    rw [List.getLast?_cons, last]
    rfl

theorem Executes.upToFirst (h : f.Executes multipleArgs code true none actions s ran t) :
    Entry.UpToFirst ⟨code, actions, ran⟩ where
  within := h.within
  before := h.before
  through := h.through

theorem Session.upToFirst (h : f.Session multipleArgs s entries t) : ∀ entry ∈ entries, entry.UpToFirst := by
  induction h with
  | null => intro entry mem; cases mem
  | harmed asked listed executes harm =>
    intro entry mem
    rw [List.mem_singleton.mp mem]
    exact executes.upToFirst
  | stop asked listed executes calm stopped =>
    intro entry mem
    rw [List.mem_singleton.mp mem]
    exact executes.upToFirst
  | next asked listed executes calm goesOn rest ih =>
    intro entry mem
    rcases List.mem_cons.mp mem with rfl | mem
    · exact executes.upToFirst
    · exact ih entry mem

theorem nextArgs_answers (answers : f.Answers) (multipleArgs firstTime : Bool) (code : Code) (args : Option Args) (s : σ) :
    ∃ args' s', f.nextArgs multipleArgs firstTime code args s = .ok args' s' := by
  unfold nextArgs
  cases multipleArgs with
  | true => exact answers.getArgs code s
  | false =>
    cases firstTime with
    | true => exact answers.getArgs code s
    | false => exact ⟨args, s, rfl⟩

theorem executes_exists (answers : f.Answers) (multipleArgs : Bool) (code : Code) (actions : List (SQLAction σ Args Out))
    (firstTime : Bool) (args : Option Args) (s : σ) :
    ∃ ran t, f.Executes multipleArgs code firstTime args actions s ran t := by
  induction actions generalizing firstTime args s with
  | nil => exact ⟨[], s, .done firstTime args s⟩
  | cons action rest ih =>
    obtain ⟨args', s₁, asked⟩ := nextArgs_answers answers multipleArgs firstTime code args s
    cases contributed : contribution (valueOf (action args' s₁)) with
    | none => exact ⟨_, _, .stopped asked contributed⟩
    | some out =>
      obtain ⟨ran, t, goesOn⟩ := ih (firstTime && multipleArgs) args' (stateOf (action args' s₁))
      exact ⟨_, _, .next asked (by rw [contributed]; rfl) goesOn⟩

/-- Where the codes end there is a session. -/
theorem CodesEnd.session (answers : f.Answers) (ends : f.CodesEnd multipleArgs s) :
    ∃ entries t, f.Session multipleArgs s entries t := by
  induction ends with
  | null asked => exact ⟨[], _, .null asked⟩
  | @code s s₁ s₂ code actions asked listed rest ih =>
    obtain ⟨ran, s₃, executes⟩ := executes_exists answers multipleArgs code actions true none s₂
    by_cases calm : ∀ o ∈ ran, Harmless o
    · obtain ⟨stopped, s₄, checked⟩ := answers.stop code s₃
      cases stopped with
      | true => exact ⟨_, _, .stop asked listed executes calm checked⟩
      | false =>
        obtain ⟨entries, t, session⟩ := ih ran s₃ s₄ executes calm checked
        exact ⟨_, _, .next asked listed executes calm checked session⟩
    · exact ⟨_, _, .harmed asked listed executes calm⟩

end Sessions

/-! ## Runs along a session -/

/-- A result with the state that goes with it. -/
def resultAt {τ α : Type} (t : τ) : Except Fault α → EStateM.Result Fault τ α
  | .ok a => .ok a t
  | .error fault => .error fault t

theorem tryNext_eq (action : SQLAction σ Args Out) (args : Option Args) (s : σ) :
    tryNext action args s = resultAt (stateOf (action args s)) (SQLActionManager.tryNext (valueOf (action args s))) := by
  unfold tryNext
  cases run : action args s with
  | ok out s' => rfl
  | error fault s' =>
    change _ = resultAt s' (SQLActionManager.tryNext (.error fault))
    dsimp only
    cases (SQLActionManager.tryNext (.error fault) : Except Fault (Option Out)) <;> rfl

theorem runNext_eq {f : SQLActionFactory σ Code Args Out} {multipleArgs firstTime : Bool} {code : Code}
    {args args' : Option Args} (action : SQLAction σ Args Out) {s s₁ : σ}
    (asked : f.nextArgs multipleArgs firstTime code args s = .ok args' s₁) :
    f.runNext multipleArgs firstTime code args action s = resultAt (stateOf (action args' s₁))
      ((SQLActionManager.tryNext (valueOf (action args' s₁))).map fun out => (args', out)) := by
  have tried := tryNext_eq action args' s₁
  unfold runNext
  rw [Proc.bind_ok asked]
  cases next : SQLActionManager.tryNext (valueOf (action args' s₁)) with
  | ok out =>
    rw [next] at tried
    rw [Proc.bind_ok tried]
    rfl
  | error fault =>
    rw [next] at tried
    rw [Proc.bind_error tried]
    rfl

/-- How the loop over a list ends in `t` that has started from `merged` and has executed `ran`. -/
def ActionsEnd (mergeF : Option Merge → Option Out → Option Merge) (merged : Option Merge)
    (ran : List (ActionResult Out)) (t : σ) : EStateM.Result Fault σ (Option Merge) → Prop
  | .ok result t' => t' = t ∧ (∀ o ∈ ran, Harmless o) ∧ result = (ran.filterMap contribution).foldl mergeF merged
  | .error fault t' => t' = t ∧ (¬ ∀ o ∈ ran, Harmless o) ∧ ∃ message, fault = .error ⟨.sqlInternalFatalError, message⟩

theorem ActionsEnd.cons {mergeF : Option Merge → Option Out → Option Merge} {merged : Option Merge}
    {ran : List (ActionResult Out)} {t : σ} {r : EStateM.Result Fault σ (Option Merge)} {o : ActionResult Out}
    {out : Option Out} (passes : contribution o = some out) (harmless : Harmless o)
    (h : ActionsEnd mergeF (mergeF merged out) ran t r) : ActionsEnd mergeF merged (o :: ran) t r := by
  cases r with
  | ok result s =>
    obtain ⟨rfl, calm, rfl⟩ := h
    refine ⟨rfl, List.forall_mem_cons.2 ⟨harmless, calm⟩, ?_⟩
    rw [List.filterMap_cons_some passes, List.foldl_cons]
  | error fault s =>
    obtain ⟨rfl, harm, raised⟩ := h
    exact ⟨rfl, fun calm => harm (List.forall_mem_cons.1 calm).2, raised⟩

/-- The loop over a list ends as what is executed of it says. -/
theorem runActions_executes {f : SQLActionFactory σ Code Args Out} {multipleArgs firstTime : Bool} {code : Code}
    {args : Option Args} {actions : List (SQLAction σ Args Out)} {ran : List (ActionResult Out)} {s t : σ}
    (mergeF : Option Merge → Option Out → Option Merge)
    (h : f.Executes multipleArgs code firstTime args actions s ran t) (bes : ∀ o ∈ ran, OnlyBES o) (merged : Option Merge) :
    ActionsEnd mergeF merged ran t (f.runActions mergeF multipleArgs code firstTime args merged actions s) := by
  induction h generalizing merged with
  | done => exact ⟨rfl, fun o mem => (nomatch mem), rfl⟩
  | @stopped firstTime args args' action rest s s₁ asked stops =>
    have turn := runNext_eq action asked
    unfold runActions
    obtain ⟨out, tried, passes, harmless⟩ | ⟨message, tried, -, harmless⟩ | ⟨message, tried, -, harm⟩ :=
      tryNext_cases _ (bes _ (List.mem_singleton_self _))
    · rw [stops] at passes
      cases passes
    · rw [tried] at turn
      rw [turn]
      refine ⟨rfl, List.forall_mem_singleton.2 harmless, ?_⟩
      rw [List.filterMap_cons_none stops]
      rfl
    · rw [tried] at turn
      rw [turn]
      exact ⟨rfl, fun calm => harm (calm _ (List.mem_singleton_self _)), message, rfl⟩
  | @next firstTime args args' action rest s s₁ t ran asked passes goesOn ih =>
    have turn := runNext_eq action asked
    unfold runActions
    obtain ⟨out, tried, contributed, harmless⟩ | ⟨message, tried, stops, harmless⟩ | ⟨message, tried, stops, harm⟩ :=
      tryNext_cases _ (bes _ List.mem_cons_self)
    · rw [tried] at turn
      rw [turn]
      exact (ih (fun o mem => bes o (List.mem_cons_of_mem _ mem)) (mergeF merged out)).cons contributed harmless
    · rw [stops] at passes
      cases passes
    · rw [stops] at passes
      cases passes

/-- The join over the codes of what each has merged. -/
def joinAll (mergeF : Option Merge → Option Out → Option Merge) (joinF : Option Join → Option Merge → Option Join)
    (joined : Option Join) (entries : List (Entry σ Code Args Out)) : Option Join :=
  entries.foldl (fun joined entry => joinF joined (entry.merged mergeF)) joined

/-- How the loop over the codes ends in `t` that has started from `joined`. -/
def SessionEnd (mergeF : Option Merge → Option Out → Option Merge) (joinF : Option Join → Option Merge → Option Join)
    (joined : Option Join) (entries : List (Entry σ Code Args Out)) (t : σ) : EStateM.Result Fault σ (Option Join) → Prop
  | .ok result t' => t' = t ∧ (∀ entry ∈ entries, entry.Calm) ∧ result = joinAll mergeF joinF joined entries
  | .error fault t' => t' = t ∧ (¬ ∀ entry ∈ entries, entry.Calm) ∧
      ∃ message, fault = .error ⟨.sqlInternalFatalError, message⟩

theorem SessionEnd.cons {mergeF : Option Merge → Option Out → Option Merge}
    {joinF : Option Join → Option Merge → Option Join} {joined : Option Join} {entry : Entry σ Code Args Out}
    {entries : List (Entry σ Code Args Out)} {t : σ} {r : EStateM.Result Fault σ (Option Join)} (calm : entry.Calm)
    (h : SessionEnd mergeF joinF (joinF joined (entry.merged mergeF)) entries t r) :
    SessionEnd mergeF joinF joined (entry :: entries) t r := by
  cases r with
  | ok result s =>
    obtain ⟨rfl, rest, rfl⟩ := h
    exact ⟨rfl, List.forall_mem_cons.2 ⟨calm, rest⟩, rfl⟩
  | error fault s =>
    obtain ⟨rfl, harm, raised⟩ := h
    exact ⟨rfl, fun all => harm (List.forall_mem_cons.1 all).2, raised⟩

/-- Given more rounds than the session has codes, the loop over the codes ends as the session says. -/
theorem runCodes_session {f : SQLActionFactory σ Code Args Out} {multipleArgs : Bool} {s t : σ}
    {entries : List (Entry σ Code Args Out)} (mergeF : Option Merge → Option Out → Option Merge)
    (joinF : Option Join → Option Merge → Option Join) (session : f.Session multipleArgs s entries t)
    (bes : ∀ entry ∈ entries, ∀ o ∈ entry.executed, OnlyBES o) (joined : Option Join) {fuel : Nat}
    (enough : entries.length < fuel) :
    SessionEnd mergeF joinF joined entries t (f.runCodes mergeF joinF multipleArgs fuel joined s) := by
  induction session generalizing joined fuel with
  | null asked =>
    obtain ⟨fuel, rfl⟩ := Nat.exists_eq_add_one.2 enough
    unfold runCodes
    rw [Proc.bind_ok asked]
    exact ⟨rfl, fun entry mem => (nomatch mem), rfl⟩
  | @harmed s s₁ s₂ t code actions ran asked listed executes harm =>
    obtain ⟨fuel, rfl⟩ := Nat.exists_eq_add_one.2 (Nat.lt_of_le_of_lt (Nat.zero_le _) enough)
    have ends := runActions_executes mergeF executes (bes _ (List.mem_singleton_self _)) none
    unfold runCodes
    rw [Proc.bind_ok asked]
    dsimp only
    rw [Proc.bind_ok listed]
    cases run : f.runActions mergeF multipleArgs code true none none actions s₂ with
    | ok merged s₃ =>
      rw [run] at ends
      exact absurd ends.2.1 harm
    | error fault s₃ =>
      rw [run] at ends
      obtain ⟨rfl, -, raised⟩ := ends
      rw [Proc.bind_error run]
      exact ⟨rfl, fun all => harm (all _ (List.mem_singleton_self _)), raised⟩
  | @stop s s₁ s₂ s₃ t code actions ran asked listed executes calm stopped =>
    obtain ⟨fuel, rfl⟩ := Nat.exists_eq_add_one.2 (Nat.lt_of_le_of_lt (Nat.zero_le _) enough)
    have ends := runActions_executes mergeF executes (bes _ (List.mem_singleton_self _)) none
    unfold runCodes
    rw [Proc.bind_ok asked]
    dsimp only
    rw [Proc.bind_ok listed]
    cases run : f.runActions mergeF multipleArgs code true none none actions s₂ with
    | error fault s₄ =>
      rw [run] at ends
      exact absurd calm ends.2.1
    | ok merged s₄ =>
      rw [run] at ends
      obtain ⟨rfl, -, rfl⟩ := ends
      rw [Proc.bind_ok run, Proc.bind_ok stopped]
      exact ⟨rfl, List.forall_mem_singleton.2 calm, rfl⟩
  | @next s s₁ s₂ s₃ s₄ t code actions ran entries asked listed executes calm goesOn rest ih =>
    obtain ⟨fuel, rfl⟩ := Nat.exists_eq_add_one.2 (Nat.lt_of_le_of_lt (Nat.zero_le _) enough)
    have ends := runActions_executes mergeF executes (bes _ List.mem_cons_self) none
    unfold runCodes
    rw [Proc.bind_ok asked]
    dsimp only
    rw [Proc.bind_ok listed]
    cases run : f.runActions mergeF multipleArgs code true none none actions s₂ with
    | error fault s₅ =>
      rw [run] at ends
      exact absurd calm ends.2.1
    | ok merged s₅ =>
      rw [run] at ends
      obtain ⟨rfl, -, rfl⟩ := ends
      rw [Proc.bind_ok run, Proc.bind_ok goesOn]
      refine SessionEnd.cons calm (ih (fun entry mem => bes entry (List.mem_cons_of_mem _ mem)) _ ?_)
      rw [List.length_cons] at enough
      omega

/-- What the answers of a list are to the builders is what they are as a factory: the codes of the
list up to `stop`, each with its actions. -/
theorem doActions_answers (mergeF : Option Merge → Option Out → Option Merge)
    (joinF : Option Join → Option Merge → Option Join) {factory left : ActionFactory Out} {multipleArgs : Bool}
    {entries : List (Entry (ActionFactory Out) (CodeStep Out) Unit Out)}
    (session : ofAnswers.Session multipleArgs factory entries left)
    (bes : ∀ entry ∈ entries, ∀ o ∈ entry.executed, OnlyBES o) :
    ((∃ result, SQLActionManager.doActions mergeF joinF none factory = .ok result) ↔ ∀ entry ∈ entries, entry.Calm) ∧
    ∀ result, SQLActionManager.doActions mergeF joinF none factory = .ok result →
      result = joinAll mergeF joinF none entries := by
  have ends := runCodes_session mergeF joinF session bes none
    (Nat.lt_of_le_of_lt (Nat.le_max_left entries.length factory.length) (Nat.lt_succ_self _))
  rw [← runCodes_ofAnswers mergeF joinF multipleArgs factory _
    (Nat.lt_of_le_of_lt (Nat.le_max_right entries.length factory.length) (Nat.lt_succ_self _)) none]
  cases run : ofAnswers.runCodes mergeF joinF multipleArgs (max entries.length factory.length).succ none factory with
  | ok result t =>
    rw [run] at ends
    obtain ⟨-, calm, rfl⟩ := ends
    refine ⟨⟨fun _ => calm, fun _ => ⟨_, rfl⟩⟩, fun result same => ?_⟩
    cases same
    rfl
  | error fault t =>
    rw [run] at ends
    obtain ⟨-, harm, -⟩ := ends
    exact ⟨⟨fun ⟨_, same⟩ => (nomatch same), fun calm => absurd calm harm⟩, fun result same => (nomatch same)⟩

/-! ## The record -/

/-- What is noted of a code `getCode` has answered: how many actions its list has, and what those
that run end in, each with its place in the list. -/
structure Note (Code Out : Type) where
  code : Code
  size : Nat
  executed : List (ActionResult Out × Nat)

namespace Note

def ofSize (n : Nat) (note : Note Code Out) : Note Code Out := { note with size := n }

def append (ran : List (ActionResult Out × Nat)) (note : Note Code Out) : Note Code Out :=
  { note with executed := note.executed ++ ran }

theorem append_nil (note : Note Code Out) : note.append [] = note := by
  unfold append
  rw [List.append_nil]

theorem append_append (ran ran' : List (ActionResult Out × Nat)) (note : Note Code Out) :
    (note.append ran).append ran' = note.append (ran ++ ran') := by
  unfold append
  rw [List.append_assoc]

end Note

/-- The latest note comes first. -/
abbrev Log (Code Out : Type) := List (Note Code Out)

/-- The same run beside a log, in which its end is noted. -/
def noting {α : Type} (x : Proc σ α) (note : Except Fault α → Log Code Out → Log Code Out) :
    Proc (σ × Log Code Out) α := fun w =>
  match x w.1 with
  | .ok a s => .ok a (s, note (.ok a) w.2)
  | .error fault s => .error fault (s, note (.error fault) w.2)

def noteCode (answer : Except Fault (Option Code)) (log : Log Code Out) : Log Code Out :=
  match answer with
  | .ok (some code) => ⟨code, 0, []⟩ :: log
  | _ => log

def noteSize (answer : Except Fault (List (SQLAction σ Args Out))) (log : Log Code Out) : Log Code Out :=
  match answer with
  | .ok actions => log.modifyHead (Note.ofSize actions.length)
  | .error _ => log

/-- The action at place `k` of its list. -/
def recordedAction (k : Nat) (action : SQLAction σ Args Out) : SQLAction (σ × Log Code Out) Args Out := fun args =>
  noting (action args) fun outcome log => log.modifyHead (Note.append [(outcome, k)])

/-- The factory that keeps the record and does as `f` does. -/
def recorded (f : SQLActionFactory σ Code Args Out) : SQLActionFactory (σ × Log Code Out) Code Args Out where
  getCode := noting f.getCode noteCode
  getActions code := do
    let actions ← noting (f.getActions code) noteSize
    return actions.mapIdx recordedAction
  getArgs code := noting (f.getArgs code) fun _ log => log
  stop code := noting (f.stop code) fun _ log => log

/-- What a run of `doActions` notes, code after code. -/
def noted (f : SQLActionFactory σ Code Args Out) (mergeF : Option (Option Merge → Option Out → Option Merge))
    (joinF : Option (Option Join → Option Merge → Option Join)) (multipleArgs : Bool) (fuel : Nat) (s : σ) :
    List (Note Code Out) :=
  (stateOf (f.recorded.doActions mergeF joinF multipleArgs fuel (s, []))).2.reverse

/-- The note an entry of a session makes. -/
def Entry.noted (entry : Entry σ Code Args Out) : Note Code Out :=
  ⟨entry.code, entry.actions.length, entry.executed.zipIdx⟩

theorem noting_ok {α : Type} {x : Proc σ α} {note : Except Fault α → Log Code Out → Log Code Out} {s s' : σ} {a : α}
    (run : x s = .ok a s') (log : Log Code Out) : noting x note (s, log) = .ok a (s', note (.ok a) log) := by
  unfold noting
  simp only [run]

section Recorded
variable {f : SQLActionFactory σ Code Args Out} {multipleArgs firstTime : Bool} {code : Code} {args : Option Args}
  {actions : List (SQLAction σ Args Out)} {s t : σ}

theorem recordedAction_value (k : Nat) (action : SQLAction σ Args Out) (args : Option Args) (s : σ) (log : Log Code Out) :
    valueOf (recordedAction k action args (s, log)) = valueOf (action args s) := by
  unfold recordedAction noting
  cases action args s <;> rfl

theorem recordedAction_state (k : Nat) (action : SQLAction σ Args Out) (args : Option Args) (s : σ) (note : Note Code Out)
    (log : Log Code Out) :
    stateOf (recordedAction k action args (s, note :: log)) =
      (stateOf (action args s), note.append [(valueOf (action args s), k)] :: log) := by
  unfold recordedAction noting
  cases action args s <;> rfl

theorem nextArgs_recorded {args' : Option Args} (asked : f.nextArgs multipleArgs firstTime code args s = .ok args' t)
    (log : Log Code Out) : f.recorded.nextArgs multipleArgs firstTime code args (s, log) = .ok args' (t, log) := by
  have noted : ∀ {answer s'}, f.getArgs code s = .ok answer s' →
      f.recorded.getArgs code (s, log) = .ok answer (s', log) := by
    intro answer s' run
    change noting (f.getArgs code) (fun _ log => log) (s, log) = _
    rw [noting_ok run]
  unfold nextArgs at asked ⊢
  cases multipleArgs with
  | true => exact noted asked
  | false =>
    cases firstTime with
    | true => exact noted asked
    | false =>
      cases asked
      rfl

/-- What is executed of a list is noted, action after action. -/
theorem Executes.recorded {ran : List (ActionResult Out)} (h : f.Executes multipleArgs code firstTime args actions s ran t)
    (k : Nat) (note : Note Code Out) (log : Log Code Out) :
    f.recorded.Executes multipleArgs code firstTime args (actions.mapIdx fun i action => recordedAction (k + i) action)
      (s, note :: log) ran (t, note.append (ran.zipIdx k) :: log) := by
  have moved : ∀ k, (fun i action => @recordedAction σ Code Args Out (k + (i + 1)) action) =
      fun i (action : SQLAction σ Args Out) => recordedAction (k + 1 + i) action := by
    intro k
    funext i action
    rw [Nat.add_comm i 1, Nat.add_assoc]
  induction h generalizing k note with
  | done firstTime args s =>
    rw [List.zipIdx_nil, Note.append_nil]
    exact .done firstTime args _
  | @stopped firstTime args args' action rest s s₁ asked stops =>
    have value := recordedAction_value k action args' s₁ (note :: log)
    have run : f.recorded.Executes multipleArgs code firstTime args
        (recordedAction k action :: rest.mapIdx fun i action => recordedAction (k + (i + 1)) action) (s, note :: log)
        [valueOf (recordedAction k action args' (s₁, note :: log))]
        (stateOf (recordedAction k action args' (s₁, note :: log))) :=
      .stopped (nextArgs_recorded asked (note :: log)) (by rw [value]; exact stops)
    rw [value, recordedAction_state] at run
    rw [List.mapIdx_cons]
    exact run
  | @next firstTime args args' action rest s s₁ t ran asked passes goesOn ih =>
    have value := recordedAction_value k action args' s₁ (note :: log)
    have state := recordedAction_state k action args' s₁ note log
    have tail := ih (k + 1) (note.append [(valueOf (action args' s₁), k)])
    rw [← state, Note.append_append, ← moved k] at tail
    have run := Executes.next (nextArgs_recorded asked (note :: log)) (by rw [value]; exact passes) tail
    rw [value] at run
    rw [List.mapIdx_cons, List.zipIdx_cons]
    exact run

theorem getCode_recorded {answer : Option Code} (asked : f.getCode s = .ok answer t) (log : Log Code Out) :
    f.recorded.getCode (s, log) = .ok answer (t, noteCode (.ok answer) log) := by
  change noting f.getCode noteCode (s, log) = _
  rw [noting_ok asked]

/-- A code and its list are noted before the first action runs. -/
theorem getActions_recorded (listed : f.getActions code s = .ok actions t) (note : Note Code Out) (log : Log Code Out) :
    f.recorded.getActions code (s, note :: log) =
      .ok (actions.mapIdx fun i action => recordedAction (0 + i) action) (t, note.ofSize actions.length :: log) := by
  have places : (fun i (action : SQLAction σ Args Out) => @recordedAction σ Code Args Out (0 + i) action) =
      recordedAction := by
    funext i action
    rw [Nat.zero_add]
  rw [places]
  change ((noting (f.getActions code) noteSize >>= fun actions => pure (actions.mapIdx recordedAction)) :
    Proc (σ × Log Code Out) _) (s, note :: log) = _
  rw [Proc.bind_ok (noting_ok listed (note :: log))]
  rfl

theorem stop_recorded {stopped : Bool} (checked : f.stop code s = .ok stopped t) (log : Log Code Out) :
    f.recorded.stop code (s, log) = .ok stopped (t, log) := by
  change noting (f.stop code) (fun _ log => log) (s, log) = _
  rw [noting_ok checked]

/-- A session of the factory is one of the factory that keeps the record, with its entries noted. -/
theorem Session.recorded {entries : List (Entry σ Code Args Out)} (h : f.Session multipleArgs s entries t)
    (log : Log Code Out) :
    ∃ entries' : List (Entry (σ × Log Code Out) Code Args Out),
      f.recorded.Session multipleArgs (s, log) entries' (t, (entries.map Entry.noted).reverse ++ log) ∧
      entries'.map Entry.executed = entries.map Entry.executed := by
  induction h generalizing log with
  | null asked => exact ⟨[], .null (getCode_recorded asked log), rfl⟩
  | @harmed s s₁ s₂ t code actions ran asked listed executes harm =>
    exact ⟨_, .harmed (getCode_recorded asked log) (getActions_recorded listed ⟨code, 0, []⟩ log)
      (executes.recorded 0 ⟨code, actions.length, []⟩ log) harm, rfl⟩
  | @stop s s₁ s₂ s₃ t code actions ran asked listed executes calm stopped =>
    exact ⟨_, .stop (getCode_recorded asked log) (getActions_recorded listed ⟨code, 0, []⟩ log)
      (executes.recorded 0 ⟨code, actions.length, []⟩ log) calm (stop_recorded stopped _), rfl⟩
  | @next s s₁ s₂ s₃ s₄ t code actions ran entries asked listed executes calm goesOn rest ih =>
    obtain ⟨entries', session, same⟩ := ih (⟨code, actions.length, ran.zipIdx⟩ :: log)
    refine ⟨⟨code, actions.mapIdx fun i action => recordedAction (0 + i) action, ran⟩ :: entries', ?_, ?_⟩
    · rw [List.map_cons, List.reverse_cons, List.append_assoc]
      exact .next (getCode_recorded asked log) (getActions_recorded listed ⟨code, 0, []⟩ log)
        (executes.recorded 0 ⟨code, actions.length, []⟩ log) calm (stop_recorded goesOn _) session
    · rw [List.map_cons, List.map_cons, same]

end Recorded

/-- The outcomes of a session are what the actions of its lists end in. -/
theorem Session.onlyBES {f : SQLActionFactory σ Code Args Out} (answers : f.Answers) {multipleArgs : Bool} {s t : σ}
    {entries : List (Entry σ Code Args Out)} (session : f.Session multipleArgs s entries t) :
    ∀ entry ∈ entries, ∀ o ∈ entry.executed, OnlyBES o := by
  have executed : ∀ {code firstTime args actions s₁ s₂ ran t}, f.getActions code s₁ = .ok actions s₂ →
      f.Executes multipleArgs code firstTime args actions s₂ ran t → ∀ o ∈ ran, OnlyBES o := by
    intro code firstTime args actions s₁ s₂ ran t listed executes
    obtain ⟨actions', s₂', listed', bes⟩ := answers.getActions code s₁
    rw [listed] at listed'
    cases listed'
    clear listed
    induction executes with
    | done => intro o mem; cases mem
    | stopped asked stops => exact List.forall_mem_singleton.2 (bes _ List.mem_cons_self _ _)
    | next asked passes goesOn ih =>
      exact List.forall_mem_cons.2 ⟨bes _ List.mem_cons_self _ _, ih fun action mem => bes action (List.mem_cons_of_mem _ mem)⟩
  induction session with
  | null => intro entry mem; cases mem
  | harmed asked listed executes harm => exact List.forall_mem_singleton.2 (executed listed executes)
  | stop asked listed executes calm stopped => exact List.forall_mem_singleton.2 (executed listed executes)
  | next asked listed executes calm goesOn rest ih => exact List.forall_mem_cons.2 ⟨executed listed executes, ih⟩

/-- A factory that answers and whose codes end has a session, and `doActions`, given more rounds
than it has codes, asks and executes just that. It returns unless an executed action raises an
error other than `SQLInternalError` and `BESInternalError`, which leaves as `SQLInternalFatalError`,
and the result is the join of the merges. Open: exceptions that are no `BESError`, which no
handler of the manager names. -/
theorem doActions_declared (f : SQLActionFactory σ Code Args Out) (answers : f.Answers)
    (mergeF : Option (Option Merge → Option Out → Option Merge))
    (joinF : Option (Option Join → Option Merge → Option Join)) (multipleArgs : Bool) (s : σ)
    (ends : f.CodesEnd multipleArgs s) :
    ∃ entries t, f.Session multipleArgs s entries t ∧ (∀ entry ∈ entries, entry.UpToFirst) ∧
      ∀ fuel, entries.length < fuel →
        f.noted mergeF joinF multipleArgs fuel s = entries.map Entry.noted ∧
        ((∃ result t', f.doActions mergeF joinF multipleArgs fuel s = .ok result t') ↔
          ∀ entry ∈ entries, ∀ o ∈ entry.executed, Harmless o) ∧
        (∀ fault t', f.doActions mergeF joinF multipleArgs fuel s = .error fault t' →
          ∃ message, fault = .error ⟨.sqlInternalFatalError, message⟩) ∧
        ∀ result t', f.doActions mergeF joinF multipleArgs fuel s = .ok result t' →
          result = joinAll (mergeF.getD merge) (joinF.getD join) none entries := by
  obtain ⟨entries, t, session⟩ := ends.session answers
  have bes := session.onlyBES answers
  refine ⟨entries, t, session, session.upToFirst, fun fuel enough => ?_⟩
  have settled := runCodes_session (mergeF.getD merge) (joinF.getD join) session bes none enough
  change SessionEnd _ _ _ _ _ (f.doActions mergeF joinF multipleArgs fuel s) at settled
  have record : f.noted mergeF joinF multipleArgs fuel s = entries.map Entry.noted := by
    obtain ⟨entries', session', same⟩ := session.recorded []
    have length : entries'.length = entries.length := by
      rw [← List.length_map Entry.executed, same, List.length_map]
    have bes' : ∀ entry ∈ entries', ∀ o ∈ entry.executed, OnlyBES o := by
      intro entry mem
      have ran : entry.executed ∈ entries.map Entry.executed := same ▸ List.mem_map_of_mem mem
      obtain ⟨entry', mem', executed⟩ := List.mem_map.1 ran
      rw [← executed]
      exact bes entry' mem'
    have run := runCodes_session (mergeF.getD merge) (joinF.getD join) session' bes' none (length ▸ enough)
    change SessionEnd _ _ _ _ _ (f.recorded.doActions mergeF joinF multipleArgs fuel (s, [])) at run
    unfold noted
    cases recorded : f.recorded.doActions mergeF joinF multipleArgs fuel (s, []) with
    | ok result w =>
      rw [recorded] at run
      rw [stateOf, run.1, List.append_nil, List.reverse_reverse]
    | error fault w =>
      rw [recorded] at run
      rw [stateOf, run.1, List.append_nil, List.reverse_reverse]
  refine ⟨record, ?_⟩
  cases run : f.doActions mergeF joinF multipleArgs fuel s with
  | ok result t' =>
    rw [run] at settled
    obtain ⟨-, calm, value⟩ := settled
    refine ⟨⟨fun _ => calm, fun _ => ⟨result, t', rfl⟩⟩, fun fault t raised => (nomatch raised), ?_⟩
    intro result' t returned
    cases returned
    exact value
  | error fault t' =>
    rw [run] at settled
    obtain ⟨-, harm, raised⟩ := settled
    refine ⟨⟨fun ⟨_, _, returned⟩ => (nomatch returned), fun calm => absurd calm harm⟩, ?_,
      fun result t returned => (nomatch returned)⟩
    intro fault' t left
    cases left
    exact raised

/-- Two codes: a value, a `BESInternalError`, a `SQLInternalError` and an action that is not
reached; then a value. The world counts the codes. -/
def twoCodes : SQLActionFactory Nat Nat Nat Nat where
  getCode := fun n => .ok (if n < 2 then some n else none) (n + 1)
  getActions code := return if code = 0 then
      [fun _ => return some 5, fun _ => Proc.raise .besInternalError [],
        fun _ => Proc.raise .sqlInternalError [], fun _ => return some 7]
    else [fun _ => return some 9]
  getArgs _ := return none
  stop _ := return false

/-- Every output is kept. -/
def gather {α : Type} (acc : Option (List (Option α))) (a : Option α) : Option (List (Option α)) :=
  some (acc.getD [] ++ [a])

theorem twoCodes_answers : twoCodes.Answers where
  getCode s := ⟨_, _, rfl⟩
  getActions code s := by
    refine ⟨_, _, rfl, ?_⟩
    intro action mem args t fault raised
    split at mem
    · simp only [List.mem_cons, List.not_mem_nil, or_false] at mem
      rcases mem with rfl | rfl | rfl | rfl
      · cases raised
      · cases raised
        exact ⟨_, rfl⟩
      · cases raised
        exact ⟨_, rfl⟩
      · cases raised
    · rw [List.mem_singleton.mp mem] at raised
      cases raised
  getArgs code s := ⟨_, _, rfl⟩
  stop code s := ⟨_, _, rfl⟩

theorem twoCodes_ends : twoCodes.CodesEnd true 0 := by
  have kept : ∀ {code firstTime args actions s ran t}, (∀ action ∈ actions, ∀ args s, stateOf (action args s) = s) →
      twoCodes.Executes true code firstTime args actions s ran t → t = s := by
    intro code firstTime args actions s ran t still executes
    induction executes with
    | done => rfl
    | stopped asked stops =>
      cases asked
      exact still _ List.mem_cons_self _ _
    | next asked passes goesOn ih =>
      cases asked
      rw [ih fun action mem => still action (List.mem_cons_of_mem _ mem)]
      exact still _ List.mem_cons_self _ _
  have still : ∀ code, ∀ action ∈ (if code = 0 then [fun _ => return some 5, fun _ => Proc.raise .besInternalError [],
      fun _ => Proc.raise .sqlInternalError [], fun _ => return some 7] else [fun _ => return some 9] :
        List (SQLAction Nat Nat Nat)), ∀ args s, stateOf (action args s) = s := by
    intro code action mem args s
    split at mem
    · simp only [List.mem_cons, List.not_mem_nil, or_false] at mem
      rcases mem with rfl | rfl | rfl | rfl <;> rfl
    · rw [List.mem_singleton.mp mem]
      rfl
  have stops : ∀ {code s t}, twoCodes.stop code s = .ok false t → t = s := by
    intro code s t stopped
    cases stopped
    rfl
  refine .code (show twoCodes.getCode 0 = .ok (some 0) 1 from rfl) rfl fun ran s₃ s₄ executes _ goesOn => ?_
  rw [stops goesOn, kept (still 0) executes]
  refine .code (show twoCodes.getCode 1 = .ok (some 1) 2 from rfl) rfl fun ran s₃ s₄ executes _ goesOn => ?_
  rw [stops goesOn, kept (still 1) executes]
  exact .null (show twoCodes.getCode 2 = .ok none 3 from rfl)

theorem twoCodes_declared : ∃ entries t, twoCodes.Session true 0 entries t ∧
    entries.map Entry.noted = [⟨0, 4, [(.ok (some 5), 0), (.error (.error ⟨.besInternalError, []⟩), 1),
      (.error (.error ⟨.sqlInternalError, []⟩), 2)]⟩, ⟨1, 1, [(.ok (some 9), 0)]⟩] ∧
    joinAll gather gather none entries = some [some [some 5, none], some [some 9]] := by
  obtain ⟨entries, t, session, -, declared⟩ := doActions_declared twoCodes twoCodes_answers (some gather) (some gather)
    true 0 twoCodes_ends
  obtain ⟨noted, -, -, joined⟩ := declared (entries.length + 3) (Nat.lt_add_of_pos_right (Nat.succ_pos 2))
  have run : twoCodes.doActions (some gather) (some gather) true (entries.length + 3) 0 =
      .ok (some [some [some 5, none], some [some 9]]) 3 := rfl
  refine ⟨entries, t, session, ?_, (joined _ _ run).symm⟩
  rw [← noted]
  rfl

end SQLActionFactory

end SqlHandler
