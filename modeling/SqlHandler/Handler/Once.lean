import SqlHandler.Connector.Asks
import SqlHandler.Handler.Delivered

/-!
# The calls of a command

However a command of the plugin ends, the calls its connector has made are in the order of a
connection's life, and no call was made twice (`build_inOrder`): no handle is made or freed a second
time, the query runs once, and each property of a column is asked for once.
-/

namespace SqlHandler
open Posix Leaving

/-! ## Invariants of `doActions` -/

namespace SQLActionFactory
variable {σ Code Args Out Merge Join : Type} {f : SQLActionFactory σ Code Args Out} {I : σ → Prop}

/-- An invariant that the members of a factory keep, and the actions of its lists. -/
structure Steady (I : σ → Prop) (f : SQLActionFactory σ Code Args Out) : Prop where
  getCode : Keeps I f.getCode
  getActions : ∀ code, ∃ actions, f.getActions code = pure actions ∧ ∀ action ∈ actions, ∀ args, Keeps I (action args)
  getArgs : ∀ code, Keeps I (f.getArgs code)
  stop : ∀ code, Keeps I (f.stop code)

theorem tryNext_keeps {action : SQLAction σ Args Out} {args : Option Args} (h : Keeps I (action args)) :
    Keeps I (tryNext action args) where
  ok s out t i run := by
    unfold tryNext at run
    cases ran : action args s with
    | ok out' s' =>
      rw [ran] at run
      cases run
      exact h.ok s _ _ i ran
    | error fault s' =>
      rw [ran] at run
      dsimp only at run
      split at run <;> cases run
      exact h.error s _ _ i ran
  error s fault t i run := by
    unfold tryNext at run
    cases ran : action args s with
    | ok out' s' =>
      rw [ran] at run
      cases run
    | error fault' s' =>
      rw [ran] at run
      dsimp only at run
      split at run <;> cases run
      exact h.error s _ _ i ran

theorem Steady.runNext (h : Steady I f) (multipleArgs firstTime : Bool) (code : Code) (args : Option Args)
    {action : SQLAction σ Args Out} (keeps : ∀ args, Keeps I (action args)) :
    Keeps I (f.runNext multipleArgs firstTime code args action) := by
  have asked : Keeps I (f.nextArgs multipleArgs firstTime code args) := by
    unfold nextArgs
    split
    · exact h.getArgs code
    · split
      · exact h.getArgs code
      · exact Runs.pure fun _ i => i
  exact asked.bind fun args => (tryNext_keeps (keeps args)).bind fun _ => Runs.pure fun _ i => i

theorem Steady.runActions (h : Steady I f) (mergeF : Option Merge → Option Out → Option Merge) (multipleArgs : Bool)
    (code : Code) (actions : List (SQLAction σ Args Out)) (keeps : ∀ action ∈ actions, ∀ args, Keeps I (action args))
    (firstTime : Bool) (args : Option Args) (merged : Option Merge) :
    Keeps I (f.runActions mergeF multipleArgs code firstTime args merged actions) := by
  induction actions generalizing firstTime args merged with
  | nil => exact Runs.pure fun _ i => i
  | cons action rest ih =>
    have first := h.runNext multipleArgs firstTime code args (keeps action List.mem_cons_self)
    have later := ih fun action mem => keeps action (List.mem_cons_of_mem _ mem)
    refine ⟨fun s out t i run => ?_, fun s fault t i run => ?_⟩
    · unfold SQLActionFactory.runActions at run
      split at run
      · exact (later _ _ _).ok _ _ _ (first.ok s _ _ i ‹_›) run
      · cases run
        exact first.error s _ _ i ‹_›
      · cases run
    · unfold SQLActionFactory.runActions at run
      split at run
      · exact (later _ _ _).error _ _ _ (first.ok s _ _ i ‹_›) run
      · cases run
      · cases run
        exact first.error s _ _ i ‹_›

theorem Steady.runCodes (h : Steady I f) (mergeF : Option Merge → Option Out → Option Merge)
    (joinF : Option Join → Option Merge → Option Join) (multipleArgs : Bool) (fuel : Nat) (joined : Option Join) :
    Keeps I (f.runCodes mergeF joinF multipleArgs fuel joined) := by
  induction fuel generalizing joined with
  | zero => exact Runs.throw _ fun _ i => i
  | succ fuel ih =>
    unfold SQLActionFactory.runCodes
    refine h.getCode.bind fun code => ?_
    cases code with
    | none => exact Runs.pure fun _ i => i
    | some code =>
      obtain ⟨actions, handed, keeps⟩ := h.getActions code
      dsimp only
      rw [handed, pure_bind]
      refine (h.runActions mergeF multipleArgs code actions keeps true none none).bind fun merged => ?_
      refine (h.stop code).bind fun stopped => ?_
      cases stopped with
      | true => exact Runs.pure fun _ i => i
      | false => exact ih _

theorem Steady.doActions (h : Steady I f) (mergeF : Option (Option Merge → Option Out → Option Merge))
    (joinF : Option (Option Join → Option Merge → Option Join)) (multipleArgs : Bool) (fuel : Nat) :
    Keeps I (f.doActions mergeF joinF multipleArgs fuel) :=
  h.runCodes _ _ multipleArgs fuel none

end SQLActionFactory

/-! ## The actions -/

namespace ODBCConnector
variable (o : OdbcCall)

theorem getProperty_open (p : Property) (column : Nat) : Keeps Open (getProperty o.active o.driver p column) := by
  refine Runs.of_exists fun b => ?_
  have opens : ∀ c, Upto 13 b c → Open c := fun c h => h.open (Nat.le_refl 13)
  exact (getProperty_keeps o.active o.driver p column b).weaken (fun _ h => h) opens opens

theorem typeFactory_steady : SQLActionFactory.Steady Open (typeFactory o) where
  getCode := Runs.get fun c h => ((getProperty_open o .types _).start h).bind fun _ => Runs.pure fun _ h => h
  getActions code := by
    refine ⟨[typeAction o], rfl, fun action mem args => ?_⟩
    rw [List.mem_singleton.1 mem]
    cases args with
    | none => exact Runs.throw _ fun _ h => h
    | some code =>
      refine (given_keeps (typeOfCode code)).bind fun type => Runs.get fun c h => ?_
      exact ((getProperty_open o .names _).start h).bind fun _ => Runs.pure fun _ h => h
  getArgs code := Runs.pure fun _ h => h
  stop code := Runs.pure fun _ h => h

theorem perRow_open (rows : Nat) : Keeps Open (perRow o rows) := by
  induction rows with
  | zero => exact Runs.pure fun _ h => h
  | succ rows ih => exact (trigger_keeps Open.blind o.active .onNextRow).bind fun _ => ih

theorem nextTypeChecks_open (rows : Nat) : Keeps Open (nextTypeChecks o rows) := by
  have checked := trigger_keeps Open.blind o.active .onGetNext
  unfold nextTypeChecks
  refine Runs.get fun c h => ?_
  cases c.cursor.notEnd with
  | true => exact ((perRow_open o rows).bind fun _ => checked).start h
  | false => exact checked.start h

theorem setNext_open (increment : Nat) : Keeps Open (setNext increment) where
  ok c rows t h run := by
    unfold setNext at run
    split at run <;> cases run
    exact Open.blind c _ rfl rfl h
  error c fault t h run := by
    unfold setNext at run
    split at run <;> cases run
    exact h

end ODBCConnector

namespace OdbcJob
open ODBCConnector
variable {ρ α : Type} (o : OdbcCall)

/-- The connector is open. -/
def Live (s : OdbcJob ρ) : Prop := Open s.connector

/-- The calls made so far are in order. -/
def Ordered (s : OdbcJob ρ) : Prop := InOrder s.connector.calls

theorem Live.ordered (s : OdbcJob ρ) (h : Live s) : Ordered s := Open.inOrder h

variable {P Q E R : OdbcJob ρ → Prop}

theorem call_runs {x : Proc ODBCConnector α} {P Q E : ODBCConnector → Prop} (h : Runs P x Q E) :
    Runs (fun s : OdbcJob ρ => P s.connector) (call x) (fun s => Q s.connector) fun s => E s.connector where
  ok s a t p run := by
    cases ran : x s.connector with
    | ok a' c' =>
      rw [call_ok ran] at run
      cases run
      exact h.ok _ _ _ p ran
    | error fault c' =>
      rw [call_error ran] at run
      cases run
  error s fault t p run := by
    cases ran : x s.connector with
    | ok a' c' =>
      rw [call_ok ran] at run
      cases run
    | error fault' c' =>
      rw [call_error ran] at run
      cases run
      exact h.error _ _ _ p ran

theorem catch_runs {x : Proc (OdbcJob ρ) α} {handle : Fault → Proc (OdbcJob ρ) α} (body : Runs P x Q E)
    (caught : ∀ fault, Runs E (handle fault) Q R) (passed : ∀ s, E s → R s) : Runs P (catchFault x handle) Q R where
  ok s a t p run := by
    unfold catchFault at run
    split at run
    · exact (caught _).ok _ a t (body.error s _ _ p ‹_›) run
    · exact (caught _).ok _ a t (body.error s _ _ p ‹_›) run
    · exact body.ok s a t p run
  error s fault t p run := by
    unfold catchFault at run
    split at run
    · exact (caught _).error _ fault t (body.error s _ _ p ‹_›) run
    · exact (caught _).error _ fault t (body.error s _ _ p ‹_›) run
    · exact passed t (body.error s fault t p run)

theorem respond_keeps (f : ρ → Except Fault ρ) : Keeps Live (respond f) where
  ok s a t h run := by
    unfold respond at run
    split at run <;> cases run
    exact h
  error s fault t h run := by
    unfold respond at run
    split at run <;> cases run
    exact h

theorem requireResponse_keeps (misfit : Str) : Keeps Q (requireResponse o misfit) := by
  unfold requireResponse
  split
  · exact Runs.pure fun _ h => h
  · exact Runs.throw _ fun _ h => h

theorem check_keeps (at' : CheckPoint) : Keeps Live (check o at' : Proc (OdbcJob ρ) Unit) :=
  call_runs (trigger_keeps Open.blind o.active at')

theorem reset_keeps : Keeps Live (reset : Proc (OdbcJob ρ) Unit) :=
  call_runs (P := Open) (Q := Open) (E := Open) (Runs.modify fun c h => Open.blind c _ rfl rfl h)

theorem setNext_keeps : Keeps Live (setNext : Proc (OdbcJob ρ) Nat) := call_runs (setNext_open 1)

theorem getColDesc_keeps (column : Nat) : Keeps Live (getColDesc o column : Proc (OdbcJob ρ) Str) :=
  call_runs (getProperty_open o .descs column)

/-! ## The connections -/

theorem close_ordered : Runs Live (close o : Proc (OdbcJob ρ) Unit) Ordered Ordered :=
  (call_runs (close_runs (E := fun c => InOrder c.calls) o.driver)).bind fun _ => Runs.modify fun _ h => h

/-- A handler that closes the connector and throws. -/
theorem close_throw (fault : Fault) : Runs Live (do close o; throw fault : Proc (OdbcJob ρ) α) Q Ordered :=
  (close_ordered o).bind fun _ => Runs.throw _ fun _ h => h

/-- A new connector is connected, or closed again. -/
theorem connect_once (strState : Str) : Runs (fun s : OdbcJob ρ => s.connector = .new strState) (connect o)
    (fun s => Upto 4 0 s.connector ∧ s.connector.ready = false) Ordered := by
  have checked := (trigger_keeps (Upto.blind (n := 4) (b := 0)) o.active .onConnect).and
    (trigger_ready o.active .onConnect false)
  refine catch_runs (E := Live) ?_ (fun fault => close_throw o _) Live.ordered
  refine Runs.bind (Q := fun s => s.connector = .new strState) (Runs.modify fun s h => h) fun _ => ?_
  refine (call_runs (connect_runs (E := Open) o.driver o.server o.user o.pass strState)).bind fun _ => ?_
  exact call_runs (checked.throwing fun _ h => h.1.open (by decide))

theorem query_once : Runs (fun s : OdbcJob ρ => Upto 4 0 s.connector ∧ s.connector.ready = false) (query o) Live Ordered := by
  refine catch_runs (E := Live) ?_ (fun fault => ?_) Live.ordered
  · exact (call_runs (query_runs o.active o.driver o.statements)).bind fun _ => check_keeps o .onQuery
  · have unknown (fault : Fault) : Runs Live (throw fault : Proc (OdbcJob ρ) Unit) Live Ordered := Runs.throw _ Live.ordered
    unfold queryCatch
    dsimp only
    split
    · exact close_throw o _
    · exact close_throw o _
    · split
      · exact close_throw o _
      · exact unknown _
    · exact close_throw o _
    · exact unknown _

theorem closeAction_once : Runs Live (closeAction o : Proc (OdbcJob ρ) Unit) Ordered Ordered := by
  refine catch_runs (E := Ordered) ?_ (fun fault => Runs.throw _ fun _ h => h) fun _ h => h
  have blind : Blind fun c => InOrder c.calls := fun c c' calls _ h => by
    change InOrder c'.calls
    rw [calls]
    exact h
  exact (close_ordered o).bind fun _ => call_runs (trigger_keeps blind o.active .onClose)

/-! ## The columns -/

theorem nextType_once : Runs Live (nextType o : Proc (OdbcJob ρ) (Option BaseType)) Live Ordered := by
  refine catch_runs (E := Live) ?_ (fun fault => ?_) Live.ordered
  · refine (call_runs ((typeFactory_steady o).doActions _ _ false 1)).bind fun bt => ?_
    exact setNext_keeps.bind fun rows => (call_runs (nextTypeChecks_open o rows)).bind fun _ => Runs.pure fun _ h => h
  · unfold nextTypeCatch
    split
    · exact Runs.pure fun _ h => h
    · exact close_throw o _

/-- What is done with a column once it has its type. -/
theorem at_end {x : Proc (OdbcJob ρ) α} (h : Keeps Live x) : Runs Live x Live Ordered :=
  h.throwing Live.ordered

section Loops
variable {L : Libdap}

theorem dasColumn_once (i : Nat) : Runs Live (BuilderCalls.dasColumn L (calls o) i) Live Ordered := by
  refine (nextType_once o).bind fun bt => at_end ?_
  cases bt with
  | some bt => exact (getColDesc_keeps o i).bind fun desc => respond_keeps _
  | none => exact respond_keeps _

theorem dasColumns_once (i left : Nat) : Runs Live (BuilderCalls.dasColumns L (calls o) i left) Live Ordered := by
  induction left generalizing i with
  | zero => exact Runs.pure fun _ h => h
  | succ left ih => exact (dasColumn_once o i).bind fun _ => ih (i + 1)

theorem ddsColumn_once (dummy : Str) (i : Nat) (seq : List SeqVar) :
    Runs Live (BuilderCalls.ddsColumn L (calls o) dummy i seq) Live Ordered := by
  refine (nextType_once o).bind fun bt => at_end ?_
  cases bt with
  | some bt =>
    exact (getColDesc_keeps o i).bind fun desc => (respond_keeps _).bind fun _ => Runs.pure fun _ h => h
  | none => exact setNext_keeps.bind fun _ => (respond_keeps _).bind fun _ => Runs.pure fun _ h => h

theorem ddsColumns_once (dummy : Str) (i left : Nat) (seq : List SeqVar) :
    Runs Live (BuilderCalls.ddsColumns L (calls o) dummy i left seq) Live Ordered := by
  induction left generalizing i seq with
  | zero => exact Runs.pure fun _ h => h
  | succ left ih => exact (ddsColumn_once o dummy i seq).bind fun seq' => ih (i + 1) seq'

/-! ## The builders -/

theorem sqlBuildDas_once (strState : Str) :
    Runs (fun s : OdbcJob L.DAS => s.connector = .new strState) (BuilderCalls.sqlBuildDas L (calls o)) Ordered Ordered := by
  have new : ∀ s : OdbcJob L.DAS, s.connector = .new strState → Ordered s := fun s same => by
    unfold Ordered
    rw [same]
    exact ⟨List.nodup_nil, List.nodup_nil, List.Pairwise.nil⟩
  unfold BuilderCalls.sqlBuildDas
  refine ((requireResponse_keeps o _).throwing new).bind fun _ => ?_
  refine (connect_once o strState).bind fun _ => (query_once o).bind fun _ => ?_
  refine (at_end (respond_keeps fun das => .ok (L.openTable o.server das))).bind fun _ => ?_
  refine (at_end reset_keeps).bind fun _ => Runs.get fun s live => ?_
  refine ((dasColumns_once o 0 _).start live).bind fun _ => ?_
  exact (closeAction_once o).bind fun _ => Runs.pure fun _ h => h

theorem buildSequence_once (misfit dummy : Str) (strState : Str) :
    Runs (fun s : OdbcJob L.DDS => s.connector = .new strState) (BuilderCalls.buildSequence L misfit dummy (calls o))
      Ordered Ordered := by
  unfold BuilderCalls.buildSequence
  refine (connect_once o strState).bind fun _ => (query_once o).bind fun _ => ?_
  refine (at_end (requireResponse_keeps o misfit)).bind fun _ => (at_end reset_keeps).bind fun _ => Runs.get fun s live => ?_
  refine ((ddsColumns_once o dummy 0 _ []).start live).bind fun seq => ?_
  refine (at_end reset_keeps).bind fun _ => ?_
  have named := respond_keeps fun dds => .ok (L.setDatasetName (BuilderCalls.baseName o.realName) (L.addVar o.server seq dds))
  exact (named.weaken (fun _ h => h) Live.ordered Live.ordered).bind fun _ => Runs.pure fun _ h => h

theorem build_once (command : Command) (strState : Str) :
    Runs (fun s : OdbcJob (command.Response L) => s.connector = .new strState) (build L o command) Ordered Ordered := by
  cases command with
  | das => exact sqlBuildDas_once o strState
  | dds => exact buildSequence_once o _ _ strState
  | data => exact buildSequence_once o _ _ strState

/-- However a command ends, the calls on its driver are in the order of a connection, none made twice and no
column bound twice. -/
theorem build_inOrder (command : Command) (strState : Str) (closed : Bool) (response : command.Response L) :
    InOrder (SQLActionFactory.stateOf (build L o command ⟨.new strState, closed, response⟩)).connector.calls := by
  have runs := build_once (L := L) o command strState
  cases run : build L o command ⟨.new strState, closed, response⟩ with
  | ok ret s => exact runs.ok _ ret s rfl run
  | error fault s => exact runs.error _ fault s rfl run

end Loops

end OdbcJob

end SqlHandler
