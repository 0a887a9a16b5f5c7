import SqlHandler.Handler.Presented

/-!
# A column on a driver

`nextType` and `getColDesc` on the connector of the plugin, one column behind the other. The first
column fills the arrays of names and descriptions, the others find them (`Walk`, `Typed`), and a
type action either makes the variable of the driver's column or ends the builder.
-/

namespace SqlHandler
open Posix Lockstep

namespace OdbcJob
open ODBCConnector
variable {ρ α : Type} {o : OdbcCall} {now : ρ}

/-! ## The states between two columns -/

/-- The descriptions are there, and the reply that came with the last is still the latest. -/
structure Described (o : OdbcCall) (c : ODBCConnector) : Prop where
  full : Full o.driver .descs c
  filled : o.filled .descs = .ok ()
  rc : c.rc = o.lastDesc.rc
  stmt : c.records .stmt = o.lastDesc.records

/-- A connector on which `i` columns have been done. -/
structure Walk (o : OdbcCall) (i : Nat) (c : ODBCConnector) : Prop where
  settled : Settled (connRecords o.driver) (envRecords o.driver) c
  columns : c.cursor.columns = o.columns
  position : i < o.columns → c.cursor.columnPosition = i
  types : 0 < o.columns → Full o.driver .types c
  first : i = 0 → c.arrays .names = none ∧ c.arrays .descs = none ∧ c.rc.failed = false
  later : 0 < i → Full o.driver .names c ∧ o.filled .names = .ok () ∧ Described o c

/-- A connector whose variables have been typed up to column `i`, before that column is described. -/
structure Typed (o : OdbcCall) (i : Nat) (c : ODBCConnector) : Prop where
  settled : Settled (connRecords o.driver) (envRecords o.driver) c
  columns : c.cursor.columns = o.columns
  types : Full o.driver .types c
  names : Full o.driver .names c
  named : o.filled .names = .ok ()
  first : i = 0 → c.arrays .descs = none ∧ c.rc.failed = false
  later : 0 < i → Described o c

/-- The states between two columns. -/
def At (o : OdbcCall) (i : Nat) (now : ρ) (s : OdbcJob ρ) (j : Job ρ) : Prop := Agree now s j ∧ Walk o i s.connector

/-! ## What the filled arrays say of the checks -/

/-- No check failed where an array was filled. -/
theorem filling_passed {active : CheckPoint → Bool} {D : Driver} {p : Property} {conn env : List DiagRec} {col left : Nat}
    (h : filling active D p conn env col left = .ok ()) {k : Nat} (le : col ≤ k) (lt : k < col + left) :
    ¬ (Checked active p.point ∧ (described D p k).rc.failed = true) := by
  induction left generalizing col with
  | zero => omega
  | succ left ih =>
    unfold filling at h
    obtain ⟨_, judged, rest⟩ := Lockstep.of_bind_ok h
    rcases Nat.eq_or_lt_of_le le with rfl | more
    · intro bad
      rw [judge_bad bad] at judged
      cases judged
    · exact ih rest more (by omega)

/-! ## The errors of the connector -/

/-- An outcome whose only faults are the error checks'. -/
def Fatal {β : Type} (x : Except Fault β) : Prop :=
  ∀ fault, x = .error fault → ∃ message, fault = .error ⟨.sqlInternalFatalError, message⟩

theorem Fatal.ok {β : Type} (b : β) : Fatal (.ok b) := fun _ h => by cases h

theorem Fatal.error {β : Type} (message : Str) :
    Fatal (.error (.error ⟨.sqlInternalFatalError, message⟩) : Except Fault β) :=
  fun _ h => by
    cases h
    exact ⟨message, rfl⟩

theorem Fatal.bind {β γ : Type} {x : Except Fault β} {f : β → Except Fault γ} (first : Fatal x)
    (rest : ∀ b, Fatal (f b)) : Fatal (x >>= f) := by
  cases x with
  | ok b => exact rest b
  | error fault =>
    obtain ⟨message, rfl⟩ := first fault rfl
    exact .error message

theorem judge_fatal (active : CheckPoint → Bool) (check : CheckPoint) (rc : Return) (message : Str) :
    Fatal (judge active check rc message) := by
  unfold judge
  split
  · exact .error message
  · exact .ok ()

theorem filling_fatal (active : CheckPoint → Bool) (D : Driver) (p : Property) (conn env : List DiagRec) (col left : Nat) :
    Fatal (filling active D p conn env col left) := by
  induction left generalizing col with
  | zero => exact .ok ()
  | succ left ih => exact (judge_fatal _ _ _ _).bind fun _ => ih (col + 1)

theorem typeOfCode_fatal (code : Option CType) : Fatal (typeOfCode code) := by
  cases code with
  | none => exact .error _
  | some type =>
    cases type with
    | SQL_C_WCHAR => exact .error _
    | _ => exact .ok _

theorem typing_fatal (o : OdbcCall) (i : Nat) : Fatal (o.typing i) :=
  (typeOfCode_fatal _).bind fun _ => (filling_fatal _ _ _ _ _ _ _).bind fun _ => .ok _

theorem checking_fatal (o : OdbcCall) (check : CheckPoint) (i : Nat) : Fatal (o.checking check i) := by
  cases check with
  | onConnect => exact judge_fatal _ _ _ _
  | onNextRow | onGetNext | onClose =>
    unfold OdbcCall.checking
    dsimp only
    split
    · exact .ok ()
    · exact judge_fatal _ _ _ _
  | onAlways | onQuery | onCustom => exact .ok ()

theorem perRow_fatal {check : Except Fault Unit} (h : Fatal check) (rows : Nat) : Fatal (Job.perRow check rows) := by
  induction rows with
  | zero => exact .ok ()
  | succ rows ih => exact h.bind fun _ => ih

theorem nextTypeChecks_fatal (o : OdbcCall) (i rows : Nat) (notEnd : Bool) :
    Fatal (Job.nextTypeChecks o.checking i rows notEnd) := by
  unfold Job.nextTypeChecks
  cases notEnd with
  | true => exact (perRow_fatal (checking_fatal o .onNextRow i) rows).bind fun _ => checking_fatal o .onGetNext i
  | false => exact checking_fatal o .onGetNext i

/-! ## The type of one column -/

/-- The one action of a type factory of the backend is what the manager makes of it. -/
theorem doActions_types (o : OdbcCall) (i : Nat) : SQLTypeManager.doActions (o.presented.types i) = o.typing i := by
  change SQLTypeManager.doActions [.ok ⟨.ok [o.typing i], true⟩] = o.typing i
  cases type : o.typing i with
  | ok out => rfl
  | error fault =>
    obtain ⟨message, rfl⟩ := typing_fatal o i _ type
    rfl

/-- The name of the next column. -/
theorem Walk.name {i : Nat} {c : ODBCConnector} (h : Walk o i c) (more : i < o.columns) :
    Gives (fun v c' => v = value o.driver .names i ∧ c'.cursor = c.cursor ∧ Typed o i c') (getColName o.active o.driver i c)
      (o.filled .names >>= fun _ => .ok (value o.driver .names i)) := by
  have inside : i < c.cursor.columns := by rw [h.columns]; exact more
  have some' : 0 < o.columns := by omega
  rcases Nat.eq_zero_or_pos i with rfl | later
  · obtain ⟨names, descs, passed⟩ := h.first rfl
    have filled := h.settled.getProperty (D := o.driver) o.active names inside
    rw [h.columns] at filled
    refine filled.weaken fun v c' named made => ?_
    obtain ⟨same, full, settled⟩ := made
    obtain ⟨_, named, -⟩ := Lockstep.of_bind_ok named
    refine ⟨same, full.cursor, settled, by rw [full.cursor, h.columns], ?_, full.full h.columns, named, fun _ => ⟨?_, ?_⟩,
      (absurd · (Nat.lt_irrefl 0))⟩
    · have types := h.types some'
      unfold Full at types ⊢
      rw [full.others .types nofun, full.cursor, types]
    · rw [full.others .descs nofun, descs]
    · rw [full.rc some']
      have last := filling_passed named (Nat.zero_le (o.columns - 1)) (by omega)
      exact Bool.eq_false_iff.2 fun failed => last ⟨.inl rfl, failed⟩
  · obtain ⟨names, named, described⟩ := h.later later
    rw [named]
    have stands : getColName o.active o.driver i c = .ok (value o.driver .names i) c := getProperty_full o.active names inside
    rw [stands]
    exact .ok ⟨rfl, rfl, h.settled, h.columns, h.types some', names, named, fun zero => absurd zero (Nat.ne_of_gt later),
      fun _ => described⟩

/-- The type action on the next column. -/
theorem Walk.action {i : Nat} {c : ODBCConnector} (h : Walk o i c) (more : i < o.columns) :
    Gives (fun bt c' => (∃ v, o.column i = .ok v ∧ bt = some v) ∧ c'.cursor = c.cursor ∧ Typed o i c')
      (typeAction o (some (value o.driver .types i)) c)
      (o.typing i >>= fun bt => .ok (bt.map (o.presented.newType i))) := by
  unfold typeAction OdbcCall.typing
  simp only [bind_assoc]
  refine (given_gives (typeOfCode (value o.driver .types i)) c).bind fun type c' known same => ?_
  obtain ⟨-, rfl⟩ := same
  rw [Proc.get_bind, h.position more]
  change Gives _ _ (o.filled .names >>= fun _ => .ok (some (o.presented.newType i type.dapType.typeName)))
  rw [← bind_value (o.filled .names) (value o.driver .names i)
    fun _ => .ok (some (o.presented.newType i type.dapType.typeName))]
  refine (h.name more).bind fun name c' _ named => ?_
  obtain ⟨rfl, cursor, typed⟩ := named
  have column : o.column i = .ok ⟨value o.driver .names i, type.dapType.typeName, i⟩ := by
    unfold OdbcCall.column
    rw [known]
    rfl
  exact .ok ⟨⟨_, column, rfl⟩, cursor, typed⟩

/-- `SQLTypeManager::doActions` on the next column. -/
theorem Walk.doActions {i : Nat} {c : ODBCConnector} (h : Walk o i c) (more : i < o.columns) :
    Gives (fun bt c' => (∃ v, o.column i = .ok v ∧ bt = some v) ∧ c'.cursor = c.cursor ∧ Typed o i c')
      ((typeFactory o).doActions (some SQLActionManager.latest) (some SQLActionManager.latest) false 1 c)
      (SQLTypeManager.doActions (o.presented.types i) >>= fun bt => .ok (bt.map (o.presented.newType i))) := by
  have inside : i < c.cursor.columns := by rw [h.columns]; exact more
  have type : getType o.active o.driver c.cursor.columnPosition c = .ok (value o.driver .types i) c := by
    rw [h.position more]
    exact getProperty_full o.active (h.types (by omega)) inside
  have single : Single (typeFactory o) (value o.driver .types i) (some (value o.driver .types i)) (typeAction o) c c c :=
    ⟨Proc.bind_ok type, rfl, rfl⟩
  have ran := h.action more
  rw [doActions_types]
  cases run : typeAction o (some (value o.driver .types i)) c with
  | ok bt c' =>
    rw [run] at ran
    rw [single.returns run rfl]
    exact ran
  | error fault c' =>
    rw [run] at ran
    cases type : o.typing i with
    | ok bt =>
      rw [type] at ran
      cases ran
    | error fault' =>
      rw [type] at ran
      cases ran
      obtain ⟨message, rfl⟩ := typing_fatal o i _ type
      rw [single.throws run]
      exact .error

/-- The checks behind the move. -/
theorem Typed.check {i : Nat} {c : ODBCConnector} (h : Typed o i c) {check : CheckPoint}
    (point : check = .onNextRow ∨ check = .onGetNext) :
    Gives (fun _ c' => c' = c) (trigger o.active check c) (o.checking check i) := by
  have checked := h.settled.trigger o.active check
  rcases Nat.eq_zero_or_pos i with rfl | later
  · have passed := (h.first rfl).2
    have good : ¬ (Checked o.active check ∧ c.rc.failed = true) := fun bad => by
      rw [passed] at bad
      exact Bool.false_ne_true bad.2
    rw [h.settled.trigger_good good]
    rcases point with rfl | rfl <;> exact .ok rfl
  · have described := h.later later
    rw [described.rc, described.stmt] at checked
    have same : o.checking check i = judge o.active check o.lastDesc.rc
        (blame (connRecords o.driver) o.lastDesc.records (envRecords o.driver)) := by
      rcases point with rfl | rfl <;> exact if_neg (Nat.ne_of_gt later)
    rw [same]
    exact checked

theorem Typed.checks {i : Nat} {c : ODBCConnector} (h : Typed o i c) (rows : Nat) :
    Gives (fun _ c' => c' = c) (nextTypeChecks o rows c) (Job.nextTypeChecks o.checking i rows c.cursor.notEnd) := by
  have perRow : Gives (fun _ c' => c' = c) (perRow o rows c) (Job.perRow (o.checking .onNextRow i) rows) := by
    induction rows with
    | zero => exact .ok rfl
    | succ rows ih =>
      unfold ODBCConnector.perRow Job.perRow
      refine (h.check (.inl rfl)).bind fun _ c' _ same => ?_
      obtain rfl := same
      exact ih
  unfold nextTypeChecks Job.nextTypeChecks
  rw [Proc.get_bind]
  cases c.cursor.notEnd with
  | false => exact h.check (.inr rfl)
  | true =>
    refine perRow.bind fun _ c' _ same => ?_
    obtain rfl := same
    exact h.check (.inr rfl)

/-- A connector after `setNext`. -/
theorem Typed.moved {i : Nat} {c : ODBCConnector} (h : Typed o i c) {next : Cursor} (columns : next.columns = c.cursor.columns) :
    Typed o i { c with cursor := next } := by
  have full {p : Property} (full : Full o.driver p c) : Full o.driver p { c with cursor := next } := by
    unfold Full at full ⊢
    rw [columns, full]
  refine ⟨⟨h.settled.seq, h.settled.conn, h.settled.env⟩, columns.trans h.columns, full h.types, full h.names, h.named,
    h.first, fun later => ?_⟩
  have described := h.later later
  exact ⟨full described.full, described.filled, described.rc, described.stmt⟩

/-- `setNext()` inside a row. -/
theorem setNext_inside {c next : Cursor} {i rows : Nat} (position : c.columnPosition = i) (more : i + 1 < c.columns)
    (small : c.columns < 2 ^ 64) (step : c.setNext 1 = .ok (rows, next)) : next.columnPosition = i + 1 := by
  have wrap : sizeT (c.columnPosition + 1) = i + 1 := by
    rw [position]
    exact sizeT_of_lt (by omega)
  rw [Cursor.setNext_near (by omega), Cursor.setColumn_same (by rw [wrap]; exact more), wrap] at step
  cases step
  rfl

/-- The states behind `nextType` on column `i`, which has made a variable. -/
structure Behind (o : OdbcCall) (i : Nat) (now : ρ) (bt bt' : Option BaseType) (s : OdbcJob ρ) (j : Job ρ) : Prop where
  same : bt = bt'
  made : ∃ v, o.column i = .ok v ∧ bt = some v
  agree : Agree now s j
  typed : Typed o i s.connector
  position : i + 1 < o.columns → s.connector.cursor.columnPosition = i + 1

theorem small_columns (o : OdbcCall) : o.columns < 2 ^ 64 := by
  have lt := o.driver.columns_lt
  have nonneg := o.driver.columns_nonneg
  change (o.driver.answer .numResultCols).number.toNat < 2 ^ 64
  omega

/-- Faults `nextType` does not make a NULL of. -/
def Thrown (fault : Fault) (s : OdbcJob ρ) (j : Job ρ) : Prop := Ended s j ∧ Job.absorbed fault = false

/-- `setNext()` on both cursors. -/
theorem setNext_together {i : Nat} : Together
    (fun (s : OdbcJob ρ) j => Agree now s j ∧ Typed o i s.connector ∧ s.connector.cursor.columnPosition = i)
    setNext (Job.setNext : Proc (Job ρ) Nat)
    (fun rows rows' s j => rows = rows' ∧ Agree now s j ∧ Typed o i s.connector ∧
      (i + 1 < o.columns → s.connector.cursor.columnPosition = i + 1)) Thrown := by
  intro s j h
  obtain ⟨agree, typed, position⟩ := h
  unfold Job.setNext
  rw [agree.cursor]
  cases step : s.connector.cursor.setNext 1 with
  | error fault =>
    have stops : ODBCConnector.setNext 1 s.connector = .error fault s.connector := by
      unfold ODBCConnector.setNext
      rw [step]
    obtain rfl := Cursor.setNext_error step
    have served : setNext s = .error .undefined s := call_error stops
    rw [served]
    exact .error ⟨agree.ended, rfl⟩
  | ok move =>
    obtain ⟨rows, next⟩ := move
    have moves : ODBCConnector.setNext 1 s.connector = .ok rows { s.connector with cursor := next } := by
      unfold ODBCConnector.setNext
      rw [step]
    have served : setNext s = .ok rows { s with connector := { s.connector with cursor := next } } := call_ok moves
    rw [served]
    refine .ok ⟨rfl, ⟨rfl, agree.closed, agree.left, agree.right⟩, typed.moved (Cursor.setNext_sized step).2,
      fun more => ?_⟩
    have width := typed.columns
    exact setNext_inside position (by omega) (by rw [width]; exact small_columns o) step

theorem nextTypeTry_together (o : OdbcCall) {i : Nat} (more : i < o.columns) :
    Together (At o i now) (nextTypeTry o) (Job.nextTypeTry o.presented : Proc (Job ρ) (Option BaseType)) (Behind o i now)
      Thrown := by
  have typed : Together (At o i now)
      (call ((typeFactory o).doActions (some SQLActionManager.latest) (some SQLActionManager.latest) false 1))
      (Job.answer (SQLTypeManager.doActions (o.presented.types i)) : Proc (Job ρ) _)
      (fun bt name s j => bt = name.map (o.presented.newType i) ∧ (∃ v, o.column i = .ok v ∧ bt = some v) ∧
        Agree now s j ∧ Typed o i s.connector ∧ s.connector.cursor.columnPosition = i) Thrown := by
    refine (answer_together (Option.map (o.presented.newType i)) (fun _ _ h => h.1.ended) fun s j h => ?_).weaken
      (fun _ _ h => h) (fun _ _ _ _ h => h) fun fault s j h => ⟨h.1, ?_⟩
    · obtain ⟨agree, walk⟩ := h
      refine (walk.doActions more).weaken fun bt c' _ run name _ same => ?_
      obtain ⟨made, cursor, typed⟩ := run
      exact ⟨same, made, ⟨agree.cursor.trans cursor.symm, agree.closed, agree.left, agree.right⟩, typed,
        by rw [cursor, walk.position more]⟩
    · have error := h.2
      rw [doActions_types] at error
      obtain ⟨message, rfl⟩ := typing_fatal o i _ error
      rfl
  intro s j h
  have column : j.cursor.columnPosition = i := by rw [h.1.cursor, h.2.position more]
  have job : Job.nextTypeTry o.presented j = (do
      let bt ← Job.answer (SQLTypeManager.doActions (o.presented.types i))
      let rows ← Job.setNext
      let c := (← get).cursor
      Job.answer (Job.nextTypeChecks o.checking i rows c.notEnd)
      return bt.map (o.presented.newType i) : Proc (Job ρ) _) j := by
    rw [← column]
    rfl
  rw [job]
  unfold nextTypeTry
  refine (typed s j h).bind fun bt name s j h => ?_
  obtain ⟨same, made, rest⟩ := h
  refine (setNext_together s j rest).bind fun rows rows' s j h => ?_
  obtain ⟨rfl, agree, typed, position⟩ := h
  have checked : Together (fun s' j' => s' = s ∧ j' = j) (call (ODBCConnector.nextTypeChecks o rows))
      (Job.answer (Job.nextTypeChecks o.checking i rows j.cursor.notEnd) : Proc (Job ρ) Unit)
      (fun _ _ s' j' => s' = s ∧ j' = j) Thrown := by
    refine (check_together (fun _ _ h => by rw [h.1, h.2]; exact agree.ended) fun s' j' h => ?_).weaken (fun _ _ h => h)
      (fun _ _ _ _ h => h) fun fault s' j' h => ⟨h.1, ?_⟩
    · obtain ⟨rfl, rfl⟩ := h
      rw [agree.cursor]
      exact (typed.checks rows).weaken fun _ c' _ kept => ⟨by rw [kept], rfl⟩
    · obtain ⟨message, rfl⟩ := nextTypeChecks_fatal o i rows _ _ h.2
      rfl
  refine (checked s j ⟨rfl, rfl⟩).bind fun _ _ s' j' kept => ?_
  obtain ⟨rfl, rfl⟩ := kept
  exact .ok ⟨same, made, agree, typed, position⟩

/-- No fault that comes here is made a NULL of. -/
theorem nextTypeCatch_together (o : OdbcCall) (i : Nat) (fault : Fault) :
    Together (Thrown fault) (nextTypeCatch o fault) (Job.nextTypeCatch fault : Proc (Job ρ) (Option BaseType)) (Behind o i now)
      fun _ s j => Ended s j := by
  have closes (fault' : Fault) : Together (Thrown fault) (do close o; throw fault' : Proc (OdbcJob ρ) (Option BaseType))
      (do Job.close; throw fault' : Proc (Job ρ) (Option BaseType)) (Behind o i now) fun _ s j => Ended s j :=
    closing_together fault' fun _ _ h => h.1
  cases fault with
  | error e =>
    obtain ⟨kind, message⟩ := e
    cases kind with
    | sqlInternalError =>
      intro s j h
      cases h.2
    | sqlInternalFatalError => exact closes _
    | besInternalError => exact closes _
    | besInternalFatalError => exact closes _
    | besError => exact closes _
  | foreign what => exact closes _
  | undefined => exact closes _
  | endless => exact closes _
  | terminated => exact closes _

theorem nextType_together (o : OdbcCall) {i : Nat} (more : i < o.columns) :
    Together (At o i now) (nextType o) (Job.nextType o.presented : Proc (Job ρ) (Option BaseType)) (Behind o i now)
      fun _ s j => Ended s j :=
  catch_together (nextTypeTry_together o more) (nextTypeCatch_together o i) fun _ _ _ h => h.1

/-- The description of the column whose variable was made. -/
theorem Typed.desc {i : Nat} {c : ODBCConnector} (h : Typed o i c) (more : i < o.columns)
    (position : i + 1 < o.columns → c.cursor.columnPosition = i + 1) :
    Gives (fun desc c' => desc = value o.driver .descs i ∧ c'.cursor = c.cursor ∧ Walk o (i + 1) c')
      (ODBCConnector.getColDesc o.active o.driver i c) (o.presented.getColDesc i) := by
  have inside : i < c.cursor.columns := by rw [h.columns]; exact more
  change Gives _ _ (o.filled .descs >>= fun _ => .ok (value o.driver .descs i))
  rcases Nat.eq_zero_or_pos i with rfl | later
  · obtain ⟨descs, -⟩ := h.first rfl
    have filled := h.settled.getProperty (D := o.driver) o.active descs inside
    rw [h.columns] at filled
    refine filled.weaken fun v c' described made => ?_
    obtain ⟨same, full, settled⟩ := made
    obtain ⟨_, described, -⟩ := Lockstep.of_bind_ok described
    have kept {p : Property} (other : p ≠ .descs) (before : Full o.driver p c) : Full o.driver p c' := by
      unfold Full at before ⊢
      rw [full.others p other, full.cursor, before]
    refine ⟨same, full.cursor, settled, by rw [full.cursor, h.columns], ?_, fun _ => kept (by decide) h.types,
      fun one => absurd one (Nat.succ_ne_zero 0), fun _ => ⟨kept (by decide) h.names, h.named, ?_⟩⟩
    · rw [full.cursor]
      exact position
    · exact ⟨full.full h.columns, described, full.rc more, full.stmt more⟩
  · have described := h.later later
    rw [described.filled]
    have stands : ODBCConnector.getColDesc o.active o.driver i c = .ok (value o.driver .descs i) c :=
      getProperty_full o.active described.full inside
    rw [stands]
    exact .ok ⟨rfl, rfl, h.settled, h.columns, position, fun _ => h.types, fun one => absurd one (Nat.succ_ne_zero i),
      fun _ => ⟨h.names, h.named, described⟩⟩

theorem getColDesc_together (o : OdbcCall) {i : Nat} (more : i < o.columns) (bt bt' : Option BaseType) :
    Together (Behind o i now bt bt') (getColDesc o i) (Job.answer (o.presented.getColDesc i) : Proc (Job ρ) Str)
      (fun desc desc' s j => desc = o.desc i ∧ desc' = desc ∧ At o (i + 1) now s j) fun _ s j => Ended s j := by
  refine (answer_together id (fun _ _ h => h.agree.ended) fun s j h => ?_).weaken (fun _ _ h => h) (fun _ _ _ _ h => h)
    fun _ _ _ h => h.1
  have described := h.typed.desc more h.position
  rw [← bind_pure (o.presented.getColDesc i)] at described
  refine described.weaken fun desc c' _ run desc' _ same => ?_
  obtain ⟨value, cursor, walk⟩ := run
  exact ⟨value, same.symm, ⟨h.agree.cursor.trans cursor.symm, h.agree.closed, h.agree.left, h.agree.right⟩, walk⟩

/-! ## The loops -/

/-- A call on the response, which leaves the connector alone. -/
theorem respond_together {f : ρ → Except Fault ρ} {i : Nat} : Together (At o i now) (respond f) (Job.respond f)
    (fun _ _ s j => ∃ next, f now = .ok next ∧ At o i next s j) fun _ s j => Ended s j := by
  intro s j h
  obtain ⟨agree, walk⟩ := h
  unfold respond Job.respond
  rw [agree.left, agree.right]
  cases run : f now with
  | ok next => exact .ok ⟨next, rfl, ⟨agree.cursor, agree.closed, rfl, rfl⟩, walk⟩
  | error fault => exact .error agree.ended

/-- A column's variable is of that column. -/
theorem column_of {i : Nat} {v : BaseType} (h : o.column i = .ok v) : v.column = i := by
  unfold OdbcCall.column at h
  obtain ⟨type, -, h⟩ := Lockstep.of_bind_ok h
  cases h
  rfl

section Loops
variable {L : Libdap}

theorem dasColumn_together (o : OdbcCall) {now : L.DAS} {i : Nat} (more : i < o.columns) :
    Together (At o i now) (BuilderCalls.dasColumn L (calls o) i) (BuilderCalls.dasColumn L (Job.calls o.presented) i)
      (fun _ _ s j => ∃ v next, o.column i = .ok v ∧
        L.appendDas o.server (o.dasEntry v).name (o.dasEntry v).type (o.dasEntry v).value now = .ok next ∧
        At o (i + 1) next s j)
      fun _ s j => Ended s j := by
  unfold BuilderCalls.dasColumn
  refine (nextType_together o more).bind fun bt bt' s j h => ?_
  obtain rfl := h.same
  obtain ⟨v, column, rfl⟩ := h.made
  refine (getColDesc_together o more _ _ s j h).bind fun desc desc' s j h => ?_
  obtain ⟨described, rfl, between⟩ := h
  refine (respond_together s j between).weaken (fun _ _ s j appended => ?_) fun _ _ _ ended => ended
  obtain ⟨next, appended, between⟩ := appended
  rw [described, ← column_of column] at appended
  exact ⟨v, next, column, appended, between⟩

/-- The loop lists the columns from `i` on. -/
theorem dasColumns_together (o : OdbcCall) {now : L.DAS} {i left : Nat} (inside : i + left = o.columns) :
    Together (At o i now) (BuilderCalls.dasColumns L (calls o) i left)
      (BuilderCalls.dasColumns L (Job.calls o.presented) i left)
      (fun _ _ s j => ∃ vs next, (List.range' i left).mapM o.column = .ok vs ∧
        appendAll (L.appendDas o.server) (vs.map o.dasEntry) now = .ok next ∧ At o o.columns next s j)
      fun _ s j => Ended s j := by
  induction left generalizing i now with
  | zero =>
    obtain rfl : i = o.columns := inside
    exact Together.pure fun _ _ h => ⟨[], now, rfl, rfl, h⟩
  | succ left ih =>
    unfold BuilderCalls.dasColumns
    refine (dasColumn_together o (by omega)).bind fun _ _ s j h => ?_
    obtain ⟨v, next, column, first, between⟩ := h
    refine (ih (by omega) s j between).weaken (fun _ _ s j h => ?_) fun _ _ _ ended => ended
    obtain ⟨vs, last, columns, rest, between⟩ := h
    refine ⟨v :: vs, last, ?_, appendAll_cons.2 ⟨next, first, rest⟩, between⟩
    rw [List.range'_succ, List.mapM_cons, column, columns]
    rfl

theorem ddsColumn_together (o : OdbcCall) (dummy : Str) {now : L.DDS} {i : Nat} (more : i < o.columns) (seq : List SeqVar) :
    Together (At o i now) (BuilderCalls.ddsColumn L (calls o) dummy i seq)
      (BuilderCalls.ddsColumn L (Job.calls o.presented) dummy i seq)
      (fun seq' seq'' s j => seq'' = seq' ∧ ∃ v next, o.column i = .ok v ∧ seq' = seq ++ [.column v] ∧
        L.appendDds (o.ddsEntry v).name (o.ddsEntry v).type (o.ddsEntry v).value now = .ok next ∧ At o (i + 1) next s j)
      fun _ s j => Ended s j := by
  unfold BuilderCalls.ddsColumn
  refine (nextType_together o more).bind fun bt bt' s j h => ?_
  obtain rfl := h.same
  obtain ⟨v, column, rfl⟩ := h.made
  refine (getColDesc_together o more _ _ s j h).bind fun desc desc' s j h => ?_
  obtain ⟨described, rfl, between⟩ := h
  refine (respond_together s j between).bind fun _ _ s j h => ?_
  obtain ⟨next, appended, between⟩ := h
  rw [described, ← column_of column] at appended
  exact .ok ⟨rfl, v, next, column, rfl, appended, between⟩

theorem ddsColumns_together (o : OdbcCall) (dummy : Str) {now : L.DDS} {i left : Nat} (inside : i + left = o.columns)
    (seq : List SeqVar) : Together (At o i now) (BuilderCalls.ddsColumns L (calls o) dummy i left seq)
      (BuilderCalls.ddsColumns L (Job.calls o.presented) dummy i left seq)
      (fun seq' seq'' s j => seq'' = seq' ∧ ∃ vs next, (List.range' i left).mapM o.column = .ok vs ∧
        seq' = seq ++ vs.map .column ∧ appendAll L.appendDds (vs.map o.ddsEntry) now = .ok next ∧ At o o.columns next s j)
      fun _ s j => Ended s j := by
  induction left generalizing i seq now with
  | zero =>
    obtain rfl : i = o.columns := inside
    exact Together.pure fun _ _ h => ⟨rfl, [], now, rfl, (List.append_nil seq).symm, rfl, h⟩
  | succ left ih =>
    unfold BuilderCalls.ddsColumns
    refine (ddsColumn_together o dummy (by omega) seq).bind fun seq' seq'' s j h => ?_
    obtain ⟨rfl, v, next, column, rfl, first, between⟩ := h
    refine (ih (by omega) _ s j between).weaken (fun _ _ s j h => ?_) fun _ _ _ ended => ended
    obtain ⟨rfl, vs, last, columns, rfl, rest, between⟩ := h
    refine ⟨rfl, v :: vs, last, ?_, ?_, appendAll_cons.2 ⟨next, first, rest⟩, between⟩
    · rw [List.range'_succ, List.mapM_cons, column, columns]
      rfl
    · rw [List.append_assoc]
      rfl

end Loops

end OdbcJob

end SqlHandler
