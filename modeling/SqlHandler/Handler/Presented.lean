import SqlHandler.Handler.OdbcJob
import SqlHandler.Connector.Linear

/-!
# The backend an ODBC connector presents

The builders were told of a `Backend`, whose answers are given column by column. `presented` reads
such a backend off the answers of a driver, without arrays, return code or records in between. Here
the rules for a builder on both, and its connection and its query.
-/

namespace SqlHandler
open Posix Lockstep

namespace OdbcCall
open ODBCConnector
variable (o : OdbcCall)

/-- The columns of the statement. -/
def columns : Nat := ODBCConnector.columns o.driver

/-- The outcome of filling an array of the statement. -/
def filled (p : Property) : Except Fault Unit :=
  filling o.active o.driver p (connRecords o.driver) (envRecords o.driver) 0 o.columns

/-- The variable of a column: name and type are those the driver has for it. -/
def column (i : Nat) : Except Fault BaseType := do
  let type ← typeOfCode (value o.driver .types i)
  return ⟨value o.driver .names i, type.dapType.typeName, i⟩

/-- The description of a column. -/
def desc (i : Nat) : Str := value o.driver .descs i

/-- The attribute a variable adds to the DAS. -/
def dasEntry (v : BaseType) : Entry := ⟨v.name, "String".toList, "\"".toList ++ o.desc v.column ++ "\"".toList⟩

/-- The attribute it adds beside a sequence. -/
def ddsEntry (v : BaseType) : Entry := ⟨v.name, v.typeName, o.desc v.column⟩

/-- What a type action comes to: the type has to be known and the names to be there. -/
def typing (column : Nat) : Except Fault (Option Str) := do
  let type ← typeOfCode (value o.driver .types column)
  o.filled .names
  return some type.dapType.typeName

/-- The answer on the last column that the descriptions leave behind. -/
def lastDesc : Reply := described o.driver .descs (o.columns - 1)

/-- The checks: behind the first column the return code is that of the names, which was checked; behind
the others that of the descriptions, which `SQLCloseAction` finds again. -/
def checking (check : CheckPoint) (column : Nat) : Except Fault Unit :=
  match check with
  | .onConnect => judge o.active check (o.driver.answer (.connect o.server o.user o.pass)).rc
      (blame (o.driver.answer (.connect o.server o.user o.pass)).records [] (envRecords o.driver))
  | .onNextRow | .onGetNext =>
    if column = 0 then .ok ()
    else judge o.active check o.lastDesc.rc (blame (connRecords o.driver) o.lastDesc.records (envRecords o.driver))
  | .onClose =>
    if o.columns = 0 then .ok ()
    else judge o.active check o.lastDesc.rc (blame (o.driver.answer .freeConn).records (o.driver.answer .freeStmt).records
      (o.driver.answer .freeEnv).records)
  | .onAlways | .onQuery | .onCustom => .ok ()

/-- What a query answers are the rows it counts and the columns of the statement. -/
theorem querying_ok {s : Statements} {size : Nat × Nat} (h : querying o.active o.driver s = .ok size) :
    counting o.driver s.count = .ok size.1 ∧ size.2 = o.columns := by
  unfold querying at h
  obtain ⟨rows, counted, h⟩ := Lockstep.of_bind_ok h
  obtain ⟨_, _, h⟩ := Lockstep.of_bind_ok h
  obtain ⟨_, _, h⟩ := Lockstep.of_bind_ok h
  obtain ⟨_, _, h⟩ := Lockstep.of_bind_ok h
  obtain ⟨_, _, h⟩ := Lockstep.of_bind_ok h
  obtain ⟨_, _, h⟩ := Lockstep.of_bind_ok h
  obtain ⟨_, _, h⟩ := Lockstep.of_bind_ok h
  cases h
  exact ⟨counted, rfl⟩

/-- The rows are a 32-bit number, the columns a positive `SQLSMALLINT`. -/
theorem querying_sizes {s : Statements} {size : Nat × Nat} (h : querying o.active o.driver s = .ok size) :
    Sizes size.1 size.2 := by
  obtain ⟨counted, columns⟩ := querying_ok o h
  constructor
  · unfold counting at counted
    obtain ⟨_, _, counted⟩ := Lockstep.of_bind_ok counted
    obtain ⟨_, _, counted⟩ := Lockstep.of_bind_ok counted
    obtain ⟨_, _, counted⟩ := Lockstep.of_bind_ok counted
    obtain ⟨count, _, counted⟩ := Lockstep.of_bind_ok counted
    split at counted
    · cases counted
    rw [← show _ = size.1 from Except.ok.inj counted]
    have small := Int.emod_lt_of_pos count.number (by decide : (0 : Int) < 2 ^ 32)
    have nonneg := Int.emod_nonneg count.number (by decide : (2 ^ 32 : Int) ≠ 0)
    omega
  · rw [columns]
    have small := o.driver.columns_lt
    change (o.driver.answer .numResultCols).number.toNat < 2 ^ 63
    omega

def presented : Backend where
  server := o.server
  realName := o.realName
  connect := .ok true
  query := do
    let (rows, columns) ← querying o.active o.driver o.statements
    return (true, rows, columns)
  types column := [.ok ⟨.ok [o.typing column], true⟩]
  getColName := value o.driver .names
  getColDesc column := do
    o.filled .descs
    return value o.driver .descs column
  close := true
  errorFactory := some o.checking
  besErrorIsException := o.besErrorIsException
  responseFits := o.responseFits
  sizes ret rows columns asked := by
    obtain ⟨size, answered, same⟩ := Lockstep.of_bind_ok asked
    cases same
    exact o.querying_sizes answered

end OdbcCall

namespace OdbcJob
open ODBCConnector
variable {ρ α : Type} {o : OdbcCall} {now : ρ}

/-! ## The two states -/

/-- Two calls that have come to the same point, with the response `now`. -/
structure Agree (now : ρ) (s : OdbcJob ρ) (j : Job ρ) : Prop where
  cursor : j.cursor = s.connector.cursor
  closed : j.closed = s.closed
  left : s.response = now
  right : j.response = now

/-- What agrees where a builder call has thrown. -/
structure Ended (s : OdbcJob ρ) (j : Job ρ) : Prop where
  closed : j.closed = s.closed
  response : j.response = s.response

theorem Agree.response {s : OdbcJob ρ} {j : Job ρ} (h : Agree now s j) : j.response = s.response := h.right.trans h.left.symm

theorem Agree.ended {s : OdbcJob ρ} {j : Job ρ} (h : Agree now s j) : Ended s j := ⟨h.closed, h.response⟩

/-! ## Rules -/

/-- The same `catch` clauses around computations in lockstep. -/
theorem catch_together {x : Proc (OdbcJob ρ) α} {y : Proc (Job ρ) α} {P : OdbcJob ρ → Job ρ → Prop}
    {Q : α → α → OdbcJob ρ → Job ρ → Prop} {E E' : Fault → OdbcJob ρ → Job ρ → Prop}
    {handle : Fault → Proc (OdbcJob ρ) α} {handle' : Fault → Proc (Job ρ) α}
    (body : Together P x y Q E) (caught : ∀ fault, Together (E fault) (handle fault) (handle' fault) Q E')
    (passed : ∀ fault s j, E fault s j → E' fault s j) :
    Together P (catchFault x handle) (Job.catchFault y handle') Q E' := by
  intro s j p
  have run := body s j p
  unfold catchFault Job.catchFault
  cases left : x s <;> cases right : y j <;> rw [left, right] at run <;> cases run
  · exact .ok ‹_›
  · rename_i fault s' j' e
    cases fault with
    | error e => exact caught _ _ _ ‹_›
    | foreign what => exact caught _ _ _ ‹_›
    | undefined => exact .error (passed _ _ _ ‹_›)
    | endless => exact .error (passed _ _ _ ‹_›)
    | terminated => exact .error (passed _ _ _ ‹_›)

/-- A call of the connector against an answer of the backend; `F` makes the one value of the other. -/
theorem answer_together {β : Type} {x : Proc ODBCConnector α} {r : Except Fault β} (F : β → α)
    {P : OdbcJob ρ → Job ρ → Prop} {Q : α → β → OdbcJob ρ → Job ρ → Prop} (ended : ∀ s j, P s j → Ended s j)
    (run : ∀ s j, P s j → Gives (fun a c' => ∀ b, r = .ok b → a = F b → Q a b { s with connector := c' } j)
      (x s.connector) (r >>= fun b => .ok (F b))) :
    Together P (call x) (Job.answer r : Proc (Job ρ) β) Q fun fault s j => Ended s j ∧ r = .error fault := by
  intro s j p
  have gives := run s j p
  have end' := ended s j p
  cases called : x s.connector with
  | ok a c' =>
    rw [called] at gives
    cases answer : r with
    | ok b =>
      rw [answer] at gives
      cases gives with
      | ok q =>
        rw [call_ok called]
        exact .ok (q b rfl rfl)
    | error fault =>
      rw [answer] at gives
      cases gives
  | error fault c' =>
    rw [called] at gives
    cases answer : r with
    | ok b =>
      rw [answer] at gives
      cases gives
    | error fault =>
      rw [answer] at gives
      cases gives
      rw [call_error called]
      exact .error ⟨⟨end'.closed, end'.response⟩, rfl⟩

/-- A check against a check of the backend. -/
theorem check_together {x : Proc ODBCConnector Unit} {r : Except Fault Unit} {P : OdbcJob ρ → Job ρ → Prop}
    {Q : Unit → Unit → OdbcJob ρ → Job ρ → Prop} (ended : ∀ s j, P s j → Ended s j)
    (run : ∀ s j, P s j → Gives (fun _ c' => Q () () { s with connector := c' } j) (x s.connector) r) :
    Together P (call x) (Job.answer r : Proc (Job ρ) Unit) Q fun fault s j => Ended s j ∧ r = .error fault := by
  refine answer_together id ended fun s j p => ?_
  have gives := run s j p
  rw [← bind_unit r] at gives
  exact gives.weaken fun _ c' _ q _ _ _ => q

theorem close_together {P : OdbcJob ρ → Job ρ → Prop} (ended : ∀ s j, P s j → Ended s j) :
    Together P (close o) (Job.close : Proc (Job ρ) Unit)
      (fun _ _ s j => s.closed = true ∧ j.closed = true ∧ j.response = s.response) fun _ s j => Ended s j :=
  fun s j p => .ok ⟨rfl, rfl, (ended s j p).response⟩

/-- The connector is closed before the fault goes on. -/
theorem closing_together {β : Type} (fault : Fault) {P : OdbcJob ρ → Job ρ → Prop}
    {Q : α → β → OdbcJob ρ → Job ρ → Prop} (ended : ∀ s j, P s j → Ended s j) :
    Together P (do close o; throw fault : Proc (OdbcJob ρ) α) (do Job.close; throw fault : Proc (Job ρ) β) Q
      fun _ s j => Ended s j :=
  (close_together ended).bind fun _ _ => Together.throw fault fun _ _ h => ⟨h.2.1.trans h.1.symm, h.2.2⟩

/-! ## Connect and query -/

/-- The connector of a builder call before it is connected. -/
def Fresh (now : ρ) (s : OdbcJob ρ) (j : Job ρ) : Prop :=
  Agree now s j ∧ ∃ strState, s.connector = ODBCConnector.new strState

/-- `connect` on a new connector keeps the reply of the last of its calls. -/
theorem connect_gives (o : OdbcCall) (strState : Str) :
    Gives (fun _ c' => c'.cursor = (ODBCConnector.new strState).cursor ∧ Connected o.driver c' ∧
        c'.rc = (o.driver.answer (.connect o.server o.user o.pass)).rc ∧ c'.records .stmt = [] ∧
        c'.records .conn = (o.driver.answer (.connect o.server o.user o.pass)).records)
      (ODBCConnector.connect o.driver o.server o.user o.pass (ODBCConnector.new strState)) (.ok true) :=
  .ok ⟨rfl, ⟨rfl, rfl, rfl, rfl⟩, rfl, rfl, rfl⟩

theorem connect_together (o : OdbcCall) : Together (Fresh now) (connect o) (Job.connect o.presented : Proc (Job ρ) Unit)
    (fun _ _ s j => Agree now s j ∧ Connected o.driver s.connector) fun _ s j => Ended s j := by
  refine catch_together (E := fun _ s j => Ended s j) ?_ (fun fault => closing_together _ fun _ _ h => h) fun _ _ _ h => h
  refine Together.bind (Q := fun _ _ => Fresh now) (Together.modify fun s j fresh => ?_) fun _ _ => ?_
  · obtain ⟨agree, new⟩ := fresh
    exact ⟨⟨agree.cursor, rfl, agree.left, agree.right⟩, new⟩
  · have connected : Together (Fresh now) (call (ODBCConnector.connect o.driver o.server o.user o.pass))
        (Job.answer o.presented.connect : Proc (Job ρ) Bool) (fun _ _ s j => Agree now s j ∧ Connected o.driver s.connector ∧
          s.connector.rc = (o.driver.answer (.connect o.server o.user o.pass)).rc ∧ s.connector.records .stmt = [] ∧
          s.connector.records .conn = (o.driver.answer (.connect o.server o.user o.pass)).records)
        fun fault s j => Ended s j ∧ o.presented.connect = .error fault := by
      refine answer_together id (fun _ _ fresh => fresh.1.ended) fun s j fresh => ?_
      obtain ⟨agree, strState, new⟩ := fresh
      rw [new]
      refine (connect_gives o strState).weaken fun _ c' _ run _ _ _ => ?_
      obtain ⟨cursor, connected, rc, stmt, conn⟩ := run
      exact ⟨⟨by rw [agree.cursor, new, cursor], agree.closed, agree.left, agree.right⟩, connected, rc, stmt, conn⟩
    refine (connected.weaken (fun _ _ h => h) (fun _ _ _ _ h => h) fun _ _ _ h => h.1).bind fun _ _ => ?_
    refine (check_together (r := o.checking .onConnect 0) (fun _ _ h => h.1.ended) fun s j h => ?_).weaken (fun _ _ h => h)
      (fun _ _ _ _ h => h) fun _ _ _ h => h.1
    obtain ⟨agree, connected, rc, stmt, conn⟩ := h
    have settled : Settled _ _ s.connector := ⟨connected.seq, conn, connected.env⟩
    have checked := settled.trigger o.active .onConnect
    rw [rc, stmt] at checked
    refine checked.weaken fun _ c' _ same => ?_
    obtain rfl := same
    exact ⟨agree, connected⟩

/-- Both clauses close the connector, or neither does. -/
theorem queryCatch_together (o : OdbcCall) (fault : Fault) :
    Together (fun s j => Ended s j) (queryCatch o fault) (Job.queryCatch o.presented fault : Proc (Job ρ) Unit)
      (fun _ _ s j => Agree now s j ∧ Queried o.driver o.statements s.connector) fun _ s j => Ended s j := by
  have closes (fault : Fault) : Together (fun s j => Ended s j) (do close o; throw fault : Proc (OdbcJob ρ) Unit)
      (do Job.close; throw fault : Proc (Job ρ) Unit)
      (fun _ _ s j => Agree now s j ∧ Queried o.driver o.statements s.connector) fun _ s j => Ended s j :=
    closing_together fault fun _ _ h => h
  have other (message : Str) : Together (fun s j => Ended s j)
      (if o.besErrorIsException then do close o; throw (.error ⟨.sqlInternalFatalError, message⟩)
        else throw (.error ⟨.sqlInternalFatalError, "SQLQueryAction: Unknow error while executing query".toList⟩) :
          Proc (OdbcJob ρ) Unit)
      (if o.besErrorIsException then do Job.close; throw (.error ⟨.sqlInternalFatalError, message⟩)
        else throw (.error ⟨.sqlInternalFatalError, "SQLQueryAction: Unknow error while executing query".toList⟩) :
          Proc (Job ρ) Unit)
      (fun _ _ s j => Agree now s j ∧ Queried o.driver o.statements s.connector) fun _ s j => Ended s j := by
    cases o.besErrorIsException with
    | true => exact closes _
    | false => exact Together.throw _ fun _ _ h => h
  cases fault with
  | error e =>
    obtain ⟨kind, message⟩ := e
    cases kind with
    | sqlInternalError => exact closes _
    | sqlInternalFatalError => exact closes _
    | besInternalError => exact other message
    | besInternalFatalError => exact other message
    | besError => exact other message
  | foreign what =>
    cases what with
    | some what => exact closes _
    | none => exact Together.throw _ fun _ _ h => h
  | undefined => exact Together.throw _ fun _ _ h => h
  | endless => exact Together.throw _ fun _ _ h => h
  | terminated => exact Together.throw _ fun _ _ h => h

/-- A cursor at its start is known by its rows and columns. -/
theorem cursor_of_start {c c' : Cursor} (start : c'.reset = c') (rows : c'.rows = c.rows) (columns : c'.columns = c.columns) :
    c.reset = c' := by
  rw [← start]
  unfold Cursor.reset
  rw [rows, columns]

theorem query_together (o : OdbcCall) :
    Together (fun s j => Agree now s j ∧ Connected o.driver s.connector) (query o) (Job.query o.presented : Proc (Job ρ) Unit)
      (fun _ _ s j => Agree now s j ∧ Queried o.driver o.statements s.connector) fun _ s j => Ended s j := by
  refine catch_together (E := fun _ s j => Ended s j) ?_ (queryCatch_together o) fun _ _ _ h => h
  have asked : o.presented.query = (querying o.active o.driver o.statements >>= fun size => .ok (true, size)) := rfl
  have queried : Together (fun s j => Agree now s j ∧ Connected o.driver s.connector)
      (call (ODBCConnector.query o.active o.driver o.statements)) (Job.answer o.presented.query : Proc (Job ρ) _)
      (fun _ size s j => querying o.active o.driver o.statements = .ok size.2 ∧ Queried o.driver o.statements s.connector ∧
        j.closed = s.closed ∧ s.response = now ∧ j.response = now) fun _ s j => Ended s j := by
    refine (answer_together Prod.fst (fun _ _ h => h.1.ended) fun s j h => ?_).weaken (fun _ _ h => h) (fun _ _ _ _ h => h)
      fun _ _ _ h => h.1
    obtain ⟨agree, connected⟩ := h
    have run := connected.query o.active o.statements
    rw [asked, bind_assoc]
    refine run.weaken fun ret c' _ queried size answered _ => ?_
    obtain ⟨size', known, rest⟩ := Lockstep.of_bind_ok answered
    cases rest
    exact ⟨known, queried.2, agree.closed, agree.left, agree.right⟩
  refine queried.bind fun _ size => ?_
  intro s j h
  obtain ⟨known, queried, closed, left, right⟩ := h
  obtain ⟨ret, rows, columns⟩ := size
  obtain ⟨counted, width⟩ := o.querying_ok known
  have passed : ¬ (Checked o.active .onQuery ∧ s.connector.rc.failed = true) := fun bad => by
    rw [queried.passed] at bad
    exact Bool.false_ne_true bad.2
  have checked : check o .onQuery s = .ok () s := call_ok (queried.settled.trigger_good passed)
  rw [checked]
  have start : ({ j.cursor with rows, columns } : Cursor).reset = s.connector.cursor := by
    refine cursor_of_start queried.start ?_ (queried.columns.trans width.symm)
    exact Except.ok.inj (queried.rows.symm.trans counted)
  exact .ok ⟨⟨start, closed, left, right⟩, queried⟩

end OdbcJob

end SqlHandler
