import SqlHandler.Connector.Cursor
import SqlHandler.Handler.Libdap

/-!
# Actions on a connector

`SQLActionManager::doActions` over what an action factory answers, and the four
actions the builders perform on a connector: connect, query, next type, close. What
the database, the factories and the configuration answer is a `Backend`; each
builder call works on a connector of its own.
-/

namespace SqlHandler
open Posix

/-! ## `SQLActionManager` -/

/-- What one action of a list does: return a pointer, NULL being `none`, or throw. -/
abbrev ActionResult (Out : Type) := Except Fault (Option Out)

/-- A code of the factory: what `getActions` answers, what the actions of the list do
and whether `stop` holds after them. -/
structure CodeStep (Out : Type) where
  actions : Except Fault (List (ActionResult Out))
  stop : Bool

/-- The answers of `getCode` one after the other; the end of the list is the NULL code. -/
abbrev ActionFactory (Out : Type) := List (Except Fault (CodeStep Out))

namespace SQLActionManager
variable {Out Merge Join : Type}

/-- `SQLActionManager::tryNext` -/
def tryNext (action : ActionResult Out) : Except Fault (Option Out) :=
  match action with
  | .ok out => .ok out
  | .error (.error ⟨.sqlInternalError, message⟩) => .error (.error ⟨.sqlInternalError, message⟩)
  | .error (.error ⟨.sqlInternalFatalError, message⟩) => .error (.error ⟨.sqlInternalFatalError, message⟩)
  | .error (.error ⟨.besInternalError, _⟩) => .ok none
  | .error (.error e) =>
    .error (.error ⟨.sqlInternalFatalError, "SQLActionManager: running ACTIONs-> ".toList ++ e.message⟩)
  | .error fault => .error fault

/-- The loop over the actions of one code; `SQLInternalError` ends it. -/
def runActions (merge : Option Merge → Option Out → Option Merge) (acc : Option Merge) :
    List (ActionResult Out) → Except Fault (Option Merge)
  | [] => .ok acc
  | action :: rest =>
    match tryNext action with
    | .ok out => runActions merge (merge acc out) rest
    | .error (.error ⟨.sqlInternalError, _⟩) => .ok acc
    | .error fault => .error fault

/-- `SQLActionManager::doActions` -/
def doActions (merge : Option Merge → Option Out → Option Merge)
    (join : Option Join → Option Merge → Option Join) (acc : Option Join) :
    ActionFactory Out → Except Fault (Option Join)
  | [] => .ok acc
  | code :: rest => do
    let step ← code
    let actions ← step.actions
    let merged ← runActions merge none actions
    let joined := join acc merged
    if step.stop then return joined else doActions merge join joined rest

/-- `merge` and `join` of `SQLTypeManager` and `SQLErrorManager`: the latest output. -/
def latest (_prev actual : Option Out) : Option Out := actual

end SQLActionManager

/-- `SQLTypeManager::doActions` -/
def SQLTypeManager.doActions {Out : Type} (factory : ActionFactory Out) : Except Fault (Option Out) :=
  SQLActionManager.doActions SQLActionManager.latest SQLActionManager.latest none factory

/-! ## What stands behind a connector -/

inductive CheckPoint where
  | onAlways
  | onConnect
  | onClose
  | onQuery
  | onGetNext
  | onNextRow
  | onCustom
  deriving DecidableEq, Repr

/-- `SQLErrorManager::trigger` at a check point, by the column the cursor has left. -/
abbrev ErrorFactory := CheckPoint → Nat → Except Fault Unit

/-- The size of a result set: `size_t` counts the rows and goes on behind the last column. -/
structure Sizes (rows columns : Nat) : Prop where
  rows_lt : rows < 2 ^ 64
  columns_lt : columns < 2 ^ 63

/-- What one builder call meets. -/
structure Backend where
  server : Str
  realName : Str
  /-- `SQLHandleConnector::connect` -/
  connect : Except Fault Bool
  /-- `SQLHandleConnector::query` and the rows and columns it sets. -/
  query : Except Fault (Bool × Nat × Nat)
  /-- The type factory on a column: the DAP types its actions build. -/
  types : Nat → ActionFactory Str
  getColName : Nat → Str
  getColDesc : Nat → Except Fault Str
  close : Bool
  errorFactory : Option ErrorFactory
  /-- `BESError` derives from `std::exception`. -/
  besErrorIsException : Bool
  /-- The response object is of the class the builder writes. -/
  responseFits : Bool
  sizes : ∀ ret rows columns, query = .ok (ret, rows, columns) → Sizes rows columns

/-- The constructor of `SQLBaseType`: name and column are the connector's. -/
def Backend.newType (b : Backend) (column : Nat) (typeName : Str) : BaseType :=
  ⟨b.getColName column, typeName, column⟩

/-- What a builder call works on: the connector it opens and the response all calls share. -/
structure Job (ρ : Type) where
  cursor : Cursor
  closed : Bool
  response : ρ

namespace Job
variable {ρ α : Type}

def close : Proc (Job ρ) Unit := modify fun j => { j with closed := true }

/-- An answer from outside, its fault thrown here. -/
def answer (x : Except Fault α) : Proc (Job ρ) α :=
  match x with
  | .ok a => return a
  | .error fault => throw fault

/-- `catch` clauses that tell faults apart; `undefined`, `endless` and `terminated` pass. -/
def catchFault (x : Proc (Job ρ) α) (handle : Fault → Proc (Job ρ) α) : Proc (Job ρ) α := fun j =>
  match x j with
  | .error (.error e) j' => handle (.error e) j'
  | .error (.foreign what) j' => handle (.foreign what) j'
  | r => r

/-- The error a connector action throws in place of a fault. -/
def fatal (unknown : Str) : Fault → Fault
  | .error e => .error ⟨.sqlInternalFatalError, e.message⟩
  | .foreign (some what) => .error ⟨.sqlInternalFatalError, what⟩
  | .foreign none => .error ⟨.sqlInternalFatalError, unknown⟩
  | fault => fault

/-- The checks behind `connect`, `query` and `close`. -/
def checked (b : Backend) (at' : CheckPoint) (ret : Bool) (message : Str) : Proc (Job ρ) Unit :=
  match b.errorFactory with
  | some trigger => answer (trigger at' 0)
  | none => if ret then return () else Proc.raise .sqlInternalFatalError message

/-- The `catch` clauses of `SQLConnectAction::connect`. -/
def connectCatch (fault : Fault) : Proc (Job ρ) Unit := do
  close
  throw (fatal "SQLConnectAction: Unknown error while connecting".toList fault)

/-- `SQLConnectAction::connect` -/
def connect (b : Backend) : Proc (Job ρ) Unit := catchFault
  (do
    modify fun j => { j with closed := false }
    let ret ← answer b.connect
    checked b .onConnect ret "SQLConnectAction: Connect execution fails (returning false)".toList)
  connectCatch

/-- The `catch` clauses of `SQLQueryAction::query`. The last does not close the connector. -/
def queryCatch (b : Backend) (fault : Fault) : Proc (Job ρ) Unit :=
  let unknown : Fault :=
    .error ⟨.sqlInternalFatalError, "SQLQueryAction: Unknow error while executing query".toList⟩
  match fault with
  | .error ⟨.sqlInternalError, message⟩ => do close; throw (.error ⟨.sqlInternalError, message⟩)
  | .error ⟨.sqlInternalFatalError, message⟩ => do close; throw (.error ⟨.sqlInternalFatalError, message⟩)
  | .error ⟨_, message⟩ =>
    if b.besErrorIsException then do close; throw (.error ⟨.sqlInternalFatalError, message⟩)
    else throw unknown
  | .foreign (some what) => do close; throw (.error ⟨.sqlInternalFatalError, what⟩)
  | _ => throw unknown

/-- `SQLQueryAction::query` -/
def query (b : Backend) : Proc (Job ρ) Unit := catchFault
  (do
    let (ret, rows, columns) ← answer b.query
    modify fun j => { j with cursor := { j.cursor with rows, columns }.reset }
    checked b .onQuery ret "SQLQueryAction: Query execution fails (returning false)".toList)
  (queryCatch b)

/-- The `catch` clauses of `SQLCloseAction::close`. -/
def closeCatch (fault : Fault) : Proc (Job ρ) Unit :=
  throw (fatal "SQLCloseAction: Unknown error while connecting".toList fault)

/-- `SQLCloseAction::close` -/
def closeAction (b : Backend) : Proc (Job ρ) Unit := catchFault
  (do
    close
    checked b .onClose b.close "SQLCloseAction: close execution fails (returning false)".toList)
  closeCatch

def reset : Proc (Job ρ) Unit := modify fun j => { j with cursor := j.cursor.reset }

/-- `connector.setNext()` -/
def setNext : Proc (Job ρ) Nat := fun j =>
  match j.cursor.setNext 1 with
  | .ok (rows, cursor) => .ok rows { j with cursor }
  | .error fault => .error fault j

/-- A check run once for each row passed, `while (rows-- > 0)`. -/
def perRow (check : Except Fault Unit) : Nat → Except Fault Unit
  | 0 => .ok ()
  | rows + 1 => do
    check
    perRow check rows

/-- The error checks of `nextType`, behind `column`, `rows` rows having been passed. -/
def nextTypeChecks (trigger : ErrorFactory) (column rows : Nat) (notEnd : Bool) : Except Fault Unit := do
  if notEnd then perRow (trigger .onNextRow column) rows
  trigger .onGetNext column

/-- The `try` block of `nextType`. -/
def nextTypeTry (b : Backend) : Proc (Job ρ) (Option BaseType) := do
  let column := (← get).cursor.columnPosition
  let bt ← answer (SQLTypeManager.doActions (b.types column))
  let rows ← setNext
  let c := (← get).cursor
  match b.errorFactory with
  | some trigger => answer (nextTypeChecks trigger column rows c.notEnd)
  | none => pure ()
  return bt.map (b.newType column)

/-- The `catch` clauses of `nextType`. -/
def nextTypeCatch (fault : Fault) : Proc (Job ρ) (Option BaseType) :=
  match fault with
  | .error ⟨.sqlInternalError, _⟩ => return none
  | fault => do
    close
    throw (fatal "SQLNextTypeAction: Unknow error while connecting".toList fault)

/-- `SQLNextTypeAction::nextType`, NULL being `none` -/
def nextType (b : Backend) : Proc (Job ρ) (Option BaseType) := catchFault (nextTypeTry b) nextTypeCatch

end Job

end SqlHandler
