import SqlHandler.Connector.Answers
import SqlHandler.Handler.Builders

/-!
# The builders on the ODBC connector

The actions of `ODBCPlugin` on a connector of their own, with the error factory and the type factory of
the plugin. `calls` hands them to the builders, so that a call of the connector is the call of `ODBCConnector`.
-/

namespace SqlHandler
open Posix

/-- What one builder call of the plugin meets. -/
structure OdbcCall where
  driver : Driver
  active : CheckPoint → Bool
  server : Str
  user : Str
  pass : Str
  realName : Str
  statements : Statements
  /-- `BESError` derives from `std::exception`. -/
  besErrorIsException : Bool
  /-- The response object is of the class the builder writes. -/
  responseFits : Bool

/-- `BaseType::type_name` of `libdap` -/
def DapType.typeName : DapType → Posix.Str
  | .Int16 => "Int16".toList
  | .Int32 => "Int32".toList
  | .Float32 => "Float32".toList
  | .Float64 => "Float64".toList
  | .Str => "String".toList

/-- `ODBCTypeFactoryComponent::action`, 0 being the code of no type. -/
def typeOfCode : Option CType → Except Fault SimpleType
  | some type =>
    match action type with
    | .ok v => .ok v
    | .error e => .error (.error e)
  | none => .error (.error ⟨.sqlInternalFatalError,
      "SQL Handler: The datatype read from the Data Source is not supported. The problem type code is: 0".toList⟩)

namespace ODBCConnector

/-- A type action: the variable takes its name and its column from the connector. -/
def typeAction (o : OdbcCall) : SQLAction ODBCConnector (Option CType) BaseType
  | none => throw .undefined
  | some code => do
    let type ← SQLActionFactory.given (typeOfCode code)
    let column := (← get).cursor.columnPosition
    let name ← getColName o.active o.driver column
    return some ⟨name, type.dapType.typeName, column⟩

/-- `SQLObjectTypeFactory` with the component of the plugin. -/
def typeFactory (o : OdbcCall) : SQLActionFactory ODBCConnector (Option CType) (Option CType) BaseType where
  getCode := do
    let type ← getType o.active o.driver (← get).cursor.columnPosition
    return some type
  getActions _ := return [typeAction o]
  getArgs code := return some code
  stop _ := return true

/-- `while (rows-- > 0)` -/
def perRow (o : OdbcCall) : Nat → Proc ODBCConnector Unit
  | 0 => return ()
  | rows + 1 => do
    trigger o.active .onNextRow
    perRow o rows

/-- The error checks of `nextType`, `rows` rows having been passed. -/
def nextTypeChecks (o : OdbcCall) (rows : Nat) : Proc ODBCConnector Unit := do
  if (← get).cursor.notEnd then perRow o rows
  trigger o.active .onGetNext

end ODBCConnector

/-- The state of a builder call: the connector, whether it has been closed since it was connected, and
the response all calls share. -/
structure OdbcJob (ρ : Type) where
  connector : ODBCConnector
  closed : Bool
  response : ρ

namespace OdbcJob
variable {ρ α : Type} (o : OdbcCall)

def call (x : Proc ODBCConnector α) : Proc (OdbcJob ρ) α :=
  Proc.zoom OdbcJob.connector (fun s connector => { s with connector }) x

theorem call_ok {x : Proc ODBCConnector α} {s : OdbcJob ρ} {a : α} {c' : ODBCConnector} (h : x s.connector = .ok a c') :
    call x s = .ok a { s with connector := c' } := Proc.zoom_ok h

theorem call_error {x : Proc ODBCConnector α} {s : OdbcJob ρ} {fault : Fault} {c' : ODBCConnector}
    (h : x s.connector = .error fault c') : call x s = .error fault { s with connector := c' } := Proc.zoom_error h

def close : Proc (OdbcJob ρ) Unit := do
  let _ ← call (ODBCConnector.close o.driver)
  modify fun s => { s with closed := true }

def check (at' : CheckPoint) : Proc (OdbcJob ρ) Unit := call (ODBCConnector.trigger o.active at')

/-- `catch` clauses that tell faults apart; `undefined`, `endless` and `terminated` pass. -/
def catchFault (x : Proc (OdbcJob ρ) α) (handle : Fault → Proc (OdbcJob ρ) α) : Proc (OdbcJob ρ) α := fun s =>
  match x s with
  | .error (.error e) s' => handle (.error e) s'
  | .error (.foreign what) s' => handle (.foreign what) s'
  | r => r

/-! ## The actions -/

/-- The `catch` clauses of `SQLConnectAction::connect`. -/
def connectCatch (fault : Fault) : Proc (OdbcJob ρ) Unit := do
  close o
  throw (Job.fatal "SQLConnectAction: Unknown error while connecting".toList fault)

/-- `SQLConnectAction::connect` -/
def connect : Proc (OdbcJob ρ) Unit := catchFault
  (do
    modify fun s => { s with closed := false }
    let _ ← call (ODBCConnector.connect o.driver o.server o.user o.pass)
    check o .onConnect)
  (connectCatch o)

/-- The `catch` clauses of `SQLQueryAction::query`. The last does not close the connector. -/
def queryCatch (fault : Fault) : Proc (OdbcJob ρ) Unit :=
  let unknown : Fault :=
    .error ⟨.sqlInternalFatalError, "SQLQueryAction: Unknow error while executing query".toList⟩
  match fault with
  | .error ⟨.sqlInternalError, message⟩ => do close o; throw (.error ⟨.sqlInternalError, message⟩)
  | .error ⟨.sqlInternalFatalError, message⟩ => do close o; throw (.error ⟨.sqlInternalFatalError, message⟩)
  | .error ⟨_, message⟩ =>
    if o.besErrorIsException then do close o; throw (.error ⟨.sqlInternalFatalError, message⟩)
    else throw unknown
  | .foreign (some what) => do close o; throw (.error ⟨.sqlInternalFatalError, what⟩)
  | _ => throw unknown

/-- `SQLQueryAction::query` -/
def query : Proc (OdbcJob ρ) Unit := catchFault
  (do
    let _ ← call (ODBCConnector.query o.active o.driver o.statements)
    check o .onQuery)
  (queryCatch o)

/-- `SQLCloseAction::close` -/
def closeAction : Proc (OdbcJob ρ) Unit := catchFault
  (do
    close o
    check o .onClose)
  fun fault => throw (Job.fatal "SQLCloseAction: Unknown error while connecting".toList fault)

def reset : Proc (OdbcJob ρ) Unit := call ODBCConnector.reset

/-- `connector.setNext()` -/
def setNext : Proc (OdbcJob ρ) Nat := call (ODBCConnector.setNext 1)

/-- The `try` block of `nextType`. -/
def nextTypeTry : Proc (OdbcJob ρ) (Option BaseType) := do
  let bt ← call ((ODBCConnector.typeFactory o).doActions (some SQLActionManager.latest) (some SQLActionManager.latest) false 1)
  let rows ← setNext
  call (ODBCConnector.nextTypeChecks o rows)
  return bt

/-- The `catch` clauses of `nextType`. -/
def nextTypeCatch (fault : Fault) : Proc (OdbcJob ρ) (Option BaseType) :=
  match fault with
  | .error ⟨.sqlInternalError, _⟩ => return none
  | fault => do
    close o
    throw (Job.fatal "SQLNextTypeAction: Unknow error while connecting".toList fault)

/-- `SQLNextTypeAction::nextType`, NULL being `none` -/
def nextType : Proc (OdbcJob ρ) (Option BaseType) := catchFault (nextTypeTry o) (nextTypeCatch o)

/-- A call on the response object. -/
def respond (f : ρ → Except Fault ρ) : Proc (OdbcJob ρ) Unit := fun s =>
  match f s.response with
  | .ok response => .ok () { s with response }
  | .error fault => .error fault s

def requireResponse (misfit : Str) : Proc (OdbcJob ρ) Unit :=
  if o.responseFits then return () else Proc.raise .besInternalFatalError misfit

def getColDesc (column : Nat) : Proc (OdbcJob ρ) Str := call (ODBCConnector.getColDesc o.active o.driver column)

/-- A builder's calls on the connector of the plugin. -/
def calls : BuilderCalls (OdbcJob ρ) ρ where
  server := o.server
  realName := o.realName
  requireResponse := requireResponse o
  connect := connect o
  query := query o
  reset := reset
  getCols s := s.connector.cursor.columns
  nextType := nextType o
  getColDesc := getColDesc o
  setNext := setNext
  close := closeAction o
  respond := respond

end OdbcJob

end SqlHandler
