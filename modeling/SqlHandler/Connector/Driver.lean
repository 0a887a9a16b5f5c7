import SqlHandler.Action.Manager
import SqlHandler.Connector.Types
import Mathlib.Logic.Function.Basic

/-!
# The connector and the driver behind it

`ODBCConnector` as far as it stands between the answers of the driver and the handler: the
return code it keeps, the diagnostic records it reads, the four arrays it keeps on the columns
of a statement. Its buffers are those of `Odbc`.
-/

namespace SqlHandler
open Posix

/-! ## The driver -/

/-- The return codes of `ODBCErrorFactoryComponent`. The others of ODBC belong to asynchronous
calls and to parameters passed at execution, and the connector has neither. -/
inductive Return where
  | SQL_SUCCESS
  | SQL_SUCCESS_WITH_INFO
  | SQL_NO_DATA
  | SQL_ERROR
  | SQL_INVALID_HANDLE
  deriving DecidableEq, Repr

/-- `SQL_SUCCEEDED` -/
def Return.succeeded : Return → Bool
  | .SQL_SUCCESS | .SQL_SUCCESS_WITH_INFO => true
  | _ => false

/-- The codes whose list has the fatal action. -/
def Return.failed : Return → Bool
  | .SQL_ERROR | .SQL_INVALID_HANDLE => true
  | _ => false

inductive Handle where
  | env
  | conn
  | stmt
  deriving DecidableEq, Repr

structure DiagRec where
  errNum : Int
  strState : Str
  msg : Str
  deriving DecidableEq, Repr

/-- `SQL_DESC_LENGTH`, `SQL_DESC_CONCISE_TYPE`, `SQL_DESC_NAME`, `SQL_DESC_PRECISION` -/
inductive Field where
  | length
  | conciseType
  | name
  | precision
  deriving DecidableEq, Repr

/-- The calls a builder has the connector make. `getRowCount` makes the four with `count` in their names on a
statement handle of its own. -/
inductive DriverRequest where
  | allocEnv
  | setVersion
  | allocConn
  | connect (server user pass : Str)
  | allocCount
  | execCount (sql : Str)
  | fetchCount
  | dataCount
  | freeCount
  | allocStmt
  | exec (sql : Str)
  | numResultCols
  | colAttribute (column : Nat) (field : Field)
  | bindCol (column : Nat) (type : Option CType) (size : Int)
  | closeCursor
  | freeStmt
  | disconnect
  | freeConn
  | endTran
  | freeEnv
  deriving DecidableEq, Repr

/-- The handle whose diagnostic records the call replaces. -/
def DriverRequest.on : DriverRequest → Option Handle
  | .setVersion | .allocConn | .endTran | .freeEnv => some .env
  | .connect .. | .allocCount | .allocStmt | .disconnect | .freeConn => some .conn
  | .exec _ | .numResultCols | .colAttribute .. | .bindCol .. | .closeCursor | .freeStmt => some .stmt
  | .allocEnv | .execCount _ | .fetchCount | .dataCount | .freeCount => none

/-- The handle the call makes anew. -/
def DriverRequest.makes : DriverRequest → Option Handle
  | .allocEnv => some .env
  | .allocConn => some .conn
  | .allocStmt => some .stmt
  | _ => none

/-- What a call leaves: its return code, the records of the handle it was made on, and what
stands in the variables it may write to. -/
structure Reply where
  rc : Return
  records : List DiagRec
  number : Int
  text : Str
  /-- Is the indicator `SQL_NULL_DATA`? -/
  isNull : Bool
  deriving DecidableEq, Repr

/-- What the driver answers to each call; the number of columns is a `SQLSMALLINT`. -/
structure Driver where
  answer : DriverRequest → Reply
  columns_nonneg : 0 ≤ (answer .numResultCols).number
  columns_lt : (answer .numResultCols).number < 2 ^ 15

/-- The value of an `int` in a `SQLSMALLINT`. -/
def smallInt (n : Int) : Int := n.bmod (2 ^ 16)

/-- `SQLGetDiagRec`, as far as it returns `SQL_SUCCESS`: the record has to be there and its message to
fit the buffer. -/
def getDiagRec (records : List DiagRec) (n : Int) : Option DiagRec :=
  if 1 ≤ n then (records[(n - 1).toNat]?).filter fun r => decide (r.msg.length < bufSize) else none

/-- `errNum << " " << strState << " " << msg` -/
def DiagRec.text (r : DiagRec) : Str := (toString r.errNum).toList ++ " ".toList ++ r.strState ++ " ".toList ++ r.msg

/-- The codes of `sqlext.h` that `getCType` names. -/
def SqlType.ofCode (code : Int) : SqlType :=
  match code with
  | 1 => .SQL_CHAR
  | 12 => .SQL_VARCHAR
  | -1 => .SQL_LONGVARCHAR
  | -8 => .SQL_WCHAR
  | -9 => .SQL_WVARCHAR
  | -10 => .SQL_WLONGVARCHAR
  | 3 => .SQL_DECIMAL
  | 2 => .SQL_NUMERIC
  | -7 => .SQL_BIT
  | -6 => .SQL_TINYINT
  | 5 => .SQL_SMALLINT
  | 4 => .SQL_INTEGER
  | -5 => .SQL_BIGINT
  | 7 => .SQL_REAL
  | 6 => .SQL_FLOAT
  | 8 => .SQL_DOUBLE
  | -2 => .SQL_BINARY
  | -3 => .SQL_VARBINARY
  | -4 => .SQL_LONGVARBINARY
  | 91 => .SQL_TYPE_DATE
  | 92 => .SQL_TYPE_TIME
  | -11 => .SQL_GUID
  | _ => .other

/-! ## The arrays -/

/-- The arrays a connector keeps on the columns of its statement, under the names of the members. -/
inductive Property where
  | types
  | sizes
  | names
  | descs
  deriving DecidableEq, Repr

namespace Property

/-- An element; the code of no C type is 0. -/
def Elem : Property → Type
  | types => Option CType
  | sizes => Int
  | names => Str
  | descs => Str

/-- An element as `new T[n]()` makes it. -/
def initial : (p : Property) → p.Elem
  | types => (none : Option CType)
  | sizes => (0 : Int)
  | names => ([] : Str)
  | descs => ([] : Str)

def field : Property → Field
  | types => .conciseType
  | sizes => .length
  | names => .name
  | descs => .precision

/-- The element made of the driver's answer. -/
def read : (p : Property) → Reply → p.Elem
  | types, r => some (getCType (.ofCode r.number))
  | sizes, r => r.number
  | names, r => r.text
  | descs, r => "Using precision: ".toList ++ (toString r.number).toList

/-- The check point behind each answer. -/
def point : Property → CheckPoint
  | descs => .onGetNext
  | _ => .onAlways

/-- The element where the check throws `SQLInternalError`, if that is caught. -/
def spare : (p : Property) → Option p.Elem
  | descs => some ([] : Str)
  | _ => none

/-- What `row_size` grows by. -/
def tally : (p : Property) → p.Elem → Int
  | sizes, n => n
  | _, _ => 0

/-- The element behind the last column: `getColSize` answers with `row_size` there. -/
def behind : (p : Property) → Int → Option p.Elem
  | sizes, row_size => some row_size
  | _, _ => none

def outside : Property → BESError
  | types | sizes => ⟨.sqlInternalError, "Index provided exceeds the array limit!".toList⟩
  | names | descs => ⟨.sqlInternalFatalError, "Index provided exceeds the array limit!".toList⟩

def noColumns : Property → BESError
  | types => ⟨.sqlInternalError, "Unable to check type for a ResultSet of 0 columns".toList⟩
  | sizes => ⟨.sqlInternalError, "Unable to calculate size for a ResultSet of 0 columns".toList⟩
  | names => ⟨.sqlInternalFatalError, "Unable to check name for a ResultSet of 0 columns".toList⟩
  | descs => ⟨.sqlInternalFatalError, "Unable to calculate size for a ResultSet of 0 columns".toList⟩

end Property

/-! ## The connector -/

structure ODBCConnector where
  cursor : Cursor
  ready : Bool
  rc : Return
  toFetchRows : Nat
  /-- The diagnostic records of the handles, which are the driver's. -/
  records : Handle → List DiagRec
  /-- The calls made so far, the latest first. -/
  calls : List DriverRequest
  /-- `msgEnvSeq`, `msgConnSeq` and `msgStmtSeq` -/
  msgSeq : Handle → Int
  row_size : Int
  arrays : (p : Property) → Option (List p.Elem)
  /-- What the local `strState` of `getMsg` starts with. -/
  strState : Str

/-- What the container builds of the two statements of a query. -/
structure Statements where
  count : Except Fault Str
  data : Except Fault Str

namespace ODBCConnector

def new (strState : Str) : ODBCConnector where
  cursor := ⟨0, 0, 0, 0, true⟩
  ready := false
  rc := .SQL_SUCCESS
  toFetchRows := 0
  records := fun _ => []
  calls := []
  msgSeq := fun _ => 1
  row_size := 0
  arrays := fun _ => none
  strState := strState

/-- The three `msg..Seq` back to 1. -/
def resetSeq (c : ODBCConnector) : ODBCConnector := { c with msgSeq := fun _ => 1 }

def clean (c : ODBCConnector) : ODBCConnector :=
  { c with
    ready := false
    cursor := c.cursor.reset
    arrays := fun _ => none
    row_size := 0
    msgSeq := fun _ => 1 }

def setRc (rc : Return) (c : ODBCConnector) : ODBCConnector := { c with rc }

/-- The records of the handles after a call, which is noted. -/
def afterCall (r : DriverRequest) (reply : Reply) (c : ODBCConnector) : ODBCConnector :=
  { c with
    records := fun h =>
      if r.makes = some h then [] else if r.on = some h then reply.records else c.records h
    calls := r :: c.calls }

/-! ## Errors -/

/-- A handle whose records `getMsg` looks at, and those it turns to if the next record cannot be read. -/
def readMsg : List Handle → Proc ODBCConnector Str
  | [] => return "Unable to get error message".toList
  | h :: rest => fun c =>
    match getDiagRec (c.records h) (c.msgSeq h) with
    | some r => .ok r.text { c with msgSeq := Function.update c.msgSeq h (smallInt (c.msgSeq h + 1)) }
    | none => readMsg rest c

/-- `ODBCConnector::getMsg` -/
def getMsg (code : Return) : Proc ODBCConnector Str := do
  if code.succeeded then
    modify resetSeq
    return "No errors".toList
  else if code = .SQL_NO_DATA then
    modify resetSeq
    return "0 ".toList ++ (← get).strState ++ " No data".toList
  else readMsg [.conn, .stmt, .env]

/-- `SQLDefaultErrorAction::debugMethod` -/
def debugMethod : SQLAction ODBCConnector Str Unit := fun _ => return none

/-- `SQLDefaultErrorAction::fatalMethod` -/
def fatalMethod : SQLAction ODBCConnector Str Unit
  | some args => Proc.raise .sqlInternalFatalError args
  | none => throw .undefined

/-- The error factory of `ODBCErrorFactoryComponent` on the connector. -/
def errorFactory : SQLActionFactory ODBCConnector Return Str Unit where
  getCode := return some (← get).rc
  getActions code := return match code with
    | .SQL_SUCCESS | .SQL_SUCCESS_WITH_INFO | .SQL_NO_DATA => [debugMethod]
    | .SQL_ERROR | .SQL_INVALID_HANDLE => [fatalMethod]
  getArgs code := return some (← getMsg code)
  stop code := return code.succeeded || code == .SQL_NO_DATA

/-- The check is forced or its point active. -/
def Checked (active : CheckPoint → Bool) (check : CheckPoint) : Prop := check = .onAlways ∨ active check = true

instance (active : CheckPoint → Bool) (check : CheckPoint) : Decidable (Checked active check) :=
  inferInstanceAs (Decidable (_ ∨ _))

variable (active : CheckPoint → Bool)

/-- `SQLErrorManager::trigger`. The factory ends the loop over the codes in its first round. -/
def trigger (check : CheckPoint) : Proc ODBCConnector Unit := do
  if Checked active check then
    let _ ← errorFactory.doActions (some SQLActionManager.latest) (some SQLActionManager.latest) false 1

/-! ## Calls of the driver -/

variable (D : Driver)

/-- A call whose return code is dropped. -/
def ask (r : DriverRequest) : Proc ODBCConnector Reply := fun c => .ok (D.answer r) (c.afterCall r (D.answer r))

/-- A call whose return code is kept in `rc`. -/
def askRc (r : DriverRequest) : Proc ODBCConnector Reply := fun c =>
  .ok (D.answer r) ((c.afterCall r (D.answer r)).setRc (D.answer r).rc)

/-- A call that has to succeed. -/
def require (r : DriverRequest) (message : Str) : Proc ODBCConnector Reply := do
  let reply ← askRc D r
  if !reply.rc.succeeded then Proc.raise .besInternalError message
  return reply

/-! ## The properties of a column -/

/-- `array[col] = value`, and `row_size += value` for the sizes -/
def store (p : Property) (col : Nat) (value : p.Elem) (c : ODBCConnector) : ODBCConnector :=
  { c with
    arrays := Function.update c.arrays p ((c.arrays p).map fun l => l.set col value)
    row_size := c.row_size + p.tally value }

/-- The check behind the answer, and the element. -/
def element (p : Property) (reply : Reply) : Proc ODBCConnector p.Elem := fun c =>
  match trigger active p.point c with
  | .ok _ c' => .ok (p.read reply) c'
  | .error (.error ⟨.sqlInternalError, message⟩) c' =>
    match p.spare with
    | some value => .ok value c'
    | none => .error (.error ⟨.sqlInternalError, message⟩) c'
  | .error fault c' => .error fault c'

/-- The body of the loop over the columns. -/
def fillColumn (p : Property) (col : Nat) : Proc ODBCConnector Unit := do
  let reply ← askRc D (.colAttribute (col + 1) p.field)
  let value ← element active p reply
  modify (store p col value)

/-- The loop, `left` columns to go. -/
def fill (p : Property) : Nat → Nat → Proc ODBCConnector Unit
  | _, 0 => return ()
  | col, left + 1 => do
    fillColumn active D p col
    fill p (col + 1) left

/-- The element of an array. -/
def lookup (p : Property) (column : Nat) (l : List p.Elem) : Proc ODBCConnector p.Elem := fun c =>
  if column < c.cursor.columns then
    match l[column]? with
    | some value => .ok value c
    | none => .error .undefined c
  else
    match if column = c.cursor.columns then p.behind c.row_size else none with
    | some value => .ok value c
    | none => .error (.error p.outside) c

/-- `array = new T[getCols()]()` -/
def allocate (p : Property) (c : ODBCConnector) : ODBCConnector :=
  { c with arrays := Function.update c.arrays p (some (List.replicate c.cursor.columns p.initial)) }

/-- The branch where the array is there. -/
def stored (p : Property) (column : Nat) : Proc ODBCConnector p.Elem := fun c =>
  match c.arrays p with
  | some l => lookup p column l c
  | none => .error .undefined c

/-- The branch where it is not. A check that fails leaves the elements not come to as `new` made them. -/
def make (p : Property) : Proc ODBCConnector Unit := do
  let c ← get
  if 0 < c.cursor.columns then
    modify (allocate p)
    fill active D p 0 c.cursor.columns
  else throw (.error p.noColumns)

/-- `getType`, `getColSize`, `getColName` and `getColDesc` -/
def getProperty (p : Property) (column : Nat) : Proc ODBCConnector p.Elem := fun c =>
  match c.arrays p with
  | some _ => stored p column c
  | none => (do make active D p; stored p column) c

/-- `ODBCConnector::getType` -/
def getType : Nat → Proc ODBCConnector (Option CType) := getProperty active D .types

/-- `ODBCConnector::getColSize` -/
def getColSize : Nat → Proc ODBCConnector Int := getProperty active D .sizes

/-- `ODBCConnector::getColName` -/
def getColName : Nat → Proc ODBCConnector Str := getProperty active D .names

/-- `ODBCConnector::getColDesc` -/
def getColDesc : Nat → Proc ODBCConnector Str := getProperty active D .descs

/-! ## Connections and queries -/

/-- `ODBCConnector::connect` -/
def connect (server user pass : Str) : Proc ODBCConnector Bool := do
  if (← get).ready then modify clean
  let _ ← askRc D .allocEnv
  let _ ← askRc D .setVersion
  let _ ← askRc D .allocConn
  let _ ← askRc D (.connect server user pass)
  return true

/-- `ODBCConnector::getRowCount`. `SQL_C_LONG` has four bytes, and the eight of `count` start as 0. -/
def getRowCount (sql : Except Fault Str) : Proc ODBCConnector Nat := do
  let _ ← ask D .allocCount
  let sql ← SQLActionFactory.given sql
  let _ ← require D (.execCount sql) "ODBC SQL Error: Couldn't exec query".toList
  let _ ← require D .fetchCount "ODBC SQL Error: Couldn't fetch row".toList
  let count ← require D .dataCount "ODBC SQL Error: Couldn't extract row count".toList
  if count.isNull then
    Proc.raise .besInternalError "ODBC SQL Error: Unexpected null value returned by the database".toList
  let _ ← ask D .freeCount
  return (count.number % 2 ^ 32).toNat

def setRows (rows : Nat) (c : ODBCConnector) : ODBCConnector := { c with cursor := { c.cursor with rows } }

def setCols (columns : Nat) (c : ODBCConnector) : ODBCConnector := { c with cursor := { c.cursor with columns } }

/-- The loop that makes the buffers, `left` columns to go. -/
def measure : Nat → Nat → Proc ODBCConnector Unit
  | _, 0 => return ()
  | col, left + 1 => do
    let _ ← getColSize active D col
    measure (col + 1) left

/-- The loop that binds them. -/
def bindCols : Nat → Nat → Proc ODBCConnector Unit
  | _, 0 => return ()
  | i, left + 1 => do
    let type ← getType active D i
    let size ← getColSize active D i
    let _ ← require D (.bindCol (i + 1) type size)
      "ODBC SQL Error: Couldn't bind result set to local variables".toList
    bindCols (i + 1) left

/-- The end of `query`: one row to fetch, the cursors at their start. -/
def start (c : ODBCConnector) : ODBCConnector :=
  { c with toFetchRows := 1, cursor := c.cursor.reset, ready := true }

/-- `ODBCConnector::query` -/
def query (s : Statements) : Proc ODBCConnector Bool := do
  if (← get).ready then modify clean
  let rows ← getRowCount D s.count
  modify (setRows rows)
  let _ ← ask D .allocStmt
  let sql ← SQLActionFactory.given s.data
  let _ ← require D (.exec sql) "ODBC SQL Error: Couldn't exec query".toList
  let cols ← require D .numResultCols "ODBC SQL Error: Couldn't get column number".toList
  modify (setCols cols.number.toNat)
  measure active D 0 cols.number.toNat
  bindCols active D 0 cols.number.toNat
  trigger active .onAlways
  modify start
  return true

/-- `SQLTypeConnector::setNext` -/
def setNext (increment : Nat) : Proc ODBCConnector Nat := fun c =>
  match c.cursor.setNext increment with
  | .ok (rows, cursor) => .ok rows { c with cursor }
  | .error fault => .error fault c

/-- `SQLTypeConnector::reset` -/
def reset : Proc ODBCConnector Unit := modify fun c => { c with cursor := c.cursor.reset }

/-- `ODBCConnector::close` -/
def close : Proc ODBCConnector Bool := do
  let _ ← ask D .closeCursor
  let _ ← ask D .freeStmt
  let _ ← ask D .disconnect
  let _ ← ask D .freeConn
  let _ ← ask D .endTran
  let _ ← ask D .freeEnv
  modify clean
  return true

/-! ## What a check does -/

/-- The next record of a handle. -/
def unread (c : ODBCConnector) (h : Handle) : Option DiagRec := getDiagRec (c.records h) (c.msgSeq h)

/-- The message of a check that fails. -/
def report (c : ODBCConnector) : Str :=
  (([Handle.conn, .stmt, .env].findSome? c.unread).map DiagRec.text).getD "Unable to get error message".toList

/-- The record of a handle has been read. -/
def readOn (h : Handle) (c : ODBCConnector) : ODBCConnector :=
  { c with msgSeq := Function.update c.msgSeq h (smallInt (c.msgSeq h + 1)) }

/-- The connector behind a check that fails. -/
def reported (c : ODBCConnector) : ODBCConnector :=
  match [Handle.conn, .stmt, .env].find? fun h => (c.unread h).isSome with
  | some h => readOn h c
  | none => c

theorem readMsg_eq (hs : List Handle) (c : ODBCConnector) : readMsg hs c =
    .ok (((hs.findSome? c.unread).map DiagRec.text).getD "Unable to get error message".toList)
      (match hs.find? fun h => (c.unread h).isSome with
        | some h => readOn h c
        | none => c) := by
  induction hs with
  | nil => rfl
  | cons h rest ih =>
    unfold readMsg
    rw [List.findSome?_cons, List.find?_cons]
    unfold unread at ih ⊢
    cases next : getDiagRec (c.records h) (c.msgSeq h) with
    | none => exact ih
    | some r => rfl

theorem getMsg_failed {c : ODBCConnector} {code : Return} (failed : code.failed = true) :
    getMsg code c = .ok c.report c.reported := by
  have read := readMsg_eq [.conn, .stmt, .env] c
  cases code with
  | SQL_ERROR => exact read
  | SQL_INVALID_HANDLE => exact read
  | SQL_SUCCESS => cases failed
  | SQL_SUCCESS_WITH_INFO => cases failed
  | SQL_NO_DATA => cases failed

theorem getMsg_passed {c : ODBCConnector} {code : Return} (passed : code.failed = false) :
    ∃ message, getMsg code c = .ok message c.resetSeq := by
  cases code with
  | SQL_ERROR => cases passed
  | SQL_INVALID_HANDLE => cases passed
  | SQL_SUCCESS => exact ⟨_, rfl⟩
  | SQL_SUCCESS_WITH_INFO => exact ⟨_, rfl⟩
  | SQL_NO_DATA => exact ⟨_, rfl⟩

theorem getActions_eq (c : ODBCConnector) (code : Return) : errorFactory.getActions code c =
    .ok [if code.failed then fatalMethod else debugMethod] c := by
  cases code <;> rfl

theorem stop_eq (c : ODBCConnector) (code : Return) : errorFactory.stop code c = .ok (!code.failed) c := by
  cases code <;> rfl

/-- A factory with one action for the code it has, and no further code. -/
structure Single {σ Code Args Out : Type} (f : SQLActionFactory σ Code Args Out) (code : Code) (args : Option Args)
    (action : SQLAction σ Args Out) (s s₁ s₂ : σ) : Prop where
  getCode : f.getCode s = .ok (some code) s₁
  getActions : f.getActions code s₁ = .ok [action] s₁
  getArgs : f.getArgs code s₁ = .ok args s₂

section Single
variable {σ Code Args Out : Type} {f : SQLActionFactory σ Code Args Out} {code : Code} {args : Option Args}
  {action : SQLAction σ Args Out} {s s₁ s₂ s₃ : σ}

theorem Single.returns (h : Single f code args action s s₁ s₂) {out : Option Out} (run : action args s₂ = .ok out s₃)
    (stop : f.stop code s₃ = .ok true s₃) (fuel : Nat) :
    f.doActions (some SQLActionManager.latest) (some SQLActionManager.latest) false (fuel + 1) s = .ok out s₃ := by
  have tried : SQLActionFactory.tryNext action args s₂ = .ok out s₃ := by
    unfold SQLActionFactory.tryNext
    rw [run]
  have next : f.runNext false true code none action s₁ = .ok (args, out) s₃ := by
    unfold SQLActionFactory.runNext SQLActionFactory.nextArgs
    exact (Proc.bind_ok h.getArgs).trans (Proc.bind_ok tried)
  have ran : f.runActions (Option.getD (some SQLActionManager.latest) SQLActionFactory.merge) false code true none none
      [action] s₁ = .ok out s₃ := by
    unfold SQLActionFactory.runActions
    rw [next]
    rfl
  unfold SQLActionFactory.doActions SQLActionFactory.runCodes
  rw [Proc.bind_ok h.getCode]
  dsimp only
  rw [Proc.bind_ok h.getActions, Proc.bind_ok ran, Proc.bind_ok stop]
  rfl

theorem Single.throws (h : Single f code args action s s₁ s₂) {message : Str}
    (run : action args s₂ = .error (.error ⟨.sqlInternalFatalError, message⟩) s₃) (fuel : Nat) :
    f.doActions (some SQLActionManager.latest) (some SQLActionManager.latest) false (fuel + 1) s =
      .error (.error ⟨.sqlInternalFatalError, message⟩) s₃ := by
  have tried : SQLActionFactory.tryNext action args s₂ = .error (.error ⟨.sqlInternalFatalError, message⟩) s₃ := by
    unfold SQLActionFactory.tryNext
    rw [run]
    rfl
  have next : f.runNext false true code none action s₁ = .error (.error ⟨.sqlInternalFatalError, message⟩) s₃ := by
    unfold SQLActionFactory.runNext SQLActionFactory.nextArgs
    exact (Proc.bind_ok h.getArgs).trans (Proc.bind_error tried)
  have ran : f.runActions (Option.getD (some SQLActionManager.latest) SQLActionFactory.merge) false code true none none
      [action] s₁ = .error (.error ⟨.sqlInternalFatalError, message⟩) s₃ := by
    unfold SQLActionFactory.runActions
    rw [next]
  unfold SQLActionFactory.doActions SQLActionFactory.runCodes
  rw [Proc.bind_ok h.getCode]
  dsimp only
  rw [Proc.bind_ok h.getActions, Proc.bind_error ran]

end Single

/-- The first round on a code that passes is the last. -/
theorem doActions_passed {c : ODBCConnector} (passed : c.rc.failed = false) (fuel : Nat) :
    errorFactory.doActions (some SQLActionManager.latest) (some SQLActionManager.latest) false (fuel + 1) c =
      .ok none c.resetSeq := by
  obtain ⟨message, told⟩ := getMsg_passed (c := c) passed
  have actions := getActions_eq c c.rc
  have stop := stop_eq c.resetSeq c.rc
  rw [passed] at actions stop
  exact Single.returns ⟨rfl, actions, Proc.bind_ok told⟩ rfl stop fuel

theorem doActions_failed {c : ODBCConnector} (failed : c.rc.failed = true) (fuel : Nat) :
    errorFactory.doActions (some SQLActionManager.latest) (some SQLActionManager.latest) false (fuel + 1) c =
      .error (.error ⟨.sqlInternalFatalError, c.report⟩) c.reported := by
  have actions := getActions_eq c c.rc
  rw [failed] at actions
  exact Single.throws ⟨rfl, actions, Proc.bind_ok (getMsg_failed failed)⟩ rfl fuel

variable {active} {check : CheckPoint} {c : ODBCConnector}

theorem trigger_unchecked (off : ¬ Checked active check) : trigger active check c = .ok () c := by
  unfold trigger
  rw [if_neg off]
  rfl

theorem trigger_passed (on : Checked active check) (passed : c.rc.failed = false) :
    trigger active check c = .ok () c.resetSeq := by
  unfold trigger
  rw [if_pos on]
  exact Proc.bind_ok (doActions_passed passed 0)

theorem trigger_failed (on : Checked active check) (failed : c.rc.failed = true) :
    trigger active check c = .error (.error ⟨.sqlInternalFatalError, c.report⟩) c.reported := by
  unfold trigger
  rw [if_pos on]
  exact Proc.bind_error (doActions_failed failed 0)

end ODBCConnector

end SqlHandler
