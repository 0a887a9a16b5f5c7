import SqlHandler.Connector.Odbc

/-!
# Sequences

`SQLSequence::read` reads one row: each projected variable takes its value from the
connector, which moves on by itself. `BESDEBUG` evaluates its argument when the
context is enabled, and the argument of `SQLSimpleType::read` is a cast.
-/

namespace SqlHandler
open Posix

/-- The two `SQLSimpleType` templates and what a cast of theirs returns. -/
inductive CastAction (Cell Val : Type) where
  /-- `cast_string`: the cast copies the cell. -/
  | cast_string (out : Cell → Val)
  /-- `cast_func`: the cast returns the pointer and `val2buf` copies the cell. -/
  | cast_func (val2buf : Cell → Val)

/-- The value a cast and the copy behind it make of a cell. -/
def CastAction.out {Cell Val : Type} : CastAction Cell Val → Cell → Val
  | .cast_string out => out
  | .cast_func val2buf => val2buf

/-- Where a variable takes its value from: `SQLSimpleType` or `SQLDummySimpleType`. -/
inductive Reader (Cell Val : Type) where
  | simple (cast : CastAction Cell Val)
  | dummy (val : Val)

def Reader.connected {Cell Val : Type} : Reader Cell Val → Bool
  | .simple _ => true
  | .dummy _ => false

/-- A variable of the sequence. -/
structure Variable (Cell Val : Type) where
  name : Str
  reader : Reader Cell Val
  send_p : Bool
  is_in_selection : Bool
  read_p : Bool
  value : Option Val

structure SQLSequence (Cell Val : Type) where
  conn : Odbc Cell
  vars : List (Variable Cell Val)
  read_p : Bool

/-- What a cast hands over. -/
inductive Casted (Val : Type) where
  | value (v : Val)
  | pointer (p : Pointer)

namespace Variable
variable {Cell Val : Type}

def projected (v : Variable Cell Val) : Bool := v.send_p || v.is_in_selection

/-- Does the variable take its value from the connector? -/
def fromConnector (v : Variable Cell Val) : Bool := v.reader.connected

/-- What no read changes. -/
def signature (v : Variable Cell Val) : Str × Reader Cell Val × Bool × Bool :=
  (v.name, v.reader, v.send_p, v.is_in_selection)

/-- `SQLBaseType::cast` -/
def cast (action : CastAction Cell Val) : Proc (Odbc Cell) (Casted Val) := do
  if (← get).ready then
    let t ← Odbc.getNext 1
    match action with
    | .cast_string out => return .value (out (← Odbc.deref t))
    | .cast_func _ => return .pointer t
  else
    Proc.raise .besInternalFatalError "Unable to cast the next object using a NOT READY connector".toList

/-- `set_value` and `val2buf` -/
def store (action : CastAction Cell Val) : Casted Val → Proc (Odbc Cell) Val
  | .value v => return v
  | .pointer p =>
    match action with
    | .cast_string out => return out (← Odbc.deref p)
    | .cast_func val2buf => return val2buf (← Odbc.deref p)

/-- The body of `SQLSimpleType::read`, with the `sql` debug context on or off. -/
def readSimple (debug : Bool) (action : CastAction Cell Val) : Proc (Odbc Cell) Val := do
  if debug then let _ ← cast action
  let casted ← cast action
  store action casted

/-- The error a variable that cannot be read throws. -/
def readError (v : Variable Cell Val) (e : BESError) : BESError :=
  ⟨.besInternalFatalError,
    "SQLSimpleType: Unable to read variable '".toList ++ v.name ++ "': ".toList ++ e.message⟩

/-- `SQLSimpleType::read` and `SQLDummySimpleType::read` -/
def read (debug : Bool) (v : Variable Cell Val) : Proc (Odbc Cell) (Variable Cell Val) :=
  if v.read_p then return v
  else match v.reader with
  | .simple action => do
    let val ← (readSimple debug action).catchBES fun e => throw (.error (v.readError e))
    return { v with value := some val, read_p := true }
  | .dummy val => return { v with value := some val, read_p := true }

end Variable

namespace SQLSequence
variable {Cell Val : Type}

def withConn (s : SQLSequence Cell Val) (conn : Odbc Cell) : SQLSequence Cell Val := { s with conn }

/-- The loop of `SQLSequence::read` over the variables, `done` being those before. -/
def readVars (debug : Bool) :
    List (Variable Cell Val) → List (Variable Cell Val) → Proc (SQLSequence Cell Val) Unit
  | _, [] => pure ()
  | done, v :: rest => do
    if v.projected then
      let v' ← Proc.zoom conn withConn (v.read debug)
      modify fun s => { s with vars := done ++ v' :: rest }
      readVars debug (done ++ [v']) rest
    else readVars debug (done ++ [v]) rest

/-- `SQLSequence::read`, true when there is nothing to read any more. -/
def read (debug : Bool) : Proc (SQLSequence Cell Val) Bool := Proc.catchBES
  (do
    let s ← get
    if s.read_p || !s.conn.ready then return true
    else if s.conn.cursor.notEnd then
      readVars debug [] s.vars
      return false
    else return true)
  fun _ => do
    modify fun s => { s with conn := s.conn.close }
    Proc.raise .sqlInternalError "SQLSequence:read() ERROR".toList

/-- `set_read_p(false)` between two rows, on the sequence and its variables. -/
def clearRead (s : SQLSequence Cell Val) : SQLSequence Cell Val :=
  { s with read_p := false, vars := s.vars.map fun v => { v with read_p := false } }

/-- The values of the projected variables: the row a read delivers. -/
def row (s : SQLSequence Cell Val) : List (Option Val) :=
  (s.vars.filter Variable.projected).map Variable.value

/-- How a series of reads stops. -/
inductive Halt where
  | ended
  | fault (f : Fault)
  | running
  deriving DecidableEq, Repr

/-- At most `n` successive reads: the rows delivered, each with the connector's
cursor behind it, how it stops and what the sequence is then. -/
def readRows (debug : Bool) : Nat → SQLSequence Cell Val →
    List (List (Option Val) × Cursor) × Halt × SQLSequence Cell Val
  | 0, s => ([], .running, s)
  | n + 1, s =>
    match read debug s.clearRead with
    | .ok true s' => ([], .ended, s')
    | .ok false s' =>
      let (rows, halt, s'') := readRows debug n s'
      ((s'.row, s'.conn.cursor) :: rows, halt, s'')
    | .error f s' => ([], .fault f, s')

end SQLSequence

end SqlHandler
