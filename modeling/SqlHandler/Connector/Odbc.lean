import SqlHandler.Connector.Cursor
import Mathlib.Logic.Function.Iterate

/-!
# The ODBC connector

The buffers of `ODBCConnector` between `query` and `close`. `SQLFetch` is the
driver: it writes the cells of a row into the memory that `SQLBindCol` bound and
their status entries, and leaves both alone when it has no row.
-/

namespace SqlHandler
open Posix

/-- An entry of `d_buf`: the memory bound to a column, or a number taken for an address. -/
inductive Pointer where
  | bound (column : Nat)
  | address (n : Nat)
  deriving DecidableEq, Repr

/-- A result of `SQLFetch`, `none` being a NULL cell. -/
inductive Fetched (Cell : Type) where
  | row (cells : List (Option Cell))
  | noData
  | error

/-- `_buf_size`, the length of `d_status` -/
def bufSize : Nat := 1024

structure Odbc (Cell : Type) where
  cursor : Cursor
  ready : Bool
  toFetchRows : Nat
  /-- The results `SQLFetch` still has. -/
  stmt : List (Fetched Cell)
  /-- What stands in the memory bound to each column. -/
  memory : Nat → Cell
  /-- Is `d_status[c] == SQL_NULL_DATA`? -/
  d_status : Nat → Bool
  d_buf : List Pointer

namespace Odbc
variable {Cell : Type}

/-- A new connector; `d_status` is not initialised. -/
def new (memory : Nat → Cell) (d_status : Nat → Bool) : Odbc Cell where
  cursor := ⟨0, 0, 0, 0, true⟩
  ready := false
  toFetchRows := 0
  stmt := []
  memory := memory
  d_status := d_status
  d_buf := []

/-- `SQLFetch` -/
def sqlFetch (c : Odbc Cell) : Odbc Cell :=
  match c.stmt with
  | [] => c
  | .row cells :: rest =>
    { c with
      stmt := rest
      memory := fun i => match cells[i]? with
        | some (some cell) => cell
        | _ => c.memory i
      d_status := fun i => match cells[i]? with
        | some cell => cell.isNone
        | none => c.d_status i }
  | _ :: rest => { c with stmt := rest }

theorem sqlFetch_row {c : Odbc Cell} {cells : List (Option Cell)} {rest : List (Fetched Cell)} (h : c.stmt = .row cells :: rest) :
    c.sqlFetch = { c with
      stmt := rest
      memory := fun i => match cells[i]? with
        | some (some cell) => cell
        | _ => c.memory i
      d_status := fun i => match cells[i]? with
        | some cell => cell.isNone
        | none => c.d_status i } := by
  unfold sqlFetch
  rw [h]

/-- The loop of `fetch`: `d_buf[c] = (SQLCHAR *) '0'` where the status says NULL. -/
def replaceNulls (c : Odbc Cell) : Odbc Cell :=
  { c with d_buf := c.d_buf.mapIdx fun i p => if c.d_status i then .address '0'.toNat else p }

def fetchRow (c : Odbc Cell) : Odbc Cell := c.sqlFetch.replaceNulls

/-- `ODBCConnector::fetch`. A status entry past the end of `d_status` is not the connector's memory. -/
def fetch : Proc (Odbc Cell) Unit := do
  let c ← get
  if bufSize < c.cursor.columns then throw .undefined
  set c.fetchRow

/-- `toFetchRows = n` -/
def setToFetch (c : Odbc Cell) (n : Nat) : Odbc Cell := { c with toFetchRows := n }

/-- The loop of `getNext` over the rows to fetch. -/
def fetchRows : Nat → Proc (Odbc Cell) Unit
  | 0 => pure ()
  | n + 1 => do
    fetch
    modify (setToFetch · n)
    fetchRows n

/-- `ODBCConnector::getNext` after the loop. -/
def takeCell (next : Nat) : Proc (Odbc Cell) Pointer := fun c =>
  match c.d_buf[c.cursor.columnPosition]?, c.cursor.setNext next with
  | none, _ => .error .undefined c
  | _, .error fault => .error fault c
  | some ret, .ok (skipped, cursor) => .ok ret { c with cursor := cursor, toFetchRows := skipped }

/-- `ODBCConnector::getNext` -/
def getNext (next : Nat) : Proc (Odbc Cell) Pointer := do
  let c ← get
  if !c.ready || !c.cursor.notEnd then
    Proc.raise .sqlInternalError
      "Unable to getNext() element, connector: !isReady() or end is reached".toList
  fetchRows c.toFetchRows
  takeCell next

/-- The cell behind a pointer. -/
def deref (p : Pointer) : Proc (Odbc Cell) Cell := do
  match p with
  | .bound column => return (← get).memory column
  | .address _ => throw .undefined

/-- `ODBCConnector::close`, as far as `clean` resets members. -/
def close (c : Odbc Cell) : Odbc Cell :=
  { c with ready := false, cursor := c.cursor.reset, d_buf := [] }

/-- What the driver answers to the two statements of a query, and what memory it is given. -/
structure Answer (Cell : Type) where
  count : Nat
  columns : Nat
  results : List (Fetched Cell)
  memory : Nat → Cell
  count_lt : count < 2 ^ 64
  columns_lt : columns < 2 ^ 15

theorem one_column : 1 < 2 ^ 15 := by decide

/-- `ODBCConnector::query` where no call of the driver fails. -/
def query (c : Odbc Cell) (a : Answer Cell) : Odbc Cell :=
  { c with
    cursor := { c.cursor with rows := a.count, columns := a.columns }.reset
    ready := true
    toFetchRows := 1
    stmt := a.results
    memory := a.memory
    d_buf := (List.range a.columns).map .bound }

def reset (c : Odbc Cell) : Odbc Cell := { c with cursor := c.cursor.reset }

/-- `k` calls of `setNext()`, one a column while the builders make the variables. -/
def setNexts : Nat → Odbc Cell → Except Fault (Odbc Cell)
  | 0, c => .ok c
  | k + 1, c =>
    match c.cursor.setNext 1 with
    | .error fault => .error fault
    | .ok (_, cursor) => setNexts k { c with cursor }

end Odbc

/-- A result set without NULL cells, its size counted as `query` counts it. -/
structure ResultSet (Cell : Type) where
  columns : Nat
  rows : List (List Cell)
  width : ∀ row ∈ rows, row.length = columns
  columns_pos : 0 < columns
  columns_lt : columns < 2 ^ 15
  rows_lt : rows.length < 2 ^ 64

namespace ResultSet
variable {Cell : Type}

def fetches (rows : List (List Cell)) : List (Fetched Cell) := rows.map fun row => .row (row.map some)

/-- The driver delivers the rows in order, and as many as it counted. -/
def answer (r : ResultSet Cell) (memory : Nat → Cell) : Odbc.Answer Cell where
  count := r.rows.length
  columns := r.columns
  results := fetches r.rows
  memory := memory
  count_lt := r.rows_lt
  columns_lt := r.columns_lt

end ResultSet

namespace Odbc
variable {Cell : Type}

/-! ## What a read leaves alone -/

@[simp] theorem fetchRow_cursor (c : Odbc Cell) : c.fetchRow.cursor = c.cursor := by
  unfold fetchRow replaceNulls sqlFetch
  split <;> rfl

@[simp] theorem fetchRow_ready (c : Odbc Cell) : c.fetchRow.ready = c.ready := by
  unfold fetchRow replaceNulls sqlFetch
  split <;> rfl

@[simp] theorem sqlFetch_d_buf (c : Odbc Cell) : c.sqlFetch.d_buf = c.d_buf := by
  unfold sqlFetch
  split <;> rfl

@[simp] theorem fetchRow_length (c : Odbc Cell) : c.fetchRow.d_buf.length = c.d_buf.length := by
  unfold fetchRow replaceNulls
  simp

@[simp] theorem iterate_cursor (c : Odbc Cell) (n : Nat) : (fetchRow^[n] c).cursor = c.cursor := by
  induction n with
  | zero => rfl
  | succ n ih => rw [Function.iterate_succ_apply', fetchRow_cursor, ih]

@[simp] theorem iterate_ready (c : Odbc Cell) (n : Nat) : (fetchRow^[n] c).ready = c.ready := by
  induction n with
  | zero => rfl
  | succ n ih => rw [Function.iterate_succ_apply', fetchRow_ready, ih]

@[simp] theorem iterate_length (c : Odbc Cell) (n : Nat) :
    (fetchRow^[n] c).d_buf.length = c.d_buf.length := by
  induction n with
  | zero => rfl
  | succ n ih => rw [Function.iterate_succ_apply', fetchRow_length, ih]

/-- The rows to fetch are counted apart from what a fetch does. -/
theorem fetchRow_setToFetch (c : Odbc Cell) (n : Nat) :
    (c.setToFetch n).fetchRow = c.fetchRow.setToFetch n := by
  obtain ⟨cursor, ready, wait, stmt, memory, status, buf⟩ := c
  rcases stmt with _ | ⟨_ | _ | _, rest⟩ <;> rfl

theorem iterate_setToFetch (c : Odbc Cell) (k n : Nat) :
    fetchRow^[k] (c.setToFetch n) = (fetchRow^[k] c).setToFetch n := by
  induction k with
  | zero => rfl
  | succ k ih =>
    rw [Function.iterate_succ_apply', ih, fetchRow_setToFetch, ← Function.iterate_succ_apply' fetchRow]

theorem fetch_ok {c : Odbc Cell} (h : c.cursor.columns ≤ bufSize) : fetch c = .ok () c.fetchRow := by
  unfold fetch
  rw [Proc.bind_ok (rfl : (get : Proc (Odbc Cell) _) c = .ok c c), if_neg (by omega)]
  rfl

theorem fetch_undefined {c : Odbc Cell} (h : bufSize < c.cursor.columns) :
    fetch c = .error .undefined c := by
  unfold fetch
  rw [Proc.bind_ok (rfl : (get : Proc (Odbc Cell) _) c = .ok c c), if_pos h]
  rfl

theorem fetchRows_ok {c : Odbc Cell} (h : c.cursor.columns ≤ bufSize) {n : Nat} (hn : c.toFetchRows = n) :
    fetchRows n c = .ok () ((fetchRow^[n] c).setToFetch 0) := by
  induction n generalizing c with
  | zero =>
    obtain ⟨⟩ := c
    cases hn
    rfl
  | succ n ih =>
    unfold fetchRows
    rw [Proc.bind_ok (fetch_ok h)]
    change fetchRows n (c.fetchRow.setToFetch n) = _
    have low : (c.fetchRow.setToFetch n).cursor.columns ≤ bufSize := by
      show c.fetchRow.cursor.columns ≤ bufSize
      rw [fetchRow_cursor]
      exact h
    rw [ih low rfl, iterate_setToFetch, Function.iterate_succ_apply]
    rfl

/-- The builders leave nothing but the cursor changed, and put that back. -/
theorem setNexts_reset {c d : Odbc Cell} (start : d.cursor.rows = c.cursor.rows ∧
    d.cursor.columns = c.cursor.columns ∧ { d with cursor := c.cursor } = c)
    (some : 0 < c.cursor.columns) (k : Nat) : ∃ e, setNexts k d = .ok e ∧ e.reset = c.reset := by
  induction k generalizing d with
  | zero =>
    obtain ⟨rows, columns, same⟩ := start
    refine ⟨d, rfl, ?_⟩
    have cursor : d.cursor.reset = c.cursor.reset := by
      unfold Cursor.reset
      rw [rows, columns]
    unfold reset
    rw [cursor, ← same]
  | succ k ih =>
    obtain ⟨rows, columns, same⟩ := start
    obtain ⟨n, cursor, run, rows', columns'⟩ := Cursor.setNext_frame (c := d.cursor) (k := 1)
      (by rw [columns]; exact some)
    unfold setNexts
    rw [run]
    refine ih (d := { d with cursor }) ⟨rows'.trans rows, columns'.trans columns, same⟩

/-! ## One read -/

/-- The connector after the fetches a read is waiting for. -/
def fetched (c : Odbc Cell) : Odbc Cell := fetchRow^[c.toFetchRows] c

/-- The connector after a read. -/
def read (c : Odbc Cell) : Odbc Cell :=
  { c.fetched with cursor := c.cursor.next, toFetchRows := c.cursor.skipped }

/-- A connector that `query` made ready, wherever its cursor is. -/
structure Stands (c : Odbc Cell) : Prop where
  ready : c.ready = true
  fits : c.cursor.Fits
  buffers : c.d_buf.length = c.cursor.columns
  status : c.cursor.columns ≤ bufSize

theorem Stands.read {c : Odbc Cell} (h : c.Stands) (here : c.cursor.notEnd = true) : c.read.Stands where
  ready := by
    show c.fetched.ready = true
    unfold fetched
    rw [iterate_ready, h.ready]
  fits := Cursor.next_fits h.fits here
  buffers := by
    show c.fetched.d_buf.length = c.cursor.next.columns
    unfold fetched
    rw [iterate_length, Cursor.next_columns, h.buffers]
  status := by
    show c.cursor.next.columns ≤ bufSize
    rw [Cursor.next_columns]
    exact h.status

/-- Before the end a read returns the entry of the column it stands on and moves on. -/
theorem getNext_ok {c : Odbc Cell} (h : c.Stands) (here : c.cursor.notEnd = true) :
    ∃ p, c.fetched.d_buf[c.cursor.columnPosition]? = some p ∧ getNext 1 c = .ok p c.read := by
  have column := h.fits.column_lt here
  have inside : c.cursor.columnPosition < c.fetched.d_buf.length := by
    unfold fetched
    rw [iterate_length, h.buffers]
    exact column
  obtain ⟨p, entry⟩ : ∃ p, c.fetched.d_buf[c.cursor.columnPosition]? = some p :=
    ⟨_, List.getElem?_eq_getElem inside⟩
  refine ⟨p, entry, ?_⟩
  have go : (!c.ready || !c.cursor.notEnd) = false := by rw [h.ready, here]; rfl
  have same : c.fetched.cursor = c.cursor := iterate_cursor ..
  have take : takeCell 1 (c.fetched.setToFetch 0) = .ok p c.read := by
    unfold takeCell
    change (match c.fetched.d_buf[c.fetched.cursor.columnPosition]?, c.fetched.cursor.setNext 1 with
      | none, _ => _
      | _, .error _ => _
      | some _, .ok (_, _) => _) = _
    rw [same, Cursor.setNext_one h.fits here, entry]
    rfl
  unfold getNext
  rw [Proc.bind_ok (rfl : (get : Proc (Odbc Cell) _) c = .ok c c), go]
  change ((fetchRows c.toFetchRows >>= fun _ => takeCell 1) : Proc (Odbc Cell) Pointer) c = _
  rw [Proc.bind_ok (fetchRows_ok h.status rfl)]
  exact take

/-- At the end, and on a connector that is not ready, a read throws. -/
theorem getNext_end {c : Odbc Cell} {next : Nat} (h : c.ready = false ∨ c.cursor.notEnd = false) :
    getNext next c = .error (.error ⟨.sqlInternalError,
      "Unable to getNext() element, connector: !isReady() or end is reached".toList⟩) c := by
  have stop : (!c.ready || !c.cursor.notEnd) = true := by
    rcases h with h | h <;> simp [h]
  unfold getNext
  rw [Proc.bind_ok (rfl : (get : Proc (Odbc Cell) _) c = .ok c c), stop]
  rfl

/-- With more columns than status entries the first fetch leaves the connector's memory. -/
theorem getNext_undefined {c : Odbc Cell} {next : Nat} (go : c.ready = true) (here : c.cursor.notEnd = true)
    (wide : bufSize < c.cursor.columns) (wait : 0 < c.toFetchRows) :
    getNext next c = .error .undefined c := by
  have open' : (!c.ready || !c.cursor.notEnd) = false := by rw [go, here]; rfl
  obtain ⟨n, hn⟩ : ∃ n, c.toFetchRows = n + 1 := ⟨_, (Nat.succ_pred_eq_of_pos wait).symm⟩
  have loop : fetchRows c.toFetchRows c = .error .undefined c := by
    rw [hn]
    exact Proc.bind_error (fetch_undefined wide)
  unfold getNext
  rw [Proc.bind_ok (rfl : (get : Proc (Odbc Cell) _) c = .ok c c), open']
  exact Proc.bind_error loop

end Odbc

end SqlHandler
