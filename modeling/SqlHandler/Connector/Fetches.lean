import SqlHandler.Connector.Odbc

/-!
# The rows a connector has fetched

`getNext` does not look at what `SQLFetch` answered. In a run of calls the row of the
cursor is always the one that was fetched last (`Tracks`), so a call delivers its cell if
that fetch gave one, and what is left in the memory otherwise (`fetch_delivers_iff`).
-/

namespace SqlHandler
open Posix

namespace Odbc
variable {Cell : Type}

/-- Is `d_status[column] == SQL_NULL_DATA` after these results of `SQLFetch`? -/
def statusAfter (column : Nat) (status : Bool) : List (Fetched Cell) → Bool
  | [] => status
  | .row cells :: rest => statusAfter column ((cells[column]?).elim status Option.isNone) rest
  | .noData :: rest => statusAfter column status rest
  | .error :: rest => statusAfter column status rest

/-! ## What a number of fetches leaves -/

theorem fetchRow_stmt (c : Odbc Cell) : c.fetchRow.stmt = c.stmt.drop 1 := by
  unfold fetchRow replaceNulls sqlFetch
  split <;> simp [*]

theorem fetchRow_status (c : Odbc Cell) (column : Nat) :
    c.fetchRow.d_status column = statusAfter column (c.d_status column) (c.stmt.take 1) := by
  unfold fetchRow replaceNulls sqlFetch
  cases stmt : c.stmt with
  | nil => rfl
  | cons result rest =>
    cases result with
    | row cells =>
      simp only [List.take_succ_cons, List.take_zero, statusAfter]
      cases cells[column]? <;> rfl
    | noData => rfl
    | error => rfl

theorem statusAfter_append (column : Nat) (status : Bool) (l l' : List (Fetched Cell)) :
    statusAfter column status (l ++ l') = statusAfter column (statusAfter column status l) l' := by
  induction l generalizing status with
  | nil => rfl
  | cons result rest ih =>
    cases result <;> exact ih _

theorem iterate_stmt (c : Odbc Cell) (n : Nat) : (fetchRow^[n] c).stmt = c.stmt.drop n := by
  induction n with
  | zero => rfl
  | succ n ih => rw [Function.iterate_succ_apply', fetchRow_stmt, ih, List.drop_drop]

theorem iterate_status (c : Odbc Cell) (n column : Nat) :
    (fetchRow^[n] c).d_status column = statusAfter column (c.d_status column) (c.stmt.take n) := by
  induction n with
  | zero => rfl
  | succ n ih =>
    rw [Function.iterate_succ_apply', fetchRow_status, ih, iterate_stmt, ← statusAfter_append, ← List.take_add]

theorem fetchRow_memory {c : Odbc Cell} {column : Nat} {cells : List (Option Cell)} {rest : List (Fetched Cell)} {v : Cell}
    (next : c.stmt = .row cells :: rest) (cell : cells[column]? = some (some v)) : c.fetchRow.memory column = v := by
  change c.sqlFetch.memory column = v
  unfold sqlFetch
  rw [next]
  simp [cell]

/-- A row that was fetched stands in the memory. -/
theorem iterate_memory {c : Odbc Cell} {n column : Nat} {cells : List (Option Cell)} {v : Cell}
    (row : c.stmt[n]? = some (.row cells)) (cell : cells[column]? = some (some v)) :
    (fetchRow^[n + 1] c).memory column = v := by
  rw [Function.iterate_succ_apply']
  obtain ⟨lt, found⟩ := List.getElem?_eq_some_iff.1 row
  have next : (fetchRow^[n] c).stmt = .row cells :: c.stmt.drop (n + 1) := by
    rw [iterate_stmt, List.drop_eq_getElem_cons lt, found]
  exact fetchRow_memory next cell

theorem fetchRow_d_buf (c : Odbc Cell) (column : Nat) :
    c.fetchRow.d_buf[column]? =
      (c.d_buf[column]?).map fun p => if c.fetchRow.d_status column then .address '0'.toNat else p := by
  have same : c.fetchRow.d_status = c.sqlFetch.d_status := rfl
  unfold fetchRow at same ⊢
  rw [same]
  unfold replaceNulls
  rw [List.getElem?_mapIdx, sqlFetch_d_buf]

/-- An entry of `d_buf` is the bound memory as long as no NULL has come for its column. -/
theorem iterate_d_buf {c : Odbc Cell} {column : Nat} (start : c.d_buf[column]? = some (.bound column)) (n : Nat) :
    (∃ p, (fetchRow^[n] c).d_buf[column]? = some p ∧ (p = .bound column ∨ p = .address '0'.toNat)) ∧
      ((fetchRow^[n] c).d_buf[column]? = some (.bound column) ↔
        ∀ j < n, statusAfter column (c.d_status column) (c.stmt.take (j + 1)) = false) := by
  induction n with
  | zero => exact ⟨⟨_, start, .inl rfl⟩, by simp [start]⟩
  | succ n ih =>
    obtain ⟨⟨p, entry, kinds⟩, bound⟩ := ih
    have status := iterate_status c (n + 1) column
    rw [Function.iterate_succ_apply'] at status ⊢
    rw [fetchRow_d_buf, entry, status, Option.map_some]
    rw [entry] at bound
    have last : (∀ j < n + 1, statusAfter column (c.d_status column) (c.stmt.take (j + 1)) = false) ↔
        (∀ j < n, statusAfter column (c.d_status column) (c.stmt.take (j + 1)) = false) ∧
          statusAfter column (c.d_status column) (c.stmt.take (n + 1)) = false := by
      constructor
      · intro all
        exact ⟨fun j lt => all j (by omega), all n (by omega)⟩
      · intro ⟨before, this⟩ j lt
        rcases Nat.lt_succ_iff_lt_or_eq.1 lt with lt | rfl
        · exact before j lt
        · exact this
    rw [last, ← bound]
    cases statusAfter column (c.d_status column) (c.stmt.take (n + 1)) with
    | true => exact ⟨⟨_, rfl, .inr rfl⟩, by simp⟩
    | false => exact ⟨⟨p, by simp, kinds⟩, by simp⟩

/-! ## Runs of `getNext` -/

/-- The states of a connector between a query and the calls of `getNext` that returned,
none of which moved the row position past `size_t`. -/
inductive Run (a : Answer Cell) (c₀ : Odbc Cell) : Odbc Cell → Prop
  | query : Run a c₀ (c₀.query a)
  | call {c c' : Odbc Cell} {next : Nat} {p : Pointer} (run : Run a c₀ c) (size : next < 2 ^ 64)
      (unwrapped : c.cursor.rowPosition + next / c.cursor.columns < 2 ^ 64) (returned : getNext next c = .ok p c') :
      Run a c₀ c'

/-- `fetched` calls of `SQLFetch` after the query, and the cursor on the row the next fetches lead to. -/
structure Tracks (a : Answer Cell) (c₀ : Odbc Cell) (fetched : Nat) (c : Odbc Cell) : Prop where
  same : c = { fetchRow^[fetched] (c₀.query a) with cursor := c.cursor, toFetchRows := c.toFetchRows }
  fits : c.cursor.Fits
  rows : c.cursor.rows = a.count
  columns : c.cursor.columns = a.columns
  waits : c.cursor.notEnd = true → fetched + c.toFetchRows = c.cursor.rowPosition + 1
  narrow : 0 < fetched → a.columns ≤ bufSize

theorem fetchRow_with (c : Odbc Cell) (cursor : Cursor) (n : Nat) :
    fetchRow { c with cursor, toFetchRows := n } = { c.fetchRow with cursor, toFetchRows := n } := by
  obtain ⟨cursor', ready, wait, stmt, memory, status, buf⟩ := c
  rcases stmt with _ | ⟨_ | _ | _, rest⟩ <;> rfl

theorem iterate_with (c : Odbc Cell) (cursor : Cursor) (k n : Nat) :
    fetchRow^[k] { c with cursor, toFetchRows := n } = { fetchRow^[k] c with cursor, toFetchRows := n } := by
  induction k with
  | zero => rfl
  | succ k ih => rw [Function.iterate_succ_apply', ih, fetchRow_with, ← Function.iterate_succ_apply' fetchRow]

section Tracks
variable {a : Answer Cell} {c₀ c : Odbc Cell} {fetched : Nat}

theorem Tracks.ready (h : Tracks a c₀ fetched c) : c.ready = true := by
  rw [h.same]
  exact iterate_ready _ _

/-- The connector after the fetches a call waits for. -/
theorem Tracks.fetched_eq (h : Tracks a c₀ fetched c) (here : c.cursor.notEnd = true) :
    c.fetched = { fetchRow^[c.cursor.rowPosition + 1] (c₀.query a) with
      cursor := c.cursor, toFetchRows := c.toFetchRows } := by
  have same := h.same
  unfold Odbc.fetched
  rw [← h.waits here, Nat.add_comm, Function.iterate_add_apply, ← iterate_with, ← same]

/-- A call before the end returns the entry of its column as the last fetch left it. -/
theorem Tracks.getNext_run (h : Tracks a c₀ fetched c) (here : c.cursor.notEnd = true) (narrow : a.columns ≤ bufSize)
    {next rows : Nat} {cursor : Cursor} {p : Pointer} (moves : c.cursor.setNext next = .ok (rows, cursor))
    (entry : (fetchRow^[c.cursor.rowPosition + 1] (c₀.query a)).d_buf[c.cursor.columnPosition]? = some p) :
    getNext next c =
      .ok p { fetchRow^[c.cursor.rowPosition + 1] (c₀.query a) with cursor, toFetchRows := rows } := by
  have go : (!c.ready || !c.cursor.notEnd) = false := by rw [h.ready, here]; rfl
  have all := fetchRows_ok (by rw [h.columns]; exact narrow) (rfl : c.toFetchRows = c.toFetchRows)
  unfold getNext
  rw [Proc.bind_ok (rfl : (get : Proc (Odbc Cell) _) c = .ok c c), go]
  change ((fetchRows c.toFetchRows >>= fun _ => takeCell next) : Proc (Odbc Cell) Pointer) c = _
  rw [Proc.bind_ok all]
  change takeCell next (c.fetched.setToFetch 0) = _
  rw [h.fetched_eq here]
  unfold takeCell setToFetch
  dsimp only
  rw [entry, moves]

variable (a c₀) in
theorem query_entry {column : Nat} (lt : column < a.columns) : (c₀.query a).d_buf[column]? = some (.bound column) := by
  change ((List.range a.columns).map Pointer.bound)[column]? = _
  simp [lt]

/-- The fetch loop of a call that is not at the end is defined. -/
theorem Tracks.narrow_of_returned (h : Tracks a c₀ fetched c) (here : c.cursor.notEnd = true) {next : Nat}
    (defined : ∀ c', getNext next c ≠ .error .undefined c') : a.columns ≤ bufSize := by
  by_contra wide
  rcases Nat.eq_zero_or_pos fetched with none' | some
  · have waits := h.waits here
    refine defined _ (getNext_undefined h.ready here ?_ (by omega))
    rw [h.columns]
    omega
  · exact wide (h.narrow some)

theorem Tracks.step (h : Tracks a c₀ fetched c) {next : Nat} (size : next < 2 ^ 64)
    (unwrapped : c.cursor.rowPosition + next / c.cursor.columns < 2 ^ 64) {p : Pointer} {c' : Odbc Cell}
    (returned : getNext next c = .ok p c') : Tracks a c₀ (c.cursor.rowPosition + 1) c' := by
  have here : c.cursor.notEnd = true := by
    by_contra stop
    rw [getNext_end (.inr (by simpa using stop))] at returned
    cases returned
  have narrow : a.columns ≤ bufSize := by
    apply h.narrow_of_returned here
    intro c' bad
    rw [bad] at returned
    cases returned
  have small : c.cursor.columns < 2 ^ 63 := by
    have := a.columns_lt
    rw [h.columns]
    omega
  obtain ⟨rows, cursor, moves, fits, sameRows, sameColumns, moved⟩ :=
    Cursor.setNext_moves h.fits here small size unwrapped
  have column := h.fits.column_lt here
  rw [h.columns] at column
  obtain ⟨⟨q, entry, -⟩, -⟩ := iterate_d_buf (query_entry a c₀ column) (c.cursor.rowPosition + 1)
  rw [h.getNext_run here narrow moves entry] at returned
  cases returned
  refine ⟨rfl, fits, sameRows.trans h.rows, sameColumns.trans h.columns, fun still => ?_, fun _ => narrow⟩
  have := moved still
  change c.cursor.rowPosition + 1 + rows = cursor.rowPosition + 1
  omega

/-- With a column to read, every state of a run has fetched up to the row of its cursor. -/
theorem Run.tracks (some : 0 < a.columns) (run : Run a c₀ c) : ∃ fetched, Tracks a c₀ fetched c := by
  induction run with
  | query =>
    have columns := a.columns_lt
    refine ⟨0, rfl, Cursor.reset_fits a.count_lt ?_ some, rfl, rfl, fun _ => rfl, fun none' => absurd none' (Nat.lt_irrefl 0)⟩
    change a.columns < 2 ^ 64
    omega
  | call _ size unwrapped returned ih =>
    obtain ⟨fetched, tracks⟩ := ih
    exact ⟨_, tracks.step size unwrapped returned⟩

/-- Without columns no call returns. -/
theorem Run.without_columns (none' : a.columns = 0) (run : Run a c₀ c) : c = c₀.query a ∧
    (c.cursor.notEnd = true → ∀ next, getNext next c = .error .undefined (c.fetched.setToFetch 0)) := by
  have first : (c₀.query a).cursor.notEnd = true → ∀ next,
      getNext next (c₀.query a) = .error .undefined ((c₀.query a).fetched.setToFetch 0) := by
    intro here next
    have go : (!(c₀.query a).ready || !(c₀.query a).cursor.notEnd) = false := by rw [here]; rfl
    have low : (c₀.query a).cursor.columns ≤ bufSize := by
      change a.columns ≤ bufSize
      omega
    unfold getNext
    rw [Proc.bind_ok (rfl : (get : Proc (Odbc Cell) _) (c₀.query a) = .ok (c₀.query a) (c₀.query a)), go]
    change ((fetchRows (c₀.query a).toFetchRows >>= fun _ => takeCell next) : Proc (Odbc Cell) Pointer) (c₀.query a) = _
    rw [Proc.bind_ok (fetchRows_ok low rfl)]
    have empty : ((c₀.query a).fetched.setToFetch 0).d_buf = [] := by
      refine List.eq_nil_of_length_eq_zero ?_
      change (fetchRow^[(c₀.query a).toFetchRows] (c₀.query a)).d_buf.length = 0
      rw [iterate_length]
      change ((List.range a.columns).map Pointer.bound).length = 0
      simp [none']
    change takeCell next ((c₀.query a).fetched.setToFetch 0) = _
    unfold takeCell
    rw [empty]
    rfl
  induction run with
  | query => exact ⟨rfl, first⟩
  | call run _ _ returned ih =>
    obtain ⟨rfl, undefined'⟩ := ih
    exfalso
    cases notEnd : (c₀.query a).cursor.notEnd with
    | true =>
      rw [undefined' notEnd] at returned
      cases returned
    | false =>
      rw [getNext_end (.inr notEnd)] at returned
      cases returned

/-- Before the end a call returns the entry of its column: the memory bound to it, with the cell
fetched last, or the substitute of a NULL that came before. -/
theorem Run.returns (run : Run a c₀ c) (here : c.cursor.notEnd = true) (some' : 0 < a.columns) (narrow : a.columns ≤ bufSize)
    (next : Nat) : ∃ p c', getNext next c = .ok p c' ∧ (p = .bound c.cursor.columnPosition ∨ p = .address '0'.toNat) ∧
      (p = .bound c.cursor.columnPosition ↔ ∀ j < c.cursor.rowPosition + 1,
        statusAfter c.cursor.columnPosition (c₀.d_status c.cursor.columnPosition) (a.results.take (j + 1)) = false) ∧
      ∀ cells v, a.results[c.cursor.rowPosition]? = some (.row cells) → cells[c.cursor.columnPosition]? = some (some v) →
        c'.memory c.cursor.columnPosition = v := by
  obtain ⟨fetched, tracks⟩ := run.tracks some'
  have column := tracks.fits.column_lt here
  rw [tracks.columns] at column
  obtain ⟨rows, cursor, moves, -⟩ := Cursor.setNext_frame (c := c.cursor) (k := next) (by rw [tracks.columns]; exact some')
  obtain ⟨⟨p, entry, kinds⟩, bound⟩ := iterate_d_buf (query_entry a c₀ column) (c.cursor.rowPosition + 1)
  rw [entry, Option.some_inj] at bound
  exact ⟨p, _, tracks.getNext_run here narrow moves entry, kinds, bound, fun cells v row cell => iterate_memory row cell⟩

/-- With more columns than status entries a call before the end does not return. -/
theorem Run.wide (run : Run a c₀ c) (here : c.cursor.notEnd = true) (some' : 0 < a.columns) (wide : bufSize < a.columns)
    (next : Nat) : ∃ c', getNext next c = .error .undefined c' := by
  obtain ⟨fetched, tracks⟩ := run.tracks some'
  by_contra defined
  have narrow := tracks.narrow_of_returned here fun c' bad => defined ⟨c', bad⟩
  omega

end Tracks

/-! ## What a call delivers -/

/-- What a call owes: a value it returns is the cell under the cursor, of a row that was fetched. -/
def Delivers (a : Answer Cell) (c : Odbc Cell) (next : Nat) : Prop :=
  match getNext next c with
  | .ok p c' => ∃ cells v, a.results[c.cursor.rowPosition]? = some (.row cells) ∧
      cells[c.cursor.columnPosition]? = some (some v) ∧ deref p c' = .ok v c'
  | .error (.error _) _ => True
  | .error _ _ => False

/-- The cell under the cursor was fetched, in a result the status entries hold, and no NULL
has come in its column. -/
structure CellFetched (a : Answer Cell) (status : Nat → Bool) (row column : Nat) : Prop where
  narrow : a.columns ≤ bufSize
  column_lt : column < a.columns
  cell : ∃ cells v, a.results[row]? = some (.row cells) ∧ cells[column]? = some (some v)
  plain : ∀ j < row + 1, statusAfter column (status column) (a.results.take (j + 1)) = false

/-- In every run, a call delivers what it owes exactly if the cell under the cursor was
fetched, or the cursor is at the end. The answer of the driver is any, also one with fewer rows than it
counts; the moves are those that do not wrap the row. -/
theorem fetch_delivers_iff {a : Answer Cell} {c₀ c : Odbc Cell} (run : Run a c₀ c) (next : Nat) :
    Delivers a c next ↔
      c.cursor.notEnd = false ∨ CellFetched a c₀.d_status c.cursor.rowPosition c.cursor.columnPosition := by
  cases notEnd : c.cursor.notEnd with
  | false =>
    unfold Delivers
    rw [getNext_end (.inr notEnd)]
    simp
  | true =>
  simp only [Bool.true_eq_false, false_or]
  rcases Nat.eq_zero_or_pos a.columns with none' | some
  · unfold Delivers
    rw [(run.without_columns none').2 notEnd next]
    refine iff_of_false not_false fun fetched => ?_
    have := fetched.column_lt
    omega
  by_cases narrow : a.columns ≤ bufSize
  · obtain ⟨p, c', returned, kinds, bound, memory⟩ := run.returns notEnd some narrow next
    obtain ⟨fetched, tracks⟩ := run.tracks some
    have column := tracks.fits.column_lt notEnd
    rw [tracks.columns] at column
    unfold Delivers
    rw [returned]
    simp only
    constructor
    · rintro ⟨cells, v, row, cell, value⟩
      rcases kinds with rfl | rfl
      · exact ⟨narrow, column, ⟨cells, v, row, cell⟩, bound.1 rfl⟩
      · cases value
    · rintro ⟨-, -, ⟨cells, v, row, cell⟩, plain⟩
      cases bound.2 plain
      refine ⟨cells, v, row, cell, ?_⟩
      rw [← memory cells v row cell]
      rfl
  · obtain ⟨c', undefined'⟩ := run.wide notEnd some (by omega) next
    unfold Delivers
    rw [undefined']
    exact iff_of_false not_false fun fetched => narrow fetched.narrow

/-- Two rows were counted. -/
def counted (results : List (Fetched Nat)) : Answer Nat :=
  ⟨2, 1, results, fun _ => 0, by decide, one_column⟩

def connector : Odbc Nat := new (fun _ => 0) fun _ => false

/-- The connector behind the first of the two rows. -/
def second (results : List (Fetched Nat)) : Odbc Nat :=
  { (connector.query (counted results)).fetchRow with cursor := ⟨0, 1, 1, 2, true⟩, toFetchRows := 1 }

theorem second_run (rest : List (Fetched Nat)) :
    Run (counted (.row [some 7] :: rest)) connector (second (.row [some 7] :: rest)) := by
  have start : Run (counted (.row [some 7] :: rest)) connector _ := .query
  obtain ⟨fetched, tracks⟩ := start.tracks Nat.one_pos
  have moves : Cursor.setNext ⟨0, 0, 1, 2, true⟩ 1 = .ok (1, ⟨0, 1, 1, 2, true⟩) := by decide
  have entry := (iterate_d_buf (query_entry (counted (.row [some 7] :: rest)) connector Nat.one_pos) 1).2.2
    fun j lt => by
      obtain rfl : j = 0 := by omega
      rfl
  exact .call start (show 1 < 2 ^ 64 by decide) (show 0 + 1 / 1 < 2 ^ 64 by decide)
    (tracks.getNext_run rfl (show 1 ≤ bufSize by decide) moves entry)

theorem second_row_delivered : Delivers (counted [.row [some 7], .row [some 8]]) (second [.row [some 7], .row [some 8]]) 1 :=
  (fetch_delivers_iff (second_run _) 1).2 (.inr ⟨by decide, by decide, ⟨[some 8], 8, rfl, rfl⟩, by decide⟩)

/-- The second row is gone when it is fetched: the value of the first is delivered again. -/
theorem first_row_again : Run (counted [.row [some 7], .noData]) connector (second [.row [some 7], .noData]) ∧
    (∃ c, getNext 1 (second [.row [some 7], .noData]) = .ok (.bound 0) c ∧ deref (.bound 0) c = .ok 7 c) ∧
    ¬ Delivers (counted [.row [some 7], .noData]) (second [.row [some 7], .noData]) 1 := by
  refine ⟨second_run _, ⟨_, rfl, rfl⟩, ?_⟩
  rintro ⟨cells, v, row, -⟩
  cases row

end Odbc

end SqlHandler
