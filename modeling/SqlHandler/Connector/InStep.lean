import SqlHandler.Connector.Linear
import SqlHandler.Connector.Fetches

/-!
# Cursor and fetched rows in step

Calls of `getNext` with any increments. Behind calls whose increments sum up to `sum` the
cursor is on cell `sum`, and the fetches made and the fetches the next call waits for
lead to its row (`InPlace`); a call that finds no cell there raises.
-/

namespace SqlHandler
open Posix

namespace Odbc
variable {Cell : Type}

/-- Calls of `setNext`, which leave `toFetchRows` alone. -/
def moveBy : List Nat → Odbc Cell → Except Fault (Odbc Cell)
  | [], c => .ok c
  | k :: ks, c =>
    match c.cursor.setNext k with
    | .error fault => .error fault
    | .ok (_, cursor) => moveBy ks { c with cursor }

/-- Calls of `getNext`, going on behind one that raised. -/
def getNexts : List Nat → Odbc Cell → Odbc Cell
  | [], c => c
  | k :: ks, c =>
    match getNext k c with
    | .ok _ c' => getNexts ks c'
    | .error _ c' => getNexts ks c'

/-- `SQLFetch` always succeeds: behind the rows counted there are more. -/
def succeeding (r : ResultSet Cell) (beyond : List (List Cell)) (memory : Nat → Cell) : Answer Cell :=
  { r.answer memory with results := ResultSet.fetches (r.rows ++ beyond) }

/-- What a call owes behind calls whose increments sum up to `sum`: it raises if there are
no more cells; otherwise it returns the cell `sum` and has the driver at the row behind. -/
def Owes (r : ResultSet Cell) (beyond : List (List Cell)) (sum next : Nat) (c : Odbc Cell) : Prop :=
  if r.rows.length * r.columns ≤ sum then ∃ e, getNext next c = .error (.error e) c
  else ∃ p c' row cell, getNext next c = .ok p c' ∧
    c'.stmt = (ResultSet.fetches (r.rows ++ beyond)).drop (sum / r.columns + 1) ∧
    r.rows[sum / r.columns]? = some row ∧ row[sum % r.columns]? = some cell ∧ deref p c' = .ok cell c'

/-- Every call behind a query, any moves of the cursor and a reset owes this. -/
def InStep (r : ResultSet Cell) : Prop :=
  ∀ (c : Odbc Cell) (memory : Nat → Cell) (beyond : List (List Cell)) (moves before : List Nat) (next : Nat),
    (∀ k ∈ moves, k < 2 ^ 64) → before.sum < 2 ^ 64 → next < 2 ^ 64 →
    ∃ d, moveBy moves (c.query (succeeding r beyond memory)) = .ok d ∧
      Owes r beyond before.sum next (getNexts before d.reset)

/-! ## The moves before -/

/-- `reset` takes back whatever `setNext` did. -/
theorem moveBy_reset {c d : Odbc Cell} (start : d.cursor.rows = c.cursor.rows ∧
    d.cursor.columns = c.cursor.columns ∧ { d with cursor := c.cursor } = c)
    (some : 0 < c.cursor.columns) (moves : List Nat) : ∃ e, moveBy moves d = .ok e ∧ e.reset = c.reset := by
  induction moves generalizing d with
  | nil =>
    obtain ⟨rows, columns, same⟩ := start
    refine ⟨d, rfl, ?_⟩
    have cursor : d.cursor.reset = c.cursor.reset := by
      unfold Cursor.reset
      rw [rows, columns]
    unfold reset
    rw [cursor, ← same]
  | cons k moves ih =>
    obtain ⟨rows, columns, same⟩ := start
    obtain ⟨n, cursor, run, rows', columns'⟩ := Cursor.setNext_frame (c := d.cursor) (k := k)
      (by rw [columns]; exact some)
    unfold moveBy
    rw [run]
    exact ih (d := { d with cursor }) ⟨rows'.trans rows, columns'.trans columns, same⟩

/-! ## The invariant of the calls -/

section Calls
variable {a : Answer Cell} {c₀ c : Odbc Cell} {sum next : Nat}

/-- Fetches and cursor behind increments that sum up to `sum`. -/
structure InPlace (a : Answer Cell) (c₀ : Odbc Cell) (sum : Nat) (c : Odbc Cell) : Prop where
  tracks : ∃ fetched, Tracks a c₀ fetched c
  notEnd : c.cursor.notEnd = true ↔ sum < a.count * a.columns
  cell : c.cursor.notEnd = true → c.cursor.cell 0 = sum

theorem InPlace.query (some : 0 < a.columns) (rows : 0 < a.count) : InPlace a c₀ 0 (c₀.query a) := by
  have here : (c₀.query a).cursor.notEnd = true := Cursor.reset_notEnd some
  refine ⟨Run.tracks some .query, ⟨fun _ => Nat.mul_pos rows some, fun _ => here⟩, fun _ => ?_⟩
  change 0 * a.columns + 0 + 0 = 0
  omega

/-- The row and the column of the cursor. -/
theorem InPlace.position (h : InPlace a c₀ sum c) (here : c.cursor.notEnd = true) :
    c.cursor.rowPosition = sum / a.columns ∧ c.cursor.columnPosition = sum % a.columns := by
  obtain ⟨fetched, tracks⟩ := h.tracks
  have column := tracks.fits.column_lt here
  have cell := h.cell here
  have at' := Cursor.cell_of (c := c.cursor) (k := 0) column rfl
  rw [cell, tracks.columns] at at'
  exact ⟨at'.1.symm, at'.2.symm⟩

/-- A call returns the entry of its column, and leaves the fetches up to its row. -/
theorem InPlace.returns (h : InPlace a c₀ sum c) (narrow : a.columns ≤ bufSize) (here : c.cursor.notEnd = true) (next : Nat) :
    ∃ p rows cursor, c.cursor.setNext next = .ok (rows, cursor) ∧
      (fetchRow^[sum / a.columns + 1] (c₀.query a)).d_buf[sum % a.columns]? = some p ∧
      getNext next c = .ok p { fetchRow^[sum / a.columns + 1] (c₀.query a) with cursor, toFetchRows := rows } := by
  obtain ⟨fetched, tracks⟩ := h.tracks
  obtain ⟨row, column⟩ := h.position here
  have inside := tracks.fits.column_lt here
  obtain ⟨rows, cursor, moves, -⟩ := Cursor.setNext_frame (c := c.cursor) (k := next) (by omega)
  rw [tracks.columns, column] at inside
  obtain ⟨⟨p, entry, -⟩, -⟩ := iterate_d_buf (query_entry a c₀ inside) (sum / a.columns + 1)
  refine ⟨p, rows, cursor, moves, entry, ?_⟩
  rw [← row] at entry ⊢
  rw [← column] at entry
  exact tracks.getNext_run here narrow moves entry

theorem InPlace.step (h : InPlace a c₀ sum c) (narrow : a.columns ≤ bufSize) (rows_pos : 0 < a.count) (small : sum + next < 2 ^ 64) :
    InPlace a c₀ (sum + next) (getNexts [next] c) := by
  cases here : c.cursor.notEnd with
  | false =>
    have outside : ¬ sum < a.count * a.columns := by
      rw [← h.notEnd, here]
      exact Bool.false_ne_true
    unfold getNexts
    rw [getNext_end (.inr here)]
    refine ⟨h.tracks, ?_, fun still => ?_⟩
    · unfold getNexts
      rw [here]
      exact iff_of_false Bool.false_ne_true (by omega)
    · change c.cursor.notEnd = true at still
      rw [here] at still
      cases still
  | true =>
    obtain ⟨p, rows, cursor, moves, -, run⟩ := h.returns narrow here next
    obtain ⟨fetched, tracks⟩ := h.tracks
    have cell := h.cell here
    have columns_lt := a.columns_lt
    have wide : c.cursor.columns < 2 ^ 63 := by rw [tracks.columns]; omega
    have unwrapped : c.cursor.rowPosition + next / c.cursor.columns < 2 ^ 64 := by
      have quotient : next / c.cursor.columns ≤ next := Nat.div_le_self ..
      have row : c.cursor.rowPosition ≤ sum := by
        rw [(h.position here).1]
        exact Nat.div_le_self ..
      omega
    have later : c.cursor.cell next = sum + next := by
      unfold Cursor.cell at cell ⊢
      omega
    have ends := Cursor.setNext_inside_iff tracks.fits here wide (by omega) (by rw [tracks.rows]; exact rows_pos) unwrapped moves
    have goes := tracks.step (by omega) unwrapped run
    rw [later, tracks.rows, tracks.columns] at ends
    unfold getNexts
    rw [run]
    refine ⟨⟨_, goes⟩, ends, fun still => ?_⟩
    have inside := ends.1 still
    rw [← later, ← tracks.rows, ← tracks.columns] at inside
    rw [Cursor.linear_of_inside tracks.fits here wide (by omega) inside, Cursor.moved_inside inside] at moves
    cases moves
    change c.cursor.cell next / c.cursor.columns * c.cursor.columns + c.cursor.cell next % c.cursor.columns + 0 = sum + next
    rw [← later, Nat.mul_comm, Nat.add_zero, Nat.div_add_mod]

theorem getNexts_cons (k : Nat) (ks : List Nat) (c : Odbc Cell) : getNexts (k :: ks) c = getNexts ks (getNexts [k] c) := by
  simp only [getNexts]
  cases getNext k c <;> rfl

/-- Any calls leave cursor and fetches in step. -/
theorem InPlace.calls (narrow : a.columns ≤ bufSize) (rows : 0 < a.count) {before : List Nat} (h : InPlace a c₀ sum c)
    (small : sum + before.sum < 2 ^ 64) : InPlace a c₀ (sum + before.sum) (getNexts before c) := by
  induction before generalizing sum c with
  | nil => exact h
  | cons k before ih =>
    rw [List.sum_cons] at small ⊢
    rw [getNexts_cons, ← Nat.add_assoc]
    exact ih (h.step narrow rows (by omega)) (by omega)

end Calls

/-! ## What a call delivers -/

section Cells
variable {r : ResultSet Cell} {beyond : List (List Cell)} {memory : Nat → Cell}

/-- No status says NULL where no cell is NULL. -/
theorem statusAfter_plain {column : Nat} {rows : List (List Cell)} (wide : ∀ row ∈ rows, column < row.length) (some' : rows ≠ [])
    (status : Bool) : statusAfter column status (ResultSet.fetches rows) = false := by
  induction rows generalizing status with
  | nil => exact absurd rfl some'
  | cons row rows ih =>
    have lt : column < row.length := wide row List.mem_cons_self
    have entry : (row.map some)[column]? = some (some row[column]) := by
      rw [List.getElem?_map, List.getElem?_eq_getElem lt]
      rfl
    change statusAfter column (((row.map some)[column]?).elim status Option.isNone) (ResultSet.fetches rows) = false
    rw [entry]
    cases rows with
    | nil => rfl
    | cons row' rows => exact ih (fun row mem => wide row (List.mem_cons_of_mem _ mem)) nofun _

theorem InPlace.owes {c₀ c : Odbc Cell} {sum : Nat} (h : InPlace (succeeding r beyond memory) c₀ sum c) (narrow : r.columns ≤ bufSize)
    (next : Nat) : Owes r beyond sum next c := by
  unfold Owes
  split
  · next past =>
    cases here : c.cursor.notEnd with
    | false => exact ⟨_, getNext_end (.inr here)⟩
    | true =>
      have inside : sum < r.rows.length * r.columns := h.notEnd.1 here
      omega
  · next inside =>
    have here : c.cursor.notEnd = true := h.notEnd.2 (by change sum < r.rows.length * r.columns; omega)
    obtain ⟨p, rows, cursor, -, entry, run⟩ := h.returns narrow here next
    change (fetchRow^[sum / r.columns + 1] _).d_buf[sum % r.columns]? = some p at entry
    change getNext next c = .ok p { fetchRow^[sum / r.columns + 1] _ with cursor, toFetchRows := rows } at run
    have column : sum % r.columns < r.columns := Nat.mod_lt _ r.columns_pos
    have row : sum / r.columns < r.rows.length := Nat.div_lt_of_lt_mul (by rw [Nat.mul_comm]; omega)
    have width : ∀ row ∈ r.rows, sum % r.columns < row.length := fun row mem => by
      rw [r.width row mem]
      exact column
    have bound := (iterate_d_buf (query_entry (succeeding r beyond memory) c₀ column) (sum / r.columns + 1)).2.2 fun j lt => by
      have front : (ResultSet.fetches (r.rows ++ beyond)).take (j + 1) = ResultSet.fetches (r.rows.take (j + 1)) := by
        unfold ResultSet.fetches
        rw [← List.map_take, List.take_append_of_le_length (by omega)]
      change statusAfter (sum % r.columns) _ ((ResultSet.fetches (r.rows ++ beyond)).take (j + 1)) = false
      rw [front]
      refine statusAfter_plain (fun row mem => width row (List.mem_of_mem_take mem)) ?_ _
      intro none'
      have count := congrArg List.length none'
      rw [List.length_take] at count
      change min (j + 1) r.rows.length = 0 at count
      omega
    obtain rfl : p = .bound (sum % r.columns) := Option.some.inj (entry.symm.trans bound)
    have cells : r.rows[sum / r.columns]? = some r.rows[sum / r.columns] := List.getElem?_eq_getElem row
    have cell : (r.rows[sum / r.columns])[sum % r.columns]? = some _ :=
      List.getElem?_eq_getElem (width _ (List.getElem_mem row))
    refine ⟨_, _, _, _, run, ?_, cells, cell, ?_⟩
    · change (fetchRow^[sum / r.columns + 1] _).stmt = _
      rw [iterate_stmt]
      rfl
    · have fetchedRow : (ResultSet.fetches (r.rows ++ beyond))[sum / r.columns]? =
          some (.row (r.rows[sum / r.columns].map some)) := by
        unfold ResultSet.fetches
        rw [List.getElem?_map, List.getElem?_append_left row, cells]
        rfl
      have stands : (fetchRow^[sum / r.columns + 1] (c₀.query (succeeding r beyond memory))).memory (sum % r.columns) = _ :=
        iterate_memory fetchedRow (by rw [List.getElem?_map, cell]; rfl)
      rw [← stands]
      rfl

/-- With more columns than status entries the first call does not return. -/
theorem not_owes_wide (some : r.rows ≠ []) (wide : bufSize < r.columns) (c : Odbc Cell) (next : Nat) :
    ¬ Owes r beyond 0 next (c.query (succeeding r beyond memory)) := by
  have cells : 0 < r.rows.length * r.columns := Nat.mul_pos (List.length_pos_iff.2 some) r.columns_pos
  intro owes
  unfold Owes at owes
  rw [if_neg (by omega)] at owes
  obtain ⟨p, c', -, -, returned, -⟩ := owes
  rw [getNext_undefined rfl (Cursor.reset_notEnd r.columns_pos) wide Nat.one_pos] at returned
  cases returned

theorem not_inStep_of_wide (some : r.rows ≠ []) (wide : bufSize < r.columns) : ¬ InStep r := by
  intro inStep
  obtain ⟨row, rest, first⟩ := List.exists_cons_of_ne_nil some
  have width : row.length = r.columns := r.width row (by rw [first]; exact List.mem_cons_self)
  have cell : 0 < row.length := by rw [width]; exact r.columns_pos
  obtain ⟨d, run, owes⟩ := inStep (new (fun _ => row[0]) fun _ => false) (fun _ => row[0]) [] [] [] 0 nofun (by decide) (by decide)
  cases run
  exact not_owes_wide some wide _ 0 owes

/-- With a row to read, cursor and fetches stay in step exactly if `d_status` holds the columns. The moves
in front, the calls and the memory are any, and the statement may have more rows than the driver counts. -/
theorem in_step_iff (r : ResultSet Cell) (some : r.rows ≠ []) : InStep r ↔ r.columns ≤ bufSize := by
  have rows : 0 < r.rows.length := List.length_pos_iff.2 some
  have start (c : Odbc Cell) (memory : Nat → Cell) (beyond : List (List Cell)) (moves : List Nat) :
      ∃ d, moveBy moves (c.query (succeeding r beyond memory)) = .ok d ∧ d.reset = c.query (succeeding r beyond memory) :=
    moveBy_reset (c := c.query (succeeding r beyond memory)) ⟨rfl, rfl, rfl⟩ r.columns_pos moves
  constructor
  · intro inStep
    by_contra wide
    exact not_inStep_of_wide some (by omega) inStep
  · intro narrow c memory beyond moves before next _ small size
    obtain ⟨d, run, reset⟩ := start c memory beyond moves
    refine ⟨d, run, ?_⟩
    rw [reset]
    have first : InPlace (succeeding r beyond memory) c 0 _ := .query r.columns_pos rows
    have place : InPlace _ c (0 + before.sum) (getNexts before _) := first.calls narrow rows (by omega)
    rw [Nat.zero_add] at place
    exact place.owes narrow next

end Cells

/-- A result set of one row of so many equal cells. -/
def oneRow (columns : Nat) (some : 0 < columns) (small : columns < 2 ^ 15) : ResultSet Nat :=
  ⟨columns, [List.replicate columns 7], by simp, some, small, by simp⟩

theorem two_columns_in_step : InStep (oneRow 2 (by decide) (by decide)) :=
  (in_step_iff (oneRow 2 (by decide) (by decide)) nofun).2 (by decide)

/-- The status entry of column 1024 is not the connector's memory: the first call does not return. -/
theorem wide_not_in_step : ¬ InStep (oneRow 1025 (by decide) (by decide)) :=
  not_inStep_of_wide (List.cons_ne_nil _ _) (by decide)

end Odbc

end SqlHandler
