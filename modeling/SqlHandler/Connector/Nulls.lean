import SqlHandler.Connector.Fetches

/-!
# Are NULL cells local?

`fetch` writes the substitute of a NULL cell over the entry of its column in `d_buf`, and
nothing puts the bound memory back. A NULL stays for all the rows behind it, and what is
returned for it cannot be read (`nulls_local_iff`).
-/

namespace SqlHandler
open Posix

namespace ResultSet
variable {Cell : Type}

/-- The driver delivers a result set with NULL cells. -/
def nullable (r : ResultSet (Option Cell)) (memory : Nat → Cell) : Odbc.Answer Cell where
  count := r.rows.length
  columns := r.columns
  results := r.rows.map .row
  memory := memory
  count_lt := r.rows_lt
  columns_lt := r.columns_lt

/-- The cell of a row and a column. -/
def cellAt (r : ResultSet Cell) (row column : Nat) : Option Cell := (r.rows[row]?).bind (·[column]?)

end ResultSet

namespace Odbc
variable {Cell : Type}

/-- What a call owes on a cell: its value, or the substitute if it is NULL, in memory that can be read. -/
def Local (substitute : Cell) (cell : Option Cell) (next : Nat) (c : Odbc Cell) : Prop :=
  ∃ p c', getNext next c = .ok p c' ∧ deref p c' = .ok (cell.getD substitute) c'

/-- A row sets the status of each of its columns. -/
theorem statusAfter_rows {column : Nat} {rows : List (List (Option Cell))} {row : List (Option Cell)} {cell : Option Cell}
    {n : Nat} (last : rows[n]? = some row) (entry : row[column]? = some cell) (status : Bool) :
    statusAfter column status ((rows.map Fetched.row).take (n + 1)) = cell.isNone := by
  induction rows generalizing n status with
  | nil => cases last
  | cons first rows ih =>
    cases n with
    | zero =>
      obtain rfl : first = row := Option.some.inj last
      change (first[column]?).elim status Option.isNone = _
      rw [entry]
      rfl
    | succ n => exact ih last _

section Run
variable {r : ResultSet (Option Cell)} {memory : Nat → Cell} {c₀ c : Odbc Cell}

/-- No status in a column says NULL if there is no NULL cell in it. -/
theorem plain_iff {row column : Nat} (row_lt : row < r.rows.length) (column_lt : column < r.columns) (status : Bool) :
    (∀ j < row + 1, statusAfter column status ((r.nullable memory).results.take (j + 1)) = false) ↔
      ∀ j ≤ row, r.cellAt j column ≠ some none := by
  have entry {j : Nat} (le : j ≤ row) : ∃ cell, r.cellAt j column = some cell ∧
      statusAfter column status ((r.nullable memory).results.take (j + 1)) = cell.isNone := by
    have lt : j < r.rows.length := by omega
    have found : r.rows[j]? = some r.rows[j] := List.getElem?_eq_getElem lt
    have width : r.rows[j].length = r.columns := r.width _ (List.getElem_mem lt)
    have cell := List.getElem?_eq_getElem (l := r.rows[j]) (i := column) (by omega)
    refine ⟨_, ?_, statusAfter_rows found cell status⟩
    unfold ResultSet.cellAt
    rw [found]
    exact cell
  constructor
  · intro plain j le null
    obtain ⟨cell, at', same⟩ := entry le
    obtain rfl : cell = none := Option.some.inj (at'.symm.trans null)
    rw [plain j (by omega)] at same
    cases same
  · intro value j lt
    obtain ⟨cell, at', same⟩ := entry (show j ≤ row by omega)
    rw [same]
    cases cell with
    | some v => rfl
    | none => exact absurd at' (value j (by omega))

/-- A call on a cell returns the memory bound to its column, which holds the cell, unless a NULL has come
there, or `d_status` does not hold the columns. -/
theorem Run.cell (run : Run (r.nullable memory) c₀ c) (here : c.cursor.notEnd = true) {cell : Option Cell}
    (at' : r.cellAt c.cursor.rowPosition c.cursor.columnPosition = some cell) (next : Nat) :
    ((r.columns ≤ bufSize ∧ ∀ i ≤ c.cursor.rowPosition, r.cellAt i c.cursor.columnPosition ≠ some none) ∧
      ∃ v c', cell = some v ∧ getNext next c = .ok (.bound c.cursor.columnPosition) c' ∧
        c'.memory c.cursor.columnPosition = v) ∨
    (¬ (r.columns ≤ bufSize ∧ ∀ i ≤ c.cursor.rowPosition, r.cellAt i c.cursor.columnPosition ≠ some none) ∧
      ((∃ c', getNext next c = .error .undefined c') ∨ ∃ c', getNext next c = .ok (.address '0'.toNat) c')) := by
  obtain ⟨row, found, entry⟩ := Option.bind_eq_some_iff.1 at'
  have row_lt : c.cursor.rowPosition < r.rows.length := (List.getElem?_eq_some_iff.1 found).1
  have column_lt : c.cursor.columnPosition < r.columns := by
    rw [← r.width row (List.mem_of_getElem? found)]
    exact (List.getElem?_eq_some_iff.1 entry).1
  by_cases narrow : r.columns ≤ bufSize
  · obtain ⟨p, c', returned, kinds, bound, stands⟩ := run.returns here r.columns_pos narrow next
    rw [plain_iff row_lt column_lt] at bound
    rcases kinds with rfl | rfl
    · have plain := bound.1 rfl
      cases cell with
      | none => exact absurd at' (plain _ (Nat.le_refl _))
      | some v =>
        have results : (r.nullable memory).results[c.cursor.rowPosition]? = some (.row row) := by
          change (r.rows.map Fetched.row)[c.cursor.rowPosition]? = _
          rw [List.getElem?_map, found]
          rfl
        exact .inl ⟨⟨narrow, plain⟩, v, c', rfl, returned, stands row v results entry⟩
    · exact .inr ⟨fun holds => Pointer.noConfusion (bound.2 holds.2), .inr ⟨c', returned⟩⟩
  · exact .inr ⟨fun holds => narrow holds.1, .inl (run.wide here r.columns_pos (Nat.lt_of_not_le narrow) next)⟩

/-- In every run, a call on a cell gives what it owes exactly if no NULL has come in the column up to
that row, and `d_status` holds the columns. Which cells are NULL is left open, and so is
what should be read in place of one. -/
theorem nulls_local_iff (run : Run (r.nullable memory) c₀ c) (here : c.cursor.notEnd = true) {cell : Option Cell}
    (at' : r.cellAt c.cursor.rowPosition c.cursor.columnPosition = some cell) (substitute : Cell) (next : Nat) :
    Local substitute cell next c ↔
      r.columns ≤ bufSize ∧ ∀ i ≤ c.cursor.rowPosition, r.cellAt i c.cursor.columnPosition ≠ some none := by
  rcases run.cell here at' next with ⟨holds, v, c', rfl, returned, stands⟩ | ⟨fails, ⟨c', crash⟩ | ⟨c', returned⟩⟩
  · refine iff_of_true ⟨_, c', returned, ?_⟩ holds
    change EStateM.Result.ok (c'.memory c.cursor.columnPosition) c' = .ok v c'
    rw [stands]
  · refine iff_of_false ?_ fails
    rintro ⟨p, d, again, -⟩
    rw [crash] at again
    cases again
  · refine iff_of_false ?_ fails
    rintro ⟨p, d, again, read⟩
    rw [returned] at again
    cases again
    cases read

end Run

/-- One column of two rows, the first cell NULL or not. -/
def column (first : Option Nat) : ResultSet (Option Nat) :=
  ⟨1, [[first], [some 8]], by simp, Nat.one_pos, one_column, by simp⟩

theorem first_cell_local : Local 0 (some 7) 1 (connector.query ((column (some 7)).nullable fun _ => 0)) := by
  have start : Run ((column (some 7)).nullable fun _ => 0) connector _ := .query
  refine (nulls_local_iff start rfl rfl 0 1).2 ⟨by decide, fun i le => ?_⟩
  obtain rfl : i = 0 := Nat.le_zero.1 le
  exact nofun

/-- Behind a NULL cell the cell of the next row is not returned: the pointer is the number of the
character `0`, as it is for the NULL cell itself. -/
theorem null_stays :
    ∃ c, Run ((column none).nullable fun _ => 0) connector c ∧ c.cursor = ⟨0, 1, 1, 2, true⟩ ∧
      (column none).cellAt 1 0 = some (some 8) ∧ (∃ c', getNext 1 c = .ok (.address 48) c') ∧
      (∀ substitute, ¬ Local substitute (some 8) 1 c) ∧
      ∀ substitute, ¬ Local substitute none 1 (connector.query ((column none).nullable fun _ => 0)) := by
  have start : Run ((column none).nullable fun _ => 0) connector _ := .query
  refine ⟨_, .call start (show 1 < 2 ^ 64 by decide) (by decide) rfl, rfl, rfl, ⟨_, rfl⟩, ?_, ?_⟩
  all_goals
    rintro substitute ⟨p, c', returned, read⟩
    cases returned
    cases read

end Odbc

end SqlHandler
