import SqlHandler.Outcome
import Mathlib.Tactic.Ring

/-!
# The cursor of a connector

`SQLTypeConnector` counts columns and rows in `size_t`: sums, products and
differences are taken modulo `2 ^ 64`. A cursor runs over the cells of the result
set row by row; `left` is the number of cells it still has before it.
-/

namespace SqlHandler

/-- A value of type `size_t`. -/
def sizeT (n : Nat) : Nat := n % 2 ^ 64

theorem sizeT_of_lt {n : Nat} (h : n < 2 ^ 64) : sizeT n = n := Nat.mod_eq_of_lt h

/-- `a - b` in `size_t` -/
def sizeSub (a b : Nat) : Nat := sizeT (a + (2 ^ 64 - sizeT b))

theorem sizeSub_of_le {a b : Nat} (hb : b ≤ a) (ha : a < 2 ^ 64) : sizeSub a b = a - b := by
  unfold sizeSub
  rw [sizeT_of_lt (by omega : b < 2 ^ 64)]
  unfold sizeT
  omega

/-- The cursor of `SQLTypeConnector`. -/
structure Cursor where
  columnPosition : Nat
  rowPosition : Nat
  columns : Nat
  rows : Nat
  notEnd : Bool
  deriving DecidableEq, Repr

namespace Cursor

/-- `SQLTypeConnector::reset` -/
def reset (c : Cursor) : Cursor :=
  { c with rowPosition := 0, columnPosition := 0, notEnd := !(c.rows == 0 && c.columns == 0) }

/-- `SQLTypeConnector::setRow` -/
def setRow (c : Cursor) (increment : Nat) : Nat × Cursor :=
  let sum := sizeT (c.rowPosition + increment)
  if sum < c.rows then (increment, { c with rowPosition := sum })
  else (c.rows, { c with rowPosition := c.rows, columnPosition := c.columns, notEnd := false })

/-- `SQLTypeConnector::setNext` from `sum` on. -/
def setColumn (c : Cursor) (rows increment : Nat) : Nat × Cursor :=
  let sum := sizeT (c.columnPosition + increment)
  if sum < c.columns then (rows, { c with columnPosition := sum })
  else
    let next := c.setRow 1
    if next.1 = next.2.rows then (next.2.rows, next.2)
    else (sizeT (rows + 1), { next.2 with columnPosition := sizeSub sum next.2.columns })

/-- `SQLTypeConnector::setNext`. An increment beyond a row divides by the number of columns. -/
def setNext (c : Cursor) (increment : Nat) : Except Fault (Nat × Cursor) :=
  if increment > c.columns then
    if c.columns = 0 then .error .undefined
    else
      let (rows, c) := c.setRow (increment / c.columns)
      .ok (c.setColumn rows (sizeSub increment (sizeT (c.columns * rows))))
  else .ok (c.setColumn 0 increment)

/-- `setNext` throws nothing; it can only divide by zero. -/
theorem setNext_error {c : Cursor} {k : Nat} {fault : Fault} (h : c.setNext k = .error fault) :
    fault = .undefined := by
  unfold setNext at h
  split at h
  · split at h
    · cases h
      rfl
    · cases h
  · cases h

theorem setRow_frame (c : Cursor) (k : Nat) :
    (c.setRow k).2.rows = c.rows ∧ (c.setRow k).2.columns = c.columns := by
  unfold setRow
  by_cases inside : sizeT (c.rowPosition + k) < c.rows
  · simp only [if_pos inside, and_self]
  · simp only [if_neg inside, and_self]

theorem setColumn_frame (c : Cursor) (rows k : Nat) :
    (c.setColumn rows k).2.rows = c.rows ∧ (c.setColumn rows k).2.columns = c.columns := by
  have frame := setRow_frame c 1
  unfold setColumn
  by_cases same : sizeT (c.columnPosition + k) < c.columns
  · simp only [if_pos same, and_self]
  · simp only [if_neg same]
    by_cases stop : (c.setRow 1).1 = (c.setRow 1).2.rows
    · simp only [if_pos stop]
      exact frame
    · simp only [if_neg stop]
      exact frame

/-- `setNext` moves the cursor over the same result set. -/
theorem setNext_sized {c : Cursor} {k : Nat} {r : Nat × Cursor} (next : c.setNext k = .ok r) :
    r.2.rows = c.rows ∧ r.2.columns = c.columns := by
  unfold setNext at next
  split at next
  · split at next
    · cases next
    · have first := setRow_frame c (k / c.columns)
      have second := setColumn_frame (c.setRow (k / c.columns)).2 (c.setRow (k / c.columns)).1
        (sizeSub k (sizeT ((c.setRow (k / c.columns)).2.columns * (c.setRow (k / c.columns)).1)))
      cases next
      exact ⟨second.1.trans first.1, second.2.trans first.2⟩
  · cases next
    exact setColumn_frame c 0 k

/-- With a column to divide by, `setNext` is defined. -/
theorem setNext_frame {c : Cursor} (some : 0 < c.columns) {k : Nat} :
    ∃ n c', c.setNext k = .ok (n, c') ∧ c'.rows = c.rows ∧ c'.columns = c.columns := by
  cases next : c.setNext k with
  | ok r => exact ⟨r.1, r.2, rfl, setNext_sized next⟩
  | error fault =>
    unfold setNext at next
    split at next
    · rw [if_neg (by omega)] at next
      cases next
    · cases next

/-- What a result set counted in `size_t` promises, and where a cursor that is not at the end stands. -/
structure Fits (c : Cursor) : Prop where
  rows_lt : c.rows < 2 ^ 64
  columns_lt : c.columns < 2 ^ 64
  column_lt : c.notEnd = true → c.columnPosition < c.columns
  row_lt : c.notEnd = true → c.rowPosition < max c.rows 1

/-- The cells from the cursor on; an empty result set counts as one row. -/
def left (c : Cursor) : Nat :=
  if c.notEnd then max c.rows 1 * c.columns - (c.rowPosition * c.columns + c.columnPosition) else 0

/-- The cursor one cell further. -/
def next (c : Cursor) : Cursor :=
  if c.columnPosition + 1 < c.columns then { c with columnPosition := c.columnPosition + 1 }
  else if c.rowPosition + 1 < c.rows then { c with rowPosition := c.rowPosition + 1, columnPosition := 0 }
  else { c with rowPosition := c.rows, columnPosition := c.columns, notEnd := false }

/-- The rows the next read has to fetch. -/
def skipped (c : Cursor) : Nat :=
  if c.columnPosition + 1 < c.columns then 0
  else if c.rowPosition + 1 < c.rows then 1
  else c.rows

@[simp] theorem next_rows (c : Cursor) : c.next.rows = c.rows := by
  unfold next
  split
  · rfl
  · split <;> rfl

@[simp] theorem next_columns (c : Cursor) : c.next.columns = c.columns := by
  unfold next
  split
  · rfl
  · split <;> rfl

/-- `setNext()` moves one cell further. -/
theorem setNext_one {c : Cursor} (fits : c.Fits) (here : c.notEnd = true) :
    c.setNext 1 = .ok (c.skipped, c.next) := by
  have column := fits.column_lt here
  have row := fits.row_lt here
  have rows := fits.rows_lt
  have columns := fits.columns_lt
  have wrap : sizeT (c.columnPosition + 1) = c.columnPosition + 1 := sizeT_of_lt (by omega)
  have below : ¬ 1 > c.columns := by omega
  unfold setNext
  rw [if_neg below]
  unfold setColumn
  simp only [wrap]
  unfold next skipped
  by_cases same : c.columnPosition + 1 < c.columns
  · simp only [if_pos same]
  · simp only [if_neg same]
    have full : c.columnPosition + 1 = c.columns := by omega
    unfold setRow
    by_cases more : c.rowPosition + 1 < c.rows
    · have wrapRow : sizeT (c.rowPosition + 1) = c.rowPosition + 1 := sizeT_of_lt (by omega)
      have one : ¬ 1 = c.rows := by omega
      have start : sizeSub (c.columnPosition + 1) c.columns = 0 := by
        rw [sizeSub_of_le (by omega) (by omega)]
        omega
      simp only [wrapRow, if_pos more, if_neg one, start]
      rfl
    · have past : ¬ sizeT (c.rowPosition + 1) < c.rows := by
        unfold sizeT
        omega
      simp only [if_neg past, if_neg more, if_true]

theorem next_fits {c : Cursor} (fits : c.Fits) (here : c.notEnd = true) : c.next.Fits := by
  have column := fits.column_lt here
  have row := fits.row_lt here
  unfold next
  split
  · exact ⟨fits.rows_lt, fits.columns_lt, fun _ => by simpa, fun _ => row⟩
  · split
    · exact ⟨fits.rows_lt, fits.columns_lt, fun _ => by simp only; omega, fun _ => by simp only; omega⟩
    · exact ⟨fits.rows_lt, fits.columns_lt, nofun, nofun⟩

/-- A cursor that is not at the end has a cell before it, and a step takes one away. -/
theorem next_left {c : Cursor} (fits : c.Fits) (here : c.notEnd = true) : c.left = c.next.left + 1 := by
  have column := fits.column_lt here
  have row := fits.row_lt here
  have fills : (c.rowPosition + 1) * c.columns ≤ max c.rows 1 * c.columns := Nat.mul_le_mul_right _ row
  have unfolded : (c.rowPosition + 1) * c.columns = c.rowPosition * c.columns + c.columns := Nat.succ_mul ..
  unfold next left
  simp only [here, if_true]
  by_cases same : c.columnPosition + 1 < c.columns
  · simp only [if_pos same, if_true]
    omega
  · simp only [if_neg same]
    by_cases more : c.rowPosition + 1 < c.rows
    · have further : (c.rowPosition + 2) * c.columns ≤ max c.rows 1 * c.columns :=
        Nat.mul_le_mul_right _ (by omega)
      have unfolded' : (c.rowPosition + 2) * c.columns = c.rowPosition * c.columns + 2 * c.columns := by ring
      simp only [if_pos more, if_true]
      omega
    · have last : max c.rows 1 = c.rowPosition + 1 := by omega
      simp only [if_neg more, Bool.false_eq_true, if_false]
      rw [last]
      omega

/-- At the end no cell is left. -/
theorem left_end {c : Cursor} (h : c.notEnd = false) : c.left = 0 := by
  unfold left
  rw [h]
  rfl

theorem reset_fits {c : Cursor} (rows : c.rows < 2 ^ 64) (columns : c.columns < 2 ^ 64)
    (some : 0 < c.columns) : c.reset.Fits := by
  refine ⟨rows, columns, fun _ => some, fun _ => ?_⟩
  show 0 < max c.rows 1
  omega

theorem reset_notEnd {c : Cursor} (some : 0 < c.columns) : c.reset.notEnd = true := by
  have ne : (c.columns == 0) = false := by
    rw [beq_eq_false_iff_ne]
    omega
  show (!(c.rows == 0 && c.columns == 0)) = true
  rw [ne, Bool.and_false]
  rfl

/-- A cursor with all the cells of the result set before it has not moved. -/
theorem reset_eq_of_left {c : Cursor} (fits : c.Fits) (some : 0 < c.columns) (all : c.reset.left = c.left) : c.reset = c := by
  have start : c.reset.left = max c.rows 1 * c.columns := by
    unfold left
    rw [reset_notEnd some, if_pos rfl]
    change max c.rows 1 * c.columns - (0 * c.columns + 0) = _
    omega
  have cells : 0 < max c.rows 1 * c.columns := Nat.mul_pos (by omega) some
  cases here : c.notEnd with
  | false =>
    rw [left_end here] at all
    omega
  | true =>
    have column := fits.column_lt here
    have row := fits.row_lt here
    have inside : (c.rowPosition + 1) * c.columns ≤ max c.rows 1 * c.columns := Nat.mul_le_mul_right _ row
    rw [Nat.succ_mul] at inside
    unfold left at all
    rw [reset_notEnd some, if_pos rfl, here, if_pos rfl] at all
    change max c.rows 1 * c.columns - (0 * c.columns + 0) = _ at all
    have none' : c.rowPosition * c.columns + c.columnPosition = 0 := by omega
    have row_zero : c.rowPosition = 0 := by
      rcases Nat.mul_eq_zero.1 (show c.rowPosition * c.columns = 0 by omega) with zero | zero
      · exact zero
      · omega
    have column_zero : c.columnPosition = 0 := by omega
    have goes := reset_notEnd some
    obtain ⟨column', row', columns, rows, notEnd⟩ := c
    dsimp only at row_zero column_zero here
    subst row_zero column_zero here
    unfold reset at goes ⊢
    dsimp only at goes ⊢
    rw [goes]

/-! ## Any increment -/

/-- The rows behind a row that a call skips: inside the result set they are the rows the position moves. -/
theorem setRow_inside {c : Cursor} {k : Nat} (inside : sizeT (c.rowPosition + k) < c.rows)
    (unwrapped : c.rowPosition + k < 2 ^ 64) :
    c.setRow k = (k, { c with rowPosition := c.rowPosition + k }) := by
  unfold setRow
  rw [if_pos inside, sizeT_of_lt unwrapped]

theorem setColumn_notEnd {c : Cursor} (h : c.notEnd = false) (rows k : Nat) : (c.setColumn rows k).2.notEnd = false := by
  unfold setColumn setRow
  dsimp only
  split
  · exact h
  · split <;> split <;> first | exact h | rfl

/-- The cursor at the end. -/
def ended (c : Cursor) : Cursor := { c with rowPosition := c.rows, columnPosition := c.columns, notEnd := false }

theorem setRow_past {c : Cursor} {k : Nat} (past : c.rows ≤ sizeT (c.rowPosition + k)) : c.setRow k = (c.rows, c.ended) := by
  unfold setRow
  rw [if_neg (Nat.not_lt.2 past)]
  rfl

theorem setColumn_same {c : Cursor} {rows k : Nat} (same : sizeT (c.columnPosition + k) < c.columns) :
    c.setColumn rows k = (rows, { c with columnPosition := sizeT (c.columnPosition + k) }) := by
  unfold setColumn
  simp only [if_pos same]

theorem setColumn_turn {c : Cursor} {rows k : Nat} (full : c.columns ≤ sizeT (c.columnPosition + k))
    (more : sizeT (c.rowPosition + 1) < c.rows) (two : c.rows ≠ 1) :
    c.setColumn rows k = (sizeT (rows + 1), { c with
      rowPosition := sizeT (c.rowPosition + 1), columnPosition := sizeSub (sizeT (c.columnPosition + k)) c.columns }) := by
  have turn : c.setRow 1 = (1, { c with rowPosition := sizeT (c.rowPosition + 1) }) := by
    unfold setRow
    rw [if_pos more]
  unfold setColumn
  simp only [if_neg (Nat.not_lt.2 full), turn]
  rw [if_neg (show ¬ 1 = c.rows from fun one => two one.symm)]

theorem setColumn_ends {c : Cursor} {rows k : Nat} (full : c.columns ≤ sizeT (c.columnPosition + k))
    (last : c.rows ≤ sizeT (c.rowPosition + 1)) : c.setColumn rows k = (c.rows, c.ended) := by
  unfold setColumn
  simp only [if_neg (Nat.not_lt.2 full), setRow_past last]
  exact if_pos rfl

/-- From a row inside the result set `setColumn` stays on it or goes to the next one. -/
theorem setColumn_moves {c : Cursor} {k : Nat} (rows : Nat) (fits : c.Fits) (here : c.notEnd = true) (short : k ≤ c.columns)
    (columns_lt : c.columns < 2 ^ 63) : (c.setColumn rows k).2.Fits ∧
      (rows ≤ c.rowPosition → (c.setColumn rows k).2.notEnd = true →
        (c.setColumn rows k).2.rowPosition + rows = c.rowPosition + (c.setColumn rows k).1) := by
  have column := fits.column_lt here
  have row := fits.row_lt here
  have count := fits.rows_lt
  have wrap : sizeT (c.columnPosition + k) = c.columnPosition + k := sizeT_of_lt (by omega)
  by_cases same : c.columnPosition + k < c.columns
  · rw [setColumn_same (by rw [wrap]; exact same), wrap]
    exact ⟨⟨count, fits.columns_lt, fun _ => same, fun _ => row⟩, fun _ _ => rfl⟩
  · by_cases more : sizeT (c.rowPosition + 1) < c.rows
    · have next : sizeT (c.rowPosition + 1) = c.rowPosition + 1 := sizeT_of_lt (by omega)
      rw [setColumn_turn (by rw [wrap]; omega) more (by omega), wrap, sizeSub_of_le (by omega) (by omega)]
      rw [next] at more ⊢
      refine ⟨⟨count, fits.columns_lt, fun _ => ?_, fun _ => ?_⟩, fun rows_le _ => ?_⟩
      · change c.columnPosition + k - c.columns < c.columns
        omega
      · change c.rowPosition + 1 < max c.rows 1
        omega
      · change c.rowPosition + 1 + rows = c.rowPosition + sizeT (rows + 1)
        rw [sizeT_of_lt (by omega)]
        omega
    · rw [setColumn_ends (by rw [wrap]; omega) (by omega)]
      exact ⟨⟨count, fits.columns_lt, nofun, nofun⟩, fun _ => nofun⟩

/-- Whatever the increment, the row moves by the rows the call answers, or the end is reached. -/
theorem setNext_moves {c : Cursor} {k : Nat} (fits : c.Fits) (here : c.notEnd = true) (columns_lt : c.columns < 2 ^ 63)
    (size : k < 2 ^ 64) (unwrapped : c.rowPosition + k / c.columns < 2 ^ 64) :
    ∃ rows c', c.setNext k = .ok (rows, c') ∧ c'.Fits ∧ c'.rows = c.rows ∧ c'.columns = c.columns ∧
      (c'.notEnd = true → c'.rowPosition = c.rowPosition + rows) := by
  have column := fits.column_lt here
  unfold setNext
  by_cases far : k > c.columns
  · rw [if_pos far, if_neg (show ¬ c.columns = 0 by omega)]
    by_cases inside : sizeT (c.rowPosition + k / c.columns) < c.rows
    · rw [setRow_inside inside unwrapped]
      rw [sizeT_of_lt unwrapped] at inside
      have product : c.columns * (k / c.columns) + k % c.columns = k := Nat.div_add_mod k c.columns
      have rest : sizeSub k (sizeT (c.columns * (k / c.columns))) = k % c.columns := by
        rw [sizeT_of_lt (by omega), sizeSub_of_le (by omega) size]
        omega
      have short : k % c.columns < c.columns := Nat.mod_lt _ (by omega)
      have there : Fits { c with rowPosition := c.rowPosition + k / c.columns } :=
        ⟨fits.rows_lt, fits.columns_lt, fits.column_lt, fun _ => by
          change c.rowPosition + k / c.columns < max c.rows 1
          omega⟩
      dsimp only
      rw [rest]
      have frame := setColumn_frame { c with rowPosition := c.rowPosition + k / c.columns } (k / c.columns) (k % c.columns)
      obtain ⟨fits', moved⟩ := setColumn_moves (k / c.columns) there here (Nat.le_of_lt short) columns_lt
      generalize setColumn { c with rowPosition := c.rowPosition + k / c.columns } (k / c.columns) (k % c.columns) = res
        at frame fits' moved ⊢
      obtain ⟨rows, c'⟩ := res
      refine ⟨rows, c', rfl, fits', frame.1, frame.2, fun still => ?_⟩
      have here' := moved (by dsimp only; omega) still
      dsimp only at here'
      omega
    · have ends : c.setRow (k / c.columns) =
          (c.rows, { c with rowPosition := c.rows, columnPosition := c.columns, notEnd := false }) := by
        unfold setRow
        rw [if_neg inside]
      rw [ends]
      dsimp only
      generalize sizeSub k (sizeT (c.columns * c.rows)) = rest
      have frame := setColumn_frame
        { c with rowPosition := c.rows, columnPosition := c.columns, notEnd := false } c.rows rest
      have stops := setColumn_notEnd
        (c := { c with rowPosition := c.rows, columnPosition := c.columns, notEnd := false }) rfl c.rows rest
      generalize setColumn { c with rowPosition := c.rows, columnPosition := c.columns, notEnd := false } c.rows rest = res
        at frame stops ⊢
      obtain ⟨rows, c'⟩ := res
      dsimp only at frame stops
      refine ⟨rows, c', rfl, ⟨?_, ?_, ?_, ?_⟩, frame.1, frame.2, ?_⟩
      · rw [frame.1]
        exact fits.rows_lt
      · rw [frame.2]
        exact fits.columns_lt
      all_goals
        intro still
        rw [stops] at still
        cases still
  · rw [if_neg far]
    have frame := setColumn_frame c 0 k
    obtain ⟨fits', moved⟩ := setColumn_moves 0 fits here (show k ≤ c.columns by omega) columns_lt
    generalize c.setColumn 0 k = res at frame fits' moved ⊢
    obtain ⟨rows, c'⟩ := res
    exact ⟨rows, c', rfl, fits', frame.1, frame.2, moved (Nat.zero_le _)⟩

end Cursor

end SqlHandler
