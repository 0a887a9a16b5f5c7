import SqlHandler.Connector.Odbc

/-!
# Is the cursor linear?

A cursor at `(row, column)` is `row * columns + column` cells behind the first. `setNext`
splits an increment into whole rows and a rest, and goes on with the rest after `setRow`
has ended the result set. It is linear where `StepFits` holds (`linear_iff`).
-/

namespace SqlHandler

namespace Cursor

/-- The cells before the cursor once it has moved by `k`. -/
def cell (c : Cursor) (k : Nat) : Nat := c.rowPosition * c.columns + c.columnPosition + k

/-- Where a linear cursor is after an increment, and the rows it answers. -/
def moved (c : Cursor) (k : Nat) : Nat × Cursor :=
  if c.cell k < c.rows * c.columns then
    (c.cell k / c.columns - c.rowPosition,
      { c with rowPosition := c.cell k / c.columns, columnPosition := c.cell k % c.columns, notEnd := true })
  else (c.rows, { c with rowPosition := c.rows, columnPosition := c.columns, notEnd := false })

/-- `setNext(k)` divides by no zero and goes where a linear cursor goes. -/
def Linear (c : Cursor) (k : Nat) : Prop := c.setNext k = .ok (c.moved k)

/-- The increments by which a cursor that is not at the end moves linearly. -/
inductive StepFits (c : Cursor) (k : Nat) : Prop where
  /-- The last row of a result set without columns, left by `setNext(0)`. -/
  | narrow (noneLeft : c.columns = 0) (stay : k = 0) (last : c.rows ≤ c.rowPosition + 1)
  | inside (inside : c.cell k < c.rows * c.columns)
  /-- The row ends, which is the last one or the one an empty result set does not have. -/
  | turn (some : 0 < c.columns) (near : k ≤ c.columns) (full : c.columns ≤ c.columnPosition + k)
  /-- The whole rows lead to the last row, the rest behind it. -/
  | rest (some : 0 < c.columns) (far : c.columns < k) (row : c.rowPosition + k / c.columns < c.rows)
  /-- The whole rows lead past the end, and the rest, taken off as if they had not,
  is not one that brings the column back under `columns`. -/
  | past (some : 0 < c.columns) (far : c.columns < k) (row : c.rowPosition + k / c.columns < 2 ^ 64)
      (count : c.rows + 1 < 2 ^ 64) (back : c.columns + sizeSub k (sizeT (c.columns * c.rows)) < 2 ^ 64)

/-- The cursors of a connector after a query, moved by any increments and reset at any time. -/
inductive Reached {Cell : Type} (a : Odbc.Answer Cell) : Cursor → Prop
  | query (c : Odbc Cell) : Reached a (c.query a).cursor
  | reset {c : Cursor} : Reached a c → Reached a c.reset
  | setNext {c c' : Cursor} {k n : Nat} : Reached a c → k < 2 ^ 64 → c.setNext k = .ok (n, c') → Reached a c'

/-! ## What the two functions do together -/

theorem sizeT_lt (n : Nat) : sizeT n < 2 ^ 64 := Nat.mod_lt _ (by decide)

theorem cell_of {c : Cursor} {k row column : Nat} (some : column < c.columns)
    (sum : row * c.columns + column = c.cell k) : c.cell k / c.columns = row ∧ c.cell k % c.columns = column := by
  refine (Nat.div_mod_unique (by omega)).2 ⟨?_, some⟩
  rw [← sum, Nat.mul_comm c.columns row]
  omega

theorem setNext_near {c : Cursor} {k : Nat} (near : k ≤ c.columns) : c.setNext k = .ok (c.setColumn 0 k) := by
  unfold setNext
  rw [if_neg (Nat.not_lt.2 near)]

/-- Whole rows that end inside the result set leave the remainder as the rest. -/
theorem setNext_inside {c : Cursor} {k : Nat} (some : 0 < c.columns) (far : c.columns < k) (size : k < 2 ^ 64)
    (inside : sizeT (c.rowPosition + k / c.columns) < c.rows) :
    c.setNext k = .ok (setColumn { c with rowPosition := sizeT (c.rowPosition + k / c.columns) }
      (k / c.columns) (k % c.columns)) := by
  have product : c.columns * (k / c.columns) + k % c.columns = k := Nat.div_add_mod k c.columns
  have rest : sizeSub k (sizeT (c.columns * (k / c.columns))) = k % c.columns := by
    rw [sizeT_of_lt (by omega), sizeSub_of_le (by omega) size]
    omega
  unfold setNext
  rw [if_pos far, if_neg (show ¬ c.columns = 0 by omega)]
  unfold setRow
  simp only [if_pos inside, rest]

/-- Whole rows that lead past the end leave a rest that is taken off all the same. -/
theorem setNext_past {c : Cursor} {k : Nat} (some : 0 < c.columns) (far : c.columns < k)
    (past : c.rows ≤ sizeT (c.rowPosition + k / c.columns)) :
    c.setNext k = .ok (c.ended.setColumn c.rows (sizeSub k (sizeT (c.columns * c.rows)))) := by
  unfold setNext
  rw [if_pos far, if_neg (show ¬ c.columns = 0 by omega), setRow_past past]
  rfl

theorem setRow_notEnd {c : Cursor} (h : c.notEnd = false) (k : Nat) : (c.setRow k).2.notEnd = false := by
  unfold setRow
  dsimp only
  split
  · exact h
  · rfl

/-- Only `reset` takes a cursor from the end. -/
theorem setNext_notEnd {c : Cursor} {k : Nat} {r : Nat × Cursor} (h : c.notEnd = false) (next : c.setNext k = .ok r) :
    r.2.notEnd = false := by
  unfold setNext at next
  split at next
  · split at next
    · cases next
    · cases next
      exact setColumn_notEnd (setRow_notEnd h _) _ _
  · cases next
    exact setColumn_notEnd h _ _

/-- Any increment leaves the cursor inside the rows and columns of the result set. -/
theorem setNext_fits {c : Cursor} {k : Nat} {r : Nat × Cursor} (fits : c.Fits) (some : 0 < c.columns)
    (columns_lt : c.columns < 2 ^ 63) (size : k < 2 ^ 64) (next : c.setNext k = .ok r) : r.2.Fits := by
  obtain ⟨n, d, same, rows, columns⟩ := setNext_frame some (k := k)
  rw [next] at same
  cases same
  have stopped (stop : d.notEnd = false) : d.Fits := by
    refine ⟨rows ▸ fits.rows_lt, columns ▸ fits.columns_lt, fun still => ?_, fun still => ?_⟩
    all_goals
      rw [stop] at still
      cases still
  cases here : c.notEnd with
  | false => exact stopped (setNext_notEnd here next)
  | true =>
    by_cases near : k ≤ c.columns
    · have stays := (setColumn_moves 0 fits here near columns_lt).1
      rw [setNext_near near] at next
      rw [Except.ok.inj next] at stays
      exact stays
    · by_cases inside : sizeT (c.rowPosition + k / c.columns) < c.rows
      · have there : Fits { c with rowPosition := sizeT (c.rowPosition + k / c.columns) } :=
          ⟨fits.rows_lt, fits.columns_lt, fits.column_lt, fun _ => by
            change sizeT (c.rowPosition + k / c.columns) < max c.rows 1
            omega⟩
        have short : k % c.columns ≤ c.columns := Nat.le_of_lt (Nat.mod_lt _ some)
        have stays := (setColumn_moves (k / c.columns) there here short columns_lt).1
        rw [setNext_inside some (by omega) size inside] at next
        rw [Except.ok.inj next] at stays
        exact stays
      · have stops := setColumn_notEnd (c := c.ended) rfl c.rows (sizeSub k (sizeT (c.columns * c.rows)))
        rw [setNext_past some (by omega) (by omega)] at next
        rw [Except.ok.inj next] at stops
        exact stopped stops

/-! ## One call -/

section Step
variable {c : Cursor} {k : Nat}

/-- Inside the result set `setColumn` is linear. -/
theorem setColumn_linear {rows : Nat} (fits : c.Fits) (here : c.notEnd = true) (columns_lt : c.columns < 2 ^ 63)
    (short : k ≤ c.columns) (small : rows + 1 < 2 ^ 64) (inside : c.cell k < c.rows * c.columns) :
    c.setColumn rows k = (rows + (c.cell k / c.columns - c.rowPosition),
      { c with rowPosition := c.cell k / c.columns, columnPosition := c.cell k % c.columns }) := by
  have column := fits.column_lt here
  have count := fits.rows_lt
  have wrap : sizeT (c.columnPosition + k) = c.columnPosition + k := sizeT_of_lt (by omega)
  by_cases same : c.columnPosition + k < c.columns
  · have at' : c.cell k / c.columns = c.rowPosition ∧ c.cell k % c.columns = c.columnPosition + k :=
      cell_of same (by unfold cell; omega)
    rw [setColumn_same (by rw [wrap]; exact same), wrap, at'.1, at'.2]
    simp
  · have more : c.rowPosition + 1 < c.rows := by
      by_contra last
      have fills : c.rows * c.columns ≤ (c.rowPosition + 1) * c.columns := Nat.mul_le_mul_right _ (by omega)
      rw [Nat.succ_mul] at fills
      unfold cell at inside
      omega
    have next : sizeT (c.rowPosition + 1) = c.rowPosition + 1 := sizeT_of_lt (by omega)
    have at' : c.cell k / c.columns = c.rowPosition + 1 ∧ c.cell k % c.columns = c.columnPosition + k - c.columns := by
      apply cell_of (by omega)
      unfold cell
      rw [Nat.succ_mul]
      omega
    rw [setColumn_turn (by rw [wrap]; omega) (by omega) (by omega), wrap, next,
      sizeSub_of_le (by omega) (by omega), sizeT_of_lt small, at'.1, at'.2]
    rw [Nat.add_sub_cancel_left]

/-- At the end of the last row `setColumn` ends the result set. -/
theorem setColumn_last {rows : Nat} (fits : c.Fits) (here : c.notEnd = true) (columns_lt : c.columns < 2 ^ 63)
    (short : k ≤ c.columns) (full : c.columns ≤ c.columnPosition + k) (outside : c.rows * c.columns ≤ c.cell k) :
    c.setColumn rows k = (c.rows, c.ended) := by
  have column := fits.column_lt here
  have row := fits.row_lt here
  have count := fits.rows_lt
  have last : c.rows ≤ c.rowPosition + 1 := by
    by_contra more
    have fills : (c.rowPosition + 2) * c.columns ≤ c.rows * c.columns := Nat.mul_le_mul_right _ (by omega)
    rw [Nat.add_mul] at fills
    unfold cell at outside
    omega
  apply setColumn_ends
  · rw [sizeT_of_lt (by omega)]
    exact full
  · rw [sizeT_of_lt (by omega)]
    exact last

theorem moved_inside (inside : c.cell k < c.rows * c.columns) : c.moved k = (c.cell k / c.columns - c.rowPosition,
    { c with rowPosition := c.cell k / c.columns, columnPosition := c.cell k % c.columns, notEnd := true }) := by
  unfold moved
  rw [if_pos inside]

theorem moved_outside (outside : c.rows * c.columns ≤ c.cell k) : c.moved k = (c.rows, c.ended) := by
  unfold moved
  rw [if_neg (Nat.not_lt.2 outside)]
  rfl

/-- A call behind the last cell is linear only if it reaches the end. -/
theorem Linear.ends (linear : c.Linear k) (outside : c.rows * c.columns ≤ c.cell k) :
    c.setNext k = .ok (c.rows, c.ended) := by
  rw [← moved_outside outside]
  exact linear

theorem cell_rest (c : Cursor) (k : Nat) :
    cell { c with rowPosition := c.rowPosition + k / c.columns } (k % c.columns) = c.cell k := by
  have product : c.columns * (k / c.columns) + k % c.columns = k := Nat.div_add_mod k c.columns
  unfold cell
  dsimp only
  rw [Nat.add_mul, Nat.mul_comm (k / c.columns)]
  omega

theorem Fits.skip (fits : c.Fits) {rows : Nat} (row : c.rowPosition + rows < c.rows) :
    Fits { c with rowPosition := c.rowPosition + rows } :=
  ⟨fits.rows_lt, fits.columns_lt, fits.column_lt, fun _ => by
    change c.rowPosition + rows < max c.rows 1
    omega⟩

/-- An increment of more than a row, whose whole rows stay inside. -/
theorem setNext_rest (fits : c.Fits) (some : 0 < c.columns) (far : c.columns < k) (size : k < 2 ^ 64)
    (row : c.rowPosition + k / c.columns < c.rows) :
    c.setNext k = .ok (setColumn { c with rowPosition := c.rowPosition + k / c.columns } (k / c.columns) (k % c.columns)) := by
  have count := fits.rows_lt
  have unwrapped : sizeT (c.rowPosition + k / c.columns) = c.rowPosition + k / c.columns := sizeT_of_lt (by omega)
  rw [setNext_inside some far size (by rw [unwrapped]; exact row), unwrapped]

theorem linear_of_inside (fits : c.Fits) (here : c.notEnd = true) (columns_lt : c.columns < 2 ^ 63) (size : k < 2 ^ 64)
    (inside : c.cell k < c.rows * c.columns) : c.Linear k := by
  have column := fits.column_lt here
  have count := fits.rows_lt
  unfold Linear
  rw [moved_inside inside, ← here]
  by_cases near : k ≤ c.columns
  · rw [setNext_near near, setColumn_linear fits here columns_lt near (by decide) inside, Nat.zero_add]
  · have below : c.rowPosition + k / c.columns < c.rows := by
      by_contra past
      have fills : c.rows * c.columns ≤ (c.rowPosition + k / c.columns) * c.columns := Nat.mul_le_mul_right _ (by omega)
      rw [← cell_rest] at inside
      unfold cell at inside
      dsimp only at inside
      omega
    have short : k % c.columns ≤ c.columns := Nat.le_of_lt (Nat.mod_lt _ (by omega))
    rw [setNext_rest fits (by omega) (by omega) size below, setColumn_linear (fits.skip below) here columns_lt short (by omega)
      (by rw [cell_rest]; exact inside), cell_rest]
    have rows : c.rowPosition + k / c.columns ≤ c.cell k / c.columns := by
      rw [Nat.le_div_iff_mul_le (by omega), ← cell_rest]
      unfold cell
      dsimp only
      omega
    dsimp only
    rw [Nat.sub_add_eq, Nat.add_comm, Nat.sub_add_cancel (by omega)]

/-- Before the last row `setColumn` does not end the result set. -/
theorem setColumn_goes {rows : Nat} (here : c.notEnd = true) (more : sizeT (c.rowPosition + 1) < c.rows) (two : c.rows ≠ 1) :
    (c.setColumn rows k).2.notEnd = true := by
  by_cases same : sizeT (c.columnPosition + k) < c.columns
  · rw [setColumn_same same]
    exact here
  · rw [setColumn_turn (by omega) more two]
    exact here

/-- Behind the end `setColumn` stays there unless its sums wrap. -/
theorem setColumn_ended_iff {rest : Nat} (rest_lt : rest < 2 ^ 64) (rows_lt : c.rows < 2 ^ 64) (columns_lt : c.columns < 2 ^ 64) :
    c.ended.setColumn c.rows rest = (c.rows, c.ended) ↔ c.rows + 1 < 2 ^ 64 ∧ c.columns + rest < 2 ^ 64 := by
  constructor
  · intro ends
    have column : (c.ended.setColumn c.rows rest).2.columnPosition = c.columns := by rw [ends]; rfl
    have row : (c.ended.setColumn c.rows rest).2.rowPosition = c.rows := by rw [ends]; rfl
    have full : c.ended.columns ≤ sizeT (c.ended.columnPosition + rest) := by
      by_contra same
      rw [setColumn_same (by omega)] at column
      change sizeT (c.columns + rest) = c.columns at column
      change ¬ c.columns ≤ sizeT (c.columns + rest) at same
      omega
    constructor
    · by_contra wrap
      have zero : sizeT (c.rows + 1) = 0 := by unfold sizeT; omega
      rw [setColumn_turn full (show sizeT (c.rows + 1) < c.rows by omega) (show c.rows ≠ 1 by omega)] at row
      change sizeT (c.rows + 1) = c.rows at row
      omega
    · by_contra wrap
      change c.columns ≤ sizeT (c.columns + rest) at full
      unfold sizeT at full
      omega
  · rintro ⟨count, back⟩
    apply setColumn_ends
    · change c.columns ≤ sizeT (c.columns + rest)
      rw [sizeT_of_lt back]
      omega
    · change c.rows ≤ sizeT (c.rows + 1)
      rw [sizeT_of_lt count]
      omega

theorem linear_of_rest (fits : c.Fits) (here : c.notEnd = true) (columns_lt : c.columns < 2 ^ 63) (size : k < 2 ^ 64)
    (some : 0 < c.columns) (far : c.columns < k) (row : c.rowPosition + k / c.columns < c.rows)
    (outside : c.rows * c.columns ≤ c.cell k) : c.Linear k := by
  have short : k % c.columns < c.columns := Nat.mod_lt _ some
  have full : c.columns ≤ c.columnPosition + k % c.columns := by
    have fills : (c.rowPosition + k / c.columns + 1) * c.columns ≤ c.rows * c.columns := Nat.mul_le_mul_right _ row
    rw [← cell_rest, cell] at outside
    dsimp only at outside
    rw [Nat.succ_mul] at fills
    omega
  unfold Linear
  rw [moved_outside outside, setNext_rest fits some far size row,
    setColumn_last (fits.skip row) here columns_lt (Nat.le_of_lt short) full (by rw [cell_rest]; exact outside)]
  rfl

/-- With columns, a call that leaves the result set is linear where the rest does no harm. -/
theorem linear_outside_iff (fits : c.Fits) (here : c.notEnd = true) (columns_lt : c.columns < 2 ^ 63) (size : k < 2 ^ 64)
    (outside : c.rows * c.columns ≤ c.cell k) : c.Linear k ↔ c.StepFits k := by
  have column := fits.column_lt here
  have row := fits.row_lt here
  have count := fits.rows_lt
  constructor
  · intro linear
    have ends := linear.ends outside
    by_cases near : k ≤ c.columns
    · refine .turn (by omega) near ?_
      by_contra same
      have wrap : sizeT (c.columnPosition + k) = c.columnPosition + k := sizeT_of_lt (by omega)
      rw [setNext_near near, setColumn_same (by omega)] at ends
      have stops := congrArg Cursor.notEnd (Prod.mk.inj (Except.ok.inj ends)).2
      rw [show c.ended.notEnd = false from rfl] at stops
      rw [here] at stops
      cases stops
    · by_cases below : c.rowPosition + k / c.columns < c.rows
      · exact .rest (by omega) (by omega) below
      by_cases unwrapped : c.rowPosition + k / c.columns < 2 ^ 64
      · rw [setNext_past (by omega) (by omega) (by rw [sizeT_of_lt unwrapped]; omega)] at ends
        have sums := (setColumn_ended_iff (sizeT_lt _) count fits.columns_lt).1 (Except.ok.inj ends)
        exact .past (by omega) (by omega) unwrapped sums.1 sums.2
      · have quotient : k / c.columns ≤ k := Nat.div_le_self ..
        have wraps : sizeT (c.rowPosition + k / c.columns) < c.rowPosition := by
          unfold sizeT
          omega
        rw [setNext_inside (by omega) (by omega) size (by omega)] at ends
        have next : sizeT (sizeT (c.rowPosition + k / c.columns) + 1) < c.rows := by
          rw [sizeT_of_lt (show sizeT (c.rowPosition + k / c.columns) + 1 < 2 ^ 64 by omega)]
          omega
        have goes : (setColumn { c with rowPosition := sizeT (c.rowPosition + k / c.columns) }
            (k / c.columns) (k % c.columns)).2.notEnd = true := setColumn_goes here next (by dsimp only; omega)
        rw [Except.ok.inj ends] at goes
        cases goes
  · rintro (noneLeft | inside | ⟨some, near, full⟩ | ⟨some, far, below⟩ | ⟨some, far, below, counted, back⟩)
    · omega
    · omega
    · unfold Linear
      rw [moved_outside outside, setNext_near near, setColumn_last fits here columns_lt near full outside]
    · exact linear_of_rest fits here columns_lt size some far below outside
    · by_cases inside : c.rowPosition + k / c.columns < c.rows
      · exact linear_of_rest fits here columns_lt size some far inside outside
      · have rest_lt : sizeSub k (sizeT (c.columns * c.rows)) < 2 ^ 64 := sizeT_lt _
        unfold Linear
        rw [moved_outside outside, setNext_past some far (by rw [sizeT_of_lt below]; omega),
          (setColumn_ended_iff rest_lt count fits.columns_lt).2 ⟨counted, back⟩]

/-- Without a wrap an increment leaves the result set exactly if it has not the cells for it. -/
theorem setNext_inside_iff (fits : c.Fits) (here : c.notEnd = true) (columns_lt : c.columns < 2 ^ 63) (size : k < 2 ^ 64)
    (some : 0 < c.rows) (unwrapped : c.rowPosition + k / c.columns < 2 ^ 64) {r : Nat × Cursor} (next : c.setNext k = .ok r) :
    r.2.notEnd = true ↔ c.cell k < c.rows * c.columns := by
  have column := fits.column_lt here
  have row := fits.row_lt here
  have count := fits.rows_lt
  constructor
  · intro still
    by_contra outside
    have ends (linear : c.Linear k) : False := by
      rw [linear.ends (by omega)] at next
      cases next
      cases still
    by_cases near : k ≤ c.columns
    · refine ends ((linear_outside_iff fits here columns_lt size (by omega)).2 (.turn (by omega) near ?_))
      by_contra same
      have fills : (c.rowPosition + 1) * c.columns ≤ c.rows * c.columns := Nat.mul_le_mul_right _ (by omega)
      rw [Nat.succ_mul] at fills
      unfold cell at outside
      omega
    · by_cases below : c.rowPosition + k / c.columns < c.rows
      · exact ends (linear_of_rest fits here columns_lt size (by omega) (by omega) below (by omega))
      · have stops := setColumn_notEnd (c := c.ended) rfl c.rows (sizeSub k (sizeT (c.columns * c.rows)))
        rw [setNext_past (by omega) (by omega) (by rw [sizeT_of_lt unwrapped]; omega)] at next
        rw [Except.ok.inj next, still] at stops
        cases stops
  · intro inside
    rw [linear_of_inside fits here columns_lt size inside, moved_inside inside] at next
    cases next
    rfl

/-- Without columns only `setNext(0)` is defined, and it goes to the next row. -/
theorem linear_narrow_iff (noneLeft : c.columns = 0) (here : c.notEnd = true) (row : c.rowPosition < c.rows)
    (rows_lt : c.rows < 2 ^ 64) : c.Linear k ↔ c.StepFits k := by
  have outside : c.rows * c.columns ≤ c.cell k := by
    rw [noneLeft]
    exact Nat.zero_le _
  have next : sizeT (c.rowPosition + 1) = c.rowPosition + 1 := sizeT_of_lt (by omega)
  have full : c.columns ≤ sizeT (c.columnPosition + 0) := by
    rw [noneLeft]
    exact Nat.zero_le _
  constructor
  · intro linear
    have ends := linear.ends outside
    have stay : k = 0 := by
      by_contra moves
      unfold setNext at ends
      rw [if_pos (by omega), if_pos noneLeft] at ends
      cases ends
    refine .narrow noneLeft stay ?_
    by_contra more
    subst stay
    rw [setNext_near (Nat.zero_le _), setColumn_turn full (by omega) (by omega)] at ends
    have stops := congrArg Cursor.notEnd (congrArg Prod.snd (Except.ok.inj ends))
    rw [show c.ended.notEnd = false from rfl] at stops
    rw [here] at stops
    cases stops
  · rintro (⟨-, rfl, last⟩ | inside | ⟨some, -, -⟩ | ⟨some, -, -⟩ | ⟨some, -, -, -, -⟩)
    · unfold Linear
      rw [moved_outside outside, setNext_near (Nat.zero_le _), setColumn_ends full (by omega)]
    · rw [noneLeft] at inside
      cases inside
    all_goals omega

end Step

/-! ## Every cursor -/

section Reached
variable {Cell : Type} {a : Odbc.Answer Cell} {c : Cursor}

theorem Reached.sized (reached : Reached a c) : c.rows = a.count ∧ c.columns = a.columns := by
  induction reached with
  | query => exact ⟨rfl, rfl⟩
  | reset _ ih => exact ih
  | setNext _ _ next ih =>
    have same := setNext_sized next
    exact ⟨same.1.trans ih.1, same.2.trans ih.2⟩

theorem Reached.fits (some : 0 < a.columns) (reached : Reached a c) : c.Fits := by
  have columns := a.columns_lt
  induction reached with
  | query => exact reset_fits a.count_lt (show a.columns < 2 ^ 64 by omega) some
  | @reset c reached ih =>
    have sized := reached.sized
    exact reset_fits ih.rows_lt ih.columns_lt (by omega)
  | setNext reached size next ih =>
    have sized := reached.sized
    exact setNext_fits ih (by omega) (by omega) size next

/-- Without columns a cursor stands at the beginning of a row. -/
theorem Reached.narrow (noneLeft : a.columns = 0) (reached : Reached a c) (here : c.notEnd = true) :
    c.columnPosition = 0 ∧ c.rowPosition < c.rows := by
  induction reached with
  | query c =>
    refine ⟨rfl, ?_⟩
    change (!(a.count == 0 && a.columns == 0)) = true at here
    change 0 < a.count
    rw [noneLeft] at here
    by_contra empty
    rw [Nat.eq_zero_of_not_pos empty] at here
    cases here
  | @reset c reached ih =>
    refine ⟨rfl, ?_⟩
    change (!(c.rows == 0 && c.columns == 0)) = true at here
    change 0 < c.rows
    rw [reached.sized.2, noneLeft] at here
    by_contra empty
    rw [Nat.eq_zero_of_not_pos empty] at here
    cases here
  | @setNext c c' k n reached size next ih =>
    have none' : c.columns = 0 := reached.sized.2.trans noneLeft
    have rows_lt : c.rows < 2 ^ 64 := by
      rw [reached.sized.1]
      exact a.count_lt
    cases before : c.notEnd with
    | false =>
      rw [setNext_notEnd before next] at here
      cases here
    | true =>
      obtain ⟨column, row⟩ := ih before
      have stay : k = 0 := by
        by_contra moves
        unfold Cursor.setNext at next
        rw [if_pos (by omega), if_pos none'] at next
        cases next
      have full : c.columns ≤ sizeT (c.columnPosition + 0) := by
        rw [none']
        exact Nat.zero_le _
      have unwrapped : sizeT (c.rowPosition + 1) = c.rowPosition + 1 := sizeT_of_lt (by omega)
      rw [stay, setNext_near (Nat.zero_le _)] at next
      by_cases more : sizeT (c.rowPosition + 1) < c.rows
      · rw [setColumn_turn full more (by omega), column, none', unwrapped] at next
        cases next
        exact ⟨rfl, show c.rowPosition + 1 < c.rows by omega⟩
      · rw [setColumn_ends full (by omega)] at next
        cases next
        cases here

/-- Every cursor that is not at the end moves linearly exactly by the increments that fit. It is one that
calls have reached from an answer of the driver, of any size, and all numbers wrap at `2 ^ 64`. -/
theorem linear_iff (reached : Reached a c) (here : c.notEnd = true) {k : Nat} (size : k < 2 ^ 64) :
    c.Linear k ↔ c.StepFits k := by
  have sized := reached.sized
  have columns := a.columns_lt
  rcases Nat.eq_zero_or_pos a.columns with noneLeft | some
  · obtain ⟨-, row⟩ := reached.narrow noneLeft here
    have count := a.count_lt
    exact linear_narrow_iff (by omega) here row (by omega)
  · by_cases inside : c.cell k < c.rows * c.columns
    · exact ⟨fun _ => .inside inside, fun _ => linear_of_inside (reached.fits some) here (by omega) size inside⟩
    · exact linear_outside_iff (reached.fits some) here (by omega) size (by omega)

end Reached

/-- A result set of so many rows and columns. -/
def sized (rows columns : Fin 4) : Odbc.Answer Nat :=
  ⟨rows, columns, [], fun _ => 0, by omega, by omega⟩

/-- The cursor on the first cell of it. -/
def first (rows columns : Fin 4) : Cursor := ((Odbc.new (fun _ => 0) fun _ => false).query (sized rows columns)).cursor

theorem five_cells_linear : (first 3 2).Linear 5 :=
  (linear_iff (a := sized 3 2) (.query _) rfl (by decide)).2 (.inside (by decide))

/-- An empty result set goes on to a second column, three rows of two end with the column before the
first, and a result set without columns divides by zero. -/
theorem not_always_linear :
    Reached (sized 0 2) (first 0 2) ∧ (first 0 2).setNext 1 = .ok (0, ⟨1, 0, 2, 0, true⟩) ∧ ¬ (first 0 2).Linear 1 ∧
    Reached (sized 3 2) ⟨0, 1, 2, 3, true⟩ ∧ Cursor.setNext ⟨0, 1, 2, 3, true⟩ 4 = .ok (3, ⟨0, 3, 2, 3, false⟩) ∧
      ¬ Linear ⟨0, 1, 2, 3, true⟩ 4 ∧
    Reached (sized 1 0) (first 1 0) ∧ (first 1 0).setNext 1 = .error .undefined ∧ ¬ (first 1 0).Linear 1 := by
  have row : (first 3 2).setNext 2 = .ok (1, ⟨0, 1, 2, 3, true⟩) := by decide
  refine ⟨.query _, by decide, ?_, .setNext (.query _) (by decide) row, by decide, ?_, .query _, by decide, ?_⟩
  all_goals
    unfold Linear
    decide

end Cursor

end SqlHandler
