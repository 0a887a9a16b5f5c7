import SqlHandler.Handler.Builders

/-!
# Columns and the cursor

The loops of the builders count columns and `nextType` reads the cursor; the two stay
together only while no type action fails before the last column. `cellAt` is the cursor
that many cells behind the first, `ddsWalk` and `dasWalk` the cell each loop has reached.
-/

namespace SqlHandler
open Posix

namespace Job
variable {ρ : Type}

/-! ## A builder that returns -/

theorem answer_ok {α : Type} {x : Except Fault α} {a : α} {j j' : Job ρ} (h : answer x j = .ok a j') :
    x = .ok a ∧ j' = j := by
  cases x with
  | ok a' =>
    cases h
    exact ⟨rfl, rfl⟩
  | error fault => cases h

theorem catchFault_of_ok {α : Type} {x : Proc (Job ρ) α} {handle : Fault → Proc (Job ρ) α} {j j' : Job ρ}
    {a : α} (throws : ∀ fault j₁, handle fault j₁ ≠ .ok a j') (h : catchFault x handle j = .ok a j') :
    x j = .ok a j' := by
  unfold catchFault at h
  cases run : x j with
  | ok a' j₁ =>
    rw [run] at h
    exact h
  | error fault j₁ =>
    rw [run] at h
    cases fault with
    | error e => exact absurd h (throws _ _)
    | foreign what => exact absurd h (throws _ _)
    | undefined => cases h
    | endless => cases h
    | terminated => cases h

/-- The cursor `query` leaves. -/
def start (rows columns : Nat) : Cursor := Cursor.reset ⟨0, 0, columns, rows, true⟩

/-- A check behind an action that lets the action pass. -/
def Passes (b : Backend) (at' : CheckPoint) (ret : Bool) : Prop :=
  match b.errorFactory with
  | some trigger => trigger at' 0 = .ok ()
  | none => ret = true

/-- A backend on which a builder gets to its columns: it connects, answers the query with
that many rows and columns, and the response is of the class the builder writes. -/
structure Starts (b : Backend) (rows columns : Nat) : Prop where
  fits : b.responseFits = true
  connects : ∃ ret, b.connect = .ok ret ∧ Passes b .onConnect ret
  queries : ∃ ret, b.query = .ok (ret, rows, columns) ∧ Passes b .onQuery ret

theorem checked_ok {b : Backend} {at' : CheckPoint} {ret : Bool} {message : Str} {j j' : Job ρ}
    (h : checked b at' ret message j = .ok () j') : j' = j ∧ Passes b at' ret := by
  unfold checked at h
  unfold Passes
  cases factory : b.errorFactory with
  | some trigger =>
    rw [factory] at h
    obtain ⟨passes, same⟩ := answer_ok h
    exact ⟨same, passes⟩
  | none =>
    rw [factory] at h
    cases ret with
    | true =>
      cases h
      exact ⟨rfl, rfl⟩
    | false => cases h

theorem connect_ok {b : Backend} {j j' : Job ρ} (h : connect b j = .ok () j') :
    j' = { j with closed := false } ∧ ∃ ret, b.connect = .ok ret ∧ Passes b .onConnect ret := by
  have throws : ∀ fault (j₁ : Job ρ), connectCatch fault j₁ ≠ .ok () j' := fun fault j₁ => nofun
  have tried := catchFault_of_ok throws h
  obtain ⟨u, j₁, first, rest⟩ := Proc.of_bind_ok tried
  cases first
  obtain ⟨ret, j₂, answered, rest⟩ := Proc.of_bind_ok rest
  obtain ⟨connected, rfl⟩ := answer_ok answered
  obtain ⟨same, passes⟩ := checked_ok rest
  exact ⟨same, ret, connected, passes⟩

theorem query_ok {b : Backend} {j j' : Job ρ} (h : query b j = .ok () j') :
    ∃ rows columns, j' = { j with cursor := start rows columns } ∧
      ∃ ret, b.query = .ok (ret, rows, columns) ∧ Passes b .onQuery ret := by
  have throws : ∀ fault (j₁ : Job ρ), queryCatch b fault j₁ ≠ .ok () j' := by
    intro fault j₁ e
    unfold queryCatch at e
    split at e
    · cases e
    · cases e
    · split at e <;> cases e
    · cases e
    · cases e
  have tried := catchFault_of_ok throws h
  obtain ⟨⟨ret, rows, columns⟩, j₁, answered, rest⟩ := Proc.of_bind_ok tried
  obtain ⟨found, rfl⟩ := answer_ok answered
  obtain ⟨u, j₂, set, rest⟩ := Proc.of_bind_ok rest
  cases set
  obtain ⟨same, passes⟩ := checked_ok rest
  exact ⟨rows, columns, same, ret, found, passes⟩

theorem requireResponse_ok {b : Backend} {misfit : Str} {j j' : Job ρ}
    (h : requireResponse b misfit j = .ok () j') : j' = j ∧ b.responseFits = true := by
  unfold requireResponse at h
  cases fits : b.responseFits with
  | true =>
    rw [fits] at h
    cases h
    exact ⟨rfl, rfl⟩
  | false =>
    rw [fits] at h
    cases h

/-! ## The cells a loop visits -/

/-- What a loop does on the cursors on which it asks for its columns, from column `i` on, `left` columns to
go: `next` leads from one cursor to the other. -/
def along {β : Type} (next : Cursor → Cursor) (does : Nat → Cursor → β) : Nat → Nat → Cursor → List β
  | _, 0, _ => []
  | i, left + 1, c => does i c :: along next does (i + 1) left (next c)

/-- The cursor `q` cells behind the first, the end from the last cell on. -/
def cellAt (rows columns q : Nat) : Cursor :=
  if q < max rows 1 * columns then ⟨q % columns, q / columns, columns, rows, true⟩
  else ⟨columns, rows, columns, rows, false⟩

theorem cellAt_eq {columns r c : Nat} (rows : Nat) (column : c < columns) (row : r < max rows 1) :
    cellAt rows columns (r * columns + c) = ⟨c, r, columns, rows, true⟩ := by
  have inside : r * columns + c < max rows 1 * columns := by
    have fills : (r + 1) * columns ≤ max rows 1 * columns := Nat.mul_le_mul_right _ row
    rw [Nat.succ_mul] at fills
    omega
  have modulo : (r * columns + c) % columns = c := by
    rw [Nat.mul_comm, Nat.mul_add_mod, Nat.mod_eq_of_lt column]
  have quotient : (r * columns + c) / columns = r := by
    rw [Nat.mul_comm, Nat.mul_add_div (by omega), Nat.div_eq_of_lt column, Nat.add_zero]
  unfold cellAt
  rw [if_pos inside, modulo, quotient]

theorem cellAt_end {rows columns q : Nat} (h : max rows 1 * columns ≤ q) :
    cellAt rows columns q = ⟨columns, rows, columns, rows, false⟩ := if_neg (by omega)

theorem cellAt_first {rows columns i : Nat} (h : i < columns) :
    cellAt rows columns i = ⟨i, 0, columns, rows, true⟩ := by
  have first := cellAt_eq (r := 0) rows h (by omega)
  rwa [Nat.zero_mul, Nat.zero_add] at first

theorem start_eq {rows columns : Nat} (some : 0 < columns) : start rows columns = cellAt rows columns 0 := by
  have here : (start rows columns).notEnd = true := Cursor.reset_notEnd some
  rw [cellAt_first some, ← here]
  rfl

/-- A call of `setNext()` goes one cell further, and stays behind the last cell of a single row. -/
theorem advance_cellAt {rows columns q : Nat} (rows_lt : rows < 2 ^ 64) (columns_lt : columns < 2 ^ 63)
    (some : 0 < columns) (inside : q < max rows 1 * columns ∨ rows ≤ 1) :
    advance (cellAt rows columns q) = cellAt rows columns (q + 1) := by
  by_cases lt : q < max rows 1 * columns
  · obtain ⟨r, c, column, rfl⟩ : ∃ r c, c < columns ∧ q = r * columns + c :=
      ⟨q / columns, q % columns, Nat.mod_lt _ some, by rw [Nat.mul_comm]; exact (Nat.div_add_mod ..).symm⟩
    have row : r < max rows 1 := by
      by_contra past
      have beyond : max rows 1 * columns ≤ r * columns := Nat.mul_le_mul_right _ (by omega)
      omega
    have fits : (⟨c, r, columns, rows, true⟩ : Cursor).Fits := ⟨rows_lt, by show columns < _; omega, fun _ => column, fun _ => row⟩
    rw [cellAt_eq rows column row, advance, Cursor.setNext_one fits rfl]
    show Cursor.next _ = _
    unfold Cursor.next
    by_cases same : c + 1 < columns
    · simp only [if_pos same]
      rw [Nat.add_assoc, cellAt_eq rows same row]
    · have wrap : r * columns + c + 1 = (r + 1) * columns := by
        rw [Nat.succ_mul]
        omega
      simp only [if_neg same]
      by_cases more : r + 1 < rows
      · have next := cellAt_eq (r := r + 1) rows some (by omega)
        rw [Nat.add_zero] at next
        rw [if_pos more, wrap, next]
      · have last : max rows 1 = r + 1 := by omega
        rw [if_neg more, cellAt_end (by rw [wrap, last])]
  · have single : rows ≤ 1 := by omega
    rw [cellAt_end (by omega), cellAt_end (by omega)]
    have below : ¬ 1 > columns := by omega
    have column : ¬ sizeT (columns + 1) < columns := by
      rw [sizeT_of_lt (by omega)]
      omega
    have row : ¬ sizeT (rows + 1) < rows := by
      rw [sizeT_of_lt (by omega)]
      omega
    unfold advance Cursor.setNext
    rw [if_neg below]
    unfold Cursor.setColumn
    simp only [if_neg column]
    unfold Cursor.setRow
    simp only [if_neg row, if_true]

/-- The cells the DDS and DATA loops move over for a column. -/
def ddsStep (b : Backend) (rows columns q : Nat) : Nat :=
  match outcome b (cellAt rows columns q) with
  | .after => 2
  | _ => 1

/-- The cell on which the DDS and DATA loops ask for their `i`th column. -/
def ddsWalk (b : Backend) (rows columns : Nat) : Nat → Nat
  | 0 => 0
  | i + 1 => ddsWalk b rows columns i + ddsStep b rows columns (ddsWalk b rows columns i)

/-- The cells the DAS loop moves over for a column. -/
def dasStep (b : Backend) (rows columns q : Nat) : Nat :=
  match outcome b (cellAt rows columns q) with
  | .before => 0
  | _ => 1

/-- The cell on which the DAS loop asks for its `i`th column. -/
def dasWalk (b : Backend) (rows columns : Nat) : Nat → Nat
  | 0 => 0
  | i + 1 => dasWalk b rows columns i + dasStep b rows columns (dasWalk b rows columns i)

theorem ddsStep_bounds (b : Backend) (rows columns q : Nat) :
    1 ≤ ddsStep b rows columns q ∧ ddsStep b rows columns q ≤ 2 := by
  unfold ddsStep
  split <;> omega

theorem ddsWalk_bounds (b : Backend) (rows columns i : Nat) :
    i ≤ ddsWalk b rows columns i ∧ ddsWalk b rows columns i ≤ 2 * i := by
  induction i with
  | zero => exact ⟨Nat.le_refl _, Nat.le_refl _⟩
  | succ i ih =>
    have step := ddsStep_bounds b rows columns (ddsWalk b rows columns i)
    unfold ddsWalk
    omega

theorem dasWalk_le (b : Backend) (rows columns i : Nat) : dasWalk b rows columns i ≤ i := by
  induction i with
  | zero => exact Nat.le_refl _
  | succ i ih =>
    have step : dasStep b rows columns (dasWalk b rows columns i) ≤ 1 := by
      unfold dasStep
      split <;> omega
    unfold dasWalk
    omega

theorem ddsNext_walk {b : Backend} {rows columns i : Nat} (sizes : Sizes rows columns) (lt : i < columns) :
    ddsNext b (cellAt rows columns (ddsWalk b rows columns i)) =
      cellAt rows columns (ddsWalk b rows columns (i + 1)) := by
  have bounds := ddsWalk_bounds b rows columns i
  have room : ∀ q, q < 2 * columns → q < max rows 1 * columns ∨ rows ≤ 1 := by
    intro q near
    by_cases single : rows ≤ 1
    · exact .inr single
    · have two : 2 * columns ≤ max rows 1 * columns := Nat.mul_le_mul_right _ (by omega)
      exact .inl (by omega)
  have step : ∀ q, q < 2 * columns → advance (cellAt rows columns q) = cellAt rows columns (q + 1) :=
    fun q near => advance_cellAt sizes.rows_lt sizes.columns_lt (by omega) (room q near)
  rw [ddsWalk, ddsStep, ddsNext]
  cases outcome b (cellAt rows columns (ddsWalk b rows columns i)) with
  | after =>
    show advance (advance _) = cellAt rows columns (_ + 2)
    rw [step _ (by omega), step _ (by omega)]
  | made typeName => exact step _ (by omega)
  | before => exact step _ (by omega)
  | fatal => exact step _ (by omega)

theorem dasNext_walk {b : Backend} {rows columns i : Nat} (sizes : Sizes rows columns) (lt : i < columns) :
    dasNext b (cellAt rows columns (dasWalk b rows columns i)) =
      cellAt rows columns (dasWalk b rows columns (i + 1)) := by
  have bound := dasWalk_le b rows columns i
  have inside : dasWalk b rows columns i < max rows 1 * columns := by
    have one : 1 * columns ≤ max rows 1 * columns := Nat.mul_le_mul_right _ (by omega)
    omega
  have step := advance_cellAt sizes.rows_lt sizes.columns_lt (by omega) (.inl inside)
  rw [dasWalk, dasStep, dasNext]
  cases outcome b (cellAt rows columns (dasWalk b rows columns i)) with
  | before => rfl
  | made typeName => exact step
  | after => exact step
  | fatal => exact step

theorem along_walk {β : Type} {next : Cursor → Cursor} {walk : Nat → Nat} {rows columns left i : Nat}
    (does : Nat → Cursor → β)
    (step : ∀ k < columns, next (cellAt rows columns (walk k)) = cellAt rows columns (walk (k + 1)))
    (count : i + left = columns) :
    along next does i left (cellAt rows columns (walk i)) =
      (List.range' i left).map fun k => does k (cellAt rows columns (walk k)) := by
  induction left generalizing i with
  | zero => rfl
  | succ left ih => rw [along, step i (by omega), ih (by omega), List.range'_succ, List.map_cons]

theorem along_start {β : Type} {next : Cursor → Cursor} {walk : Nat → Nat} {rows columns : Nat}
    (does : Nat → Cursor → β)
    (step : ∀ k < columns, next (cellAt rows columns (walk k)) = cellAt rows columns (walk (k + 1)))
    (first : walk 0 = 0) :
    along next does 0 columns (start rows columns) =
      (List.range columns).map fun k => does k (cellAt rows columns (walk k)) := by
  cases columns with
  | zero => rfl
  | succ columns =>
    have here : start rows (columns + 1) = cellAt rows (columns + 1) (walk 0) := by
      rw [first]
      exact start_eq (Nat.succ_pos _)
    rw [here, List.range_eq_range']
    exact along_walk does step (Nat.zero_add _)

/-- The cells of the DDS and DATA loops. -/
theorem along_dds {β : Type} {b : Backend} {rows columns : Nat} (sizes : Sizes rows columns) (does : Nat → Cursor → β) :
    along (ddsNext b) does 0 columns (start rows columns) =
      (List.range columns).map fun k => does k (cellAt rows columns (ddsWalk b rows columns k)) :=
  along_start does (fun _ lt => ddsNext_walk sizes lt) rfl

/-- The cells of the DAS loop. -/
theorem along_das {β : Type} {b : Backend} {rows columns : Nat} (sizes : Sizes rows columns) (does : Nat → Cursor → β) :
    along (dasNext b) does 0 columns (start rows columns) =
      (List.range columns).map fun k => does k (cellAt rows columns (dasWalk b rows columns k)) :=
  along_start does (fun _ lt => dasNext_walk sizes lt) rfl

end Job

end SqlHandler
