import SqlHandler.DTM.Delivery

/-!
# Do projected variables get their own columns?

`SQLSequence::read` skips the variables that are not projected, the cursor of the
connector does not: the next variable read takes the next cell. A sequence delivers the
rows of its result set exactly if the variables read take all the cells of a row
(`own_columns_iff`).
-/

namespace SqlHandler
open Posix

variable {Cell Val : Type}

/-- What the projected variables should be filled with: each the cell of its own column. -/
def own (vars : List (Variable Cell Val)) (row : List Cell) : List (Option Val) :=
  ((vars.zip row).filter fun x => x.1.projected).map fun x => x.1.out x.2

/-- The variables read take the cells of a row, no more and no less, and get their own. Under debugging
every variable takes two cells. -/
inductive TakesRows (r : ResultSet Cell) (vars : List (Variable Cell Val)) : Bool → Prop where
  | all (projected : ∀ v ∈ vars, v.projected = true) : TakesRows r vars false
  | half (half : 2 * (projectedReaders vars).length = r.columns)
      (same : ∀ row ∈ r.rows, List.zipWith Reader.out (projectedReaders vars) (seconds row) = own vars row) :
      TakesRows r vars true

theorem own_of_projected {vars : List (Variable Cell Val)} (projected : ∀ v ∈ vars, v.projected = true) (row : List Cell) :
    own vars row = List.zipWith Reader.out (projectedReaders vars) row := by
  unfold own projectedReaders
  have all : (vars.zip row).filter (fun x => x.1.projected) = vars.zip row := by
    rw [List.filter_eq_self]
    intro x mem
    exact projected x.1 (List.of_mem_zip mem).1
  rw [all, List.filter_eq_self.2 projected, List.zipWith_map_left, List.zip, List.map_zipWith]
  rfl

theorem TakesRows.columns {r : ResultSet Cell} {vars : List (Variable Cell Val)} {debug : Bool} (h : TakesRows r vars debug)
    (width : vars.length = r.columns) : castsPerRead debug * (projectedReaders vars).length = r.columns := by
  cases h with
  | all projected =>
    unfold projectedReaders
    rw [List.filter_eq_self.2 projected, List.length_map, width]
    exact Nat.one_mul _
  | half half => exact half

theorem TakesRows.own {r : ResultSet Cell} {vars : List (Variable Cell Val)} {debug : Bool} (h : TakesRows r vars debug)
    {row : List Cell} (mem : row ∈ r.rows) :
    List.zipWith Reader.out (projectedReaders vars) (handed debug row) = own vars row := by
  cases h with
  | all projected => exact (own_of_projected projected row).symm
  | half _ same => exact same row mem

/-- Variables that take the cells of a row and get their own are all projected, or every second one is. -/
theorem takesRows_of {r : ResultSet Cell} {vars : List (Variable Cell Val)} {debug : Bool} (width : vars.length = r.columns)
    (columns : castsPerRead debug * (projectedReaders vars).length = r.columns)
    (same : ∀ row ∈ r.rows, List.zipWith Reader.out (projectedReaders vars) (handed debug row) = own vars row) :
    TakesRows r vars debug := by
  cases debug with
  | false =>
    have count : vars.countP Variable.projected = vars.length := by
      unfold projectedReaders at columns
      rw [List.length_map, ← List.countP_eq_length_filter, ← width] at columns
      exact (Nat.one_mul _).symm.trans columns
    exact .all (List.countP_eq_length.1 count)
  | true => exact .half columns same

namespace SQLSequence

/-- A sequence delivers to every projected variable the cells of its own column, row by row and
as many as there are, exactly if the variables read take the rows whole. All variables have a column of
their own; which of them are projected is left open, and so is whether debug messages are written. -/
theorem own_columns_iff (c : Odbc Cell) (r : ResultSet Cell) (memory : Nat → Cell) {vars : List (Variable Cell Val)}
    (connector : ∀ v ∈ vars, v.fromConnector = true) (width : vars.length = r.columns) (k : Nat) (debug : Bool) :
    (∃ s, built c (r.answer memory) vars k = .ok s ∧ Delivers debug s (r.rows.map (own vars))) ↔
      r.rows ≠ [] ∧ r.columns ≤ bufSize ∧ TakesRows r vars debug := by
  rw [built_eq c (r.answer memory) r.columns_pos]
  have projects : Projects (projectedReaders vars) vars := ⟨rfl, connector⟩
  have go : (c.query (r.answer memory)).ready = true := rfl
  have here : (c.query (r.answer memory)).cursor.notEnd = true := Cursor.reset_notEnd r.columns_pos
  have cursor := c.query_cursor (r.answer memory) r.columns_pos
  have all (status : r.columns ≤ bufSize) (some : 0 < r.rows.length)
      (columns : castsPerRead debug * (projectedReaders vars).length = r.columns) :
      (readRows debug (r.rows.length + 1) ⟨c.query (r.answer memory), vars, false⟩).1.map Prod.fst =
          (r.rows.drop 0).map (fun row => List.zipWith Reader.out (projectedReaders vars) (handed debug row)) ∧
        (readRows debug (r.rows.length + 1) ⟨c.query (r.answer memory), vars, false⟩).2.1 = .ended := by
    refine readRows_from (Nat.zero_add _) (fun lt => ?_) (fun none' => by omega) projects columns
    have stands := c.query_stands (r.answer memory) r.columns_pos status
    exact ⟨r.rows[0], .start stands cursor (List.getElem?_eq_getElem lt) rfl rfl rfl⟩
  constructor
  · rintro ⟨s, e, delivers⟩
    cases e
    have some : r.rows ≠ [] := by
      intro empty
      rw [empty] at delivers
      exact not_delivers_nil go here delivers
    have status : r.columns ≤ bufSize := by
      by_contra wide
      by_cases idle : projectedReaders vars = []
      · rw [idle] at projects
        exact not_delivers_idle projects go here delivers
      · exact not_delivers_wide projects idle go here (Nat.lt_of_not_le wide) Nat.one_pos delivers
    have nonempty : 0 < r.rows.length := List.length_pos_iff.2 some
    have columns : castsPerRead debug * (projectedReaders vars).length = r.columns := by
      have cells := cells_of_delivers projects cursor (c.query_stands (r.answer memory) r.columns_pos status) delivers
      rw [List.length_map, Nat.max_eq_left nonempty, Nat.mul_comm] at cells
      exact (Nat.eq_of_mul_eq_mul_right nonempty cells).symm
    refine ⟨some, status, takesRows_of width columns ?_⟩
    obtain ⟨n, rows, stop⟩ := delivers
    obtain ⟨rows', stop'⟩ := all status nonempty columns
    rw [readRows_ended stop stop', rows', List.drop_zero] at rows
    exact fun row mem => List.map_inj_left.1 rows row mem
  · rintro ⟨some, status, takes⟩
    obtain ⟨rows, stop⟩ := all status (List.length_pos_iff.2 some) (takes.columns width)
    refine ⟨_, rfl, r.rows.length + 1, ?_, stop⟩
    rw [rows, List.drop_zero]
    exact List.map_congr_left fun row mem => takes.own mem

/-- One row of two numbers, and variables for them, the first projected or not. -/
def pair : ResultSet Nat := ⟨2, [[7, 8]], by decide, by decide, by decide, by decide⟩

def twoNumbers (first : Bool) : List (Variable Nat Nat) :=
  [⟨"m".toList, .simple (.cast_func id), first, false, false, none⟩, ⟨"n".toList, .simple (.cast_func id), true, false, false, none⟩]

theorem pair_delivered : ∃ s, built (Odbc.new (fun _ => 0) fun _ => false) (pair.answer fun _ => 0) (twoNumbers true) 2 = .ok s ∧
    Delivers false s [[some 7, some 8]] :=
  (own_columns_iff _ pair _ (show ∀ v ∈ twoNumbers true, v.fromConnector = true by decide) rfl 2 false).2
    ⟨by decide, by decide, .all (by decide)⟩

/-- With the second variable alone, it is given the number of the first and a row of its own for the second. -/
theorem second_takes_first :
    (∃ s, built (Odbc.new (fun _ => 0) fun _ => false) (pair.answer fun _ => 0) (twoNumbers false) 2 = .ok s ∧
      (readRows false 3 s).1.map Prod.fst = [[some 7], [some 8]] ∧ (readRows false 3 s).2.1 = .ended) ∧
    ¬ ∃ s, built (Odbc.new (fun _ => 0) fun _ => false) (pair.answer fun _ => 0) (twoNumbers false) 2 = .ok s ∧
      Delivers false s (pair.rows.map (own (twoNumbers false))) := by
  rw [built_eq _ _ pair.columns_pos]
  refine ⟨⟨_, rfl, rfl, rfl⟩, ?_⟩
  rintro ⟨s, e, n, rows, stop⟩
  cases e
  rw [readRows_ended stop (n := 3) rfl] at rows
  cases rows

end SQLSequence

end SqlHandler
