import SqlHandler.Connector.Nulls
import SqlHandler.Connector.Types
import SqlHandler.DTM.Reads

/-!
# Character columns

A column is bound with a buffer as long as the column says it is, its NUL not counted, so a
value of that length loses its last character (`strings_whole_iff`).
-/

namespace SqlHandler
open Posix

/-- A result set of typed columns; a value is the bytes the driver has for it. -/
structure Table extends ResultSet (Option (List UInt8)) where
  descs : List ColumnDesc
  described : descs.length = columns

/-- The types `getCType` binds as characters. -/
def SqlType.character : SqlType → Bool
  | .SQL_CHAR | .SQL_VARCHAR | .SQL_LONGVARCHAR | .SQL_WCHAR | .SQL_WVARCHAR | .SQL_WLONGVARCHAR => true
  | _ => false

/-- The variables of the columns, if there is one for each. -/
def simpleTypes : List ColumnDesc → Except BESError (List SimpleType)
  | [] => .ok []
  | d :: descs => do
    let v ← action (getCType d.sql_type)
    let rest ← simpleTypes descs
    return v :: rest

namespace Table
variable {t : Table}

/-- The values of a column up to a row. -/
def values (t : Table) (row column : Nat) : List (Option (List UInt8)) :=
  (t.rows.take (row + 1)).map fun cells => (cells[column]?).join

/-- No value up to a row was written outside its buffer. -/
def Inside (t : Table) (row : Nat) : Prop :=
  ∀ p ∈ t.descs.zipIdx, ∀ cell ∈ t.values row p.2, cell.all p.1.fits = true

instance (t : Table) (row : Nat) : Decidable (t.Inside row) :=
  inferInstanceAs (Decidable (∀ p ∈ t.descs.zipIdx, ∀ cell ∈ t.values row p.2, cell.all p.1.fits = true))

/-- What the buffer of a column holds in a row. -/
def contents (t : Table) (row column : Nat) : Option Buffer :=
  if t.Inside row then (t.descs[column]?).bind fun d => d.held (t.values row column) else none

/-- The rows as the buffers hold them. -/
def held (t : Table) : ResultSet (Option (Option Buffer)) where
  columns := t.columns
  rows := t.rows.mapIdx fun row cells => cells.mapIdx fun column cell => cell.map fun _ => t.contents row column
  width := by
    intro cells mem
    obtain ⟨row, lt, rfl⟩ := List.mem_mapIdx.1 mem
    rw [List.length_mapIdx]
    exact t.width _ (List.getElem_mem lt)
  columns_pos := t.columns_pos
  columns_lt := t.columns_lt
  rows_lt := by
    rw [List.length_mapIdx]
    exact t.rows_lt

/-- The driver delivers the rows into the buffers that `calloc` gave. -/
def answer (t : Table) : Odbc.Answer (Option Buffer) :=
  t.held.nullable fun column => (t.descs[column]?).map fun d => List.replicate d.length 0

/-- The variable of the column the connector stands on receives a string. -/
def Receives (t : Table) (s : List UInt8) (c : Odbc (Option Buffer)) : Prop :=
  ∃ vars v c', simpleTypes t.descs = .ok vars ∧ vars[c.cursor.columnPosition]? = some v ∧
    Variable.readSimple false v.action c = .ok (some (.str s)) c'

/-- The request gets as far as the row, and the buffer has room for the string and its NUL. -/
structure Whole (t : Table) (s : List UInt8) (row column length : Nat) : Prop where
  narrow : ∀ d ∈ t.descs, d.sql_type.wide = false
  status : t.columns ≤ bufSize
  plain : ∀ i ≤ row, t.cellAt i column ≠ some none
  inside : t.Inside row
  room : s.length < length

theorem held_cellAt (t : Table) (row column : Nat) :
    t.held.cellAt row column = (t.cellAt row column).map (·.map fun _ => t.contents row column) := by
  unfold ResultSet.cellAt
  change ((t.rows.mapIdx fun row cells => cells.mapIdx fun column cell => cell.map fun _ => t.contents row column)[row]?).bind
    (·[column]?) = _
  rw [List.getElem?_mapIdx]
  cases t.rows[row]? with
  | none => rfl
  | some cells => exact List.getElem?_mapIdx ..

/-- A buffer holds a NULL exactly where the result set does. -/
theorem held_null (t : Table) (row column : Nat) : t.held.cellAt row column = some none ↔ t.cellAt row column = some none := by
  rw [held_cellAt]
  cases t.cellAt row column with
  | none => exact iff_of_false nofun nofun
  | some cell =>
    cases cell with
    | none => exact iff_of_true rfl rfl
    | some v => exact iff_of_false nofun nofun

/-- The last value of a column up to a row is the one of the row. -/
theorem values_last {row column : Nat} {cell : Option (List UInt8)} (at' : t.cellAt row column = some cell) :
    ∃ before, t.values row column = before ++ [cell] := by
  obtain ⟨cells, found, entry⟩ := Option.bind_eq_some_iff.1 at'
  obtain ⟨lt, same⟩ := List.getElem?_eq_some_iff.1 found
  refine ⟨(t.rows.take row).map fun cells => (cells[column]?).join, ?_⟩
  unfold values
  rw [← List.take_append_getElem lt, List.map_append, same, List.map_singleton, entry]
  rfl

/-- What a copy up to the NUL makes of the buffer of a string. -/
theorem contents_string {row column : Nat} {d : ColumnDesc} {s : List UInt8} (inside : t.Inside row)
    (desc : t.descs[column]? = some d) (chars : getCType d.sql_type = .SQL_C_CHAR)
    (at' : t.cellAt row column = some (some s)) (noNul : ∀ byte ∈ s, byte ≠ 0) :
    ((t.contents row column).bind fun b => (Bytes.cString b).map DapValue.str) =
      if d.length = 0 then none else some (.str (s.take (d.length - 1))) := by
  obtain ⟨before, last⟩ := values_last at'
  have there := ColumnDesc.held_isSome (inside (d, column) (List.mem_zipIdx_iff_getElem?.2 desc))
  rw [last, ColumnDesc.held_snoc] at there
  unfold contents
  rw [if_pos inside, desc, Option.bind_some, last, ColumnDesc.held_snoc]
  cases run : d.held before with
  | none =>
    rw [run] at there
    cases there
  | some b =>
    have size := ColumnDesc.held_length run
    rw [Option.bind_some]
    unfold ColumnDesc.write
    rw [chars]
    dsimp only
    by_cases empty : d.length = 0
    · rw [if_pos empty, if_pos empty, List.eq_nil_of_length_eq_zero (size.trans empty)]
      rfl
    · have taken : ∀ byte ∈ s.take (d.length - 1), byte ≠ 0 := fun byte mem => noNul byte (List.mem_of_mem_take mem)
      rw [if_neg empty, if_neg empty, Option.bind_some]
      unfold Bytes.overwrite
      rw [List.append_assoc, List.singleton_append, Bytes.cString_ended taken]
      rfl

end Table

theorem simpleTypes_cons (d : ColumnDesc) (descs : List ColumnDesc) : simpleTypes (d :: descs) =
    (action (getCType d.sql_type)).bind fun v => (simpleTypes descs).bind fun rest => .ok (v :: rest) := rfl

theorem simpleTypes_ok {descs : List ColumnDesc} (narrow : ∀ d ∈ descs, d.sql_type.wide = false) :
    ∃ vars, simpleTypes descs = .ok vars := by
  induction descs with
  | nil => exact ⟨[], rfl⟩
  | cons d descs ih =>
    obtain ⟨v, made⟩ := (action_ok_iff d.sql_type).2 (narrow d List.mem_cons_self)
    obtain ⟨vars, rest⟩ := ih fun e mem => narrow e (List.mem_cons_of_mem d mem)
    refine ⟨v :: vars, ?_⟩
    rw [simpleTypes_cons, made, rest]
    rfl

/-- Each column has the variable of its own type. -/
theorem simpleTypes_at {descs : List ColumnDesc} {vars : List SimpleType} (run : simpleTypes descs = .ok vars) {column : Nat}
    {d : ColumnDesc} (desc : descs[column]? = some d) :
    ∃ v, vars[column]? = some v ∧ action (getCType d.sql_type) = .ok v := by
  induction descs generalizing vars column with
  | nil => cases desc
  | cons first descs ih =>
    rw [simpleTypes_cons] at run
    cases made : action (getCType first.sql_type) with
    | error e =>
      rw [made] at run
      cases run
    | ok v =>
      cases rest : simpleTypes descs with
      | error e =>
        rw [made, rest] at run
        cases run
      | ok tail =>
        rw [made, rest] at run
        cases run
        cases column with
        | zero =>
          cases desc
          exact ⟨v, rfl, made⟩
        | succ column => exact ih rest desc

theorem narrow_of_simpleTypes {descs : List ColumnDesc} {vars : List SimpleType} (run : simpleTypes descs = .ok vars) :
    ∀ d ∈ descs, d.sql_type.wide = false := by
  intro d mem
  obtain ⟨column, desc⟩ := List.mem_iff_getElem?.1 mem
  obtain ⟨v, -, made⟩ := simpleTypes_at run desc
  exact (action_ok_iff d.sql_type).1 ⟨v, made⟩

/-- A character type that has a variable is bound as characters. -/
theorem SqlType.chars_of_narrow {t : SqlType} (character : t.character = true) (narrow : t.wide = false) :
    getCType t = .SQL_C_CHAR := by
  cases t <;> first | rfl | exact absurd character (by decide) | exact absurd narrow (by decide)

namespace Table
variable {t : Table} {c₀ c : Odbc (Option Buffer)} {d : ColumnDesc} {s : List UInt8}

/-- In every run, the variable of a character column receives a value of at most the length of the
column exactly if the request gets that far and there is room for the NUL behind the value. The driver
writes what it is documented to write, cut off where the buffer ends. -/
theorem strings_whole_iff (run : Odbc.Run t.answer c₀ c) (here : c.cursor.notEnd = true)
    (desc : t.descs[c.cursor.columnPosition]? = some d) (character : d.sql_type.character = true)
    (at' : t.cellAt c.cursor.rowPosition c.cursor.columnPosition = some (some s)) (noNul : ∀ byte ∈ s, byte ≠ 0)
    (declared : s.length ≤ d.length) :
    t.Receives s c ↔ t.Whole s c.cursor.rowPosition c.cursor.columnPosition d.length := by
  have cell : t.held.cellAt c.cursor.rowPosition c.cursor.columnPosition =
      some (some (t.contents c.cursor.rowPosition c.cursor.columnPosition)) := by
    rw [held_cellAt, at']
    rfl
  have go : c.ready = true := by
    obtain ⟨fetched, tracks⟩ := run.tracks t.columns_pos
    exact tracks.ready
  have simple {vars : List SimpleType} (made : simpleTypes t.descs = .ok vars) :
      vars[c.cursor.columnPosition]? = some ⟨.Str, .cast_string, false⟩ ∧ getCType d.sql_type = .SQL_C_CHAR := by
    have chars := SqlType.chars_of_narrow character (narrow_of_simpleTypes made d (List.mem_of_getElem? desc))
    obtain ⟨v, entry, same⟩ := simpleTypes_at made desc
    rw [chars] at same
    cases same
    exact ⟨entry, chars⟩
  have read {c' : Odbc (Option Buffer)} (returned : Odbc.getNext 1 c = .ok (.bound c.cursor.columnPosition) c')
      (stands : c'.memory c.cursor.columnPosition = t.contents c.cursor.rowPosition c.cursor.columnPosition) :
      Variable.readSimple false (SimpleType.action ⟨.Str, .cast_string, false⟩) c =
        .ok ((t.contents c.cursor.rowPosition c.cursor.columnPosition).bind fun b => (Bytes.cString b).map .str) c' := by
    refine Variable.readSimple_ok _ go returned ?_
    rw [← stands]
    rfl
  constructor
  · rintro ⟨vars, v, c', made, entry, received⟩
    obtain ⟨own, chars⟩ := simple made
    obtain rfl := Option.some.inj (own.symm.trans entry)
    rcases run.cell here cell 1 with ⟨⟨status, plain⟩, _, e, same, returned, stands⟩ | ⟨-, ⟨e, crash⟩ | ⟨e, returned⟩⟩
    · cases same
      rw [read returned stands] at received
      have value := (EStateM.Result.ok.inj received).1
      have inside : t.Inside c.cursor.rowPosition := by
        by_contra outside
        unfold contents at value
        rw [if_neg outside] at value
        cases value
      rw [contents_string inside desc chars at' noNul] at value
      refine ⟨narrow_of_simpleTypes made, status, fun i le null => plain i le ((held_null t i _).2 null), inside, ?_⟩
      split at value
      · cases value
      · have cut : s.take (d.length - 1) = s := DapValue.str.inj (Option.some.inj value)
        have short := List.length_take_le (d.length - 1) s
        rw [cut] at short
        omega
    · rw [Variable.readSimple_error _ go crash] at received
      cases received
    · rw [show SimpleType.action ⟨.Str, .cast_string, false⟩ = .cast_string _ from rfl,
        Variable.readSimple_address _ go returned] at received
      cases received
  · intro whole
    obtain ⟨vars, made⟩ := simpleTypes_ok whole.narrow
    obtain ⟨own, chars⟩ := simple made
    rcases run.cell here cell 1 with ⟨-, _, c', same, returned, stands⟩ | ⟨fails, -⟩
    · cases same
      refine ⟨vars, _, c', made, own, ?_⟩
      have room := whole.room
      rw [read returned stands, contents_string whole.inside desc chars at' noNul, if_neg (by omega),
        List.take_of_length_le (by omega)]
    · exact absurd ⟨whole.status, fun i le null => whole.plain i le ((held_null t i _).1 null)⟩ fails

/-- A column of two characters or three, with the strings `ab` and `c` in it. -/
def letters (length : Nat) : Table where
  columns := 1
  rows := [[some [97, 98]], [some [99]]]
  width := by simp
  columns_pos := Nat.one_pos
  columns_lt := Odbc.one_column
  rows_lt := by decide
  descs := [⟨.SQL_VARCHAR, length⟩]
  described := rfl

def unbound : Odbc (Option Buffer) := .new (fun _ => none) fun _ => false

/-- The short string is whole behind the long one. -/
theorem second_string_whole : ∃ c, Odbc.Run (letters 3).answer unbound c ∧ c.cursor = ⟨0, 1, 1, 2, true⟩ ∧
    (letters 3).Receives [99] c := by
  have start : Odbc.Run (letters 3).answer unbound _ := .query
  have next := Odbc.Run.call start (show 1 < 2 ^ 64 by decide) (by decide) rfl
  have noNul : ∀ byte ∈ ([99] : List UInt8), byte ≠ 0 := by simp
  refine ⟨_, next, rfl, (strings_whole_iff next rfl rfl rfl rfl noNul (by decide)).2 ⟨?_, ?_, ?_, ?_, ?_⟩⟩
  · decide
  · decide
  · intro i le null
    obtain rfl | rfl : i = 0 ∨ i = 1 := by
      change i ≤ 1 at le
      omega
    all_goals cases null
  · show (letters 3).Inside 1
    decide
  · decide

/-- A string as long as its column loses its last character. -/
theorem declared_length_cut : Odbc.Run (letters 2).answer unbound (unbound.query (letters 2).answer) ∧
    (letters 2).cellAt 0 0 = some (some [97, 98]) ∧ (letters 2).Receives [97] (unbound.query (letters 2).answer) ∧
    ¬ (letters 2).Receives [97, 98] (unbound.query (letters 2).answer) := by
  refine ⟨.query, rfl, ⟨_, _, _, rfl, rfl, rfl⟩, ?_⟩
  rintro ⟨vars, v, c', made, entry, received⟩
  cases made
  cases entry
  cases received

end Table

end SqlHandler
