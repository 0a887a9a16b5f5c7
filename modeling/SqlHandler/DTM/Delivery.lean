import SqlHandler.DTM.Reads

/-!
# What a sequence delivers

The rows of a result set without NULL cells, through the connector and the
sequence. `At` is the connector before it reads cell `(i, j)`; a read takes it to
the cell behind, and the fetch of the next row waits for the read after that.
-/

namespace SqlHandler
open Posix

variable {Cell Val : Type}

def Reader.out : Reader Cell Val → Cell → Option Val
  | .simple action, cell => some (action.out cell)
  | .dummy val, _ => some val

namespace Variable

/-- The value a variable takes from a cell. -/
def out (v : Variable Cell Val) (cell : Cell) : Option Val := v.reader.out cell

/-- The variable after it took a cell. -/
def filledWith (v : Variable Cell Val) (cell : Cell) : Variable Cell Val :=
  { v with value := v.out cell, read_p := true }

end Variable

namespace SQLSequence

/-- The sequence of a builder that made `k` variables: `setNext` for each, then `reset`. -/
def built (c : Odbc Cell) (a : Odbc.Answer Cell) (vars : List (Variable Cell Val)) (k : Nat) :
    Except Fault (SQLSequence Cell Val) :=
  (Odbc.setNexts k (c.query a)).map fun conn => ⟨conn.reset, vars, false⟩

/-- Successive reads deliver these rows and then report the end. -/
def Delivers (debug : Bool) (s : SQLSequence Cell Val) (rows : List (List (Option Val))) : Prop :=
  ∃ n, (readRows debug n s).1.map Prod.fst = rows ∧ (readRows debug n s).2.1 = .ended

theorem built_eq (c : Odbc Cell) (a : Odbc.Answer Cell) (some : 0 < a.columns)
    (vars : List (Variable Cell Val)) (k : Nat) : built c a vars k = .ok ⟨c.query a, vars, false⟩ := by
  obtain ⟨d, run, reset⟩ := Odbc.setNexts_reset (c := c.query a) ⟨rfl, rfl, rfl⟩ some k
  unfold built
  rw [run]
  show Except.ok (SQLSequence.mk d.reset vars false) = _
  rw [reset]
  rfl

end SQLSequence

theorem Odbc.query_stands (c : Odbc Cell) (a : Answer Cell) (some : 0 < a.columns)
    (status : a.columns ≤ bufSize) : (c.query a).Stands where
  ready := rfl
  fits := Cursor.reset_fits a.count_lt (Nat.lt_trans a.columns_lt (by decide)) some
  buffers := by
    show ((List.range a.columns).map Pointer.bound).length = a.columns
    rw [List.length_map, List.length_range]
  status := status

theorem Odbc.query_cursor (c : Odbc Cell) (a : Answer Cell) (some : 0 < a.columns) :
    (c.query a).cursor = ⟨0, 0, a.columns, a.count, true⟩ := by
  have here : (c.query a).cursor.notEnd = true := Cursor.reset_notEnd some
  rw [← here]
  rfl

/-! ## The fetch of a row -/

theorem Odbc.replaceNulls_of {c : Odbc Cell} (h : ∀ i, i < c.d_buf.length → c.d_status i = false) :
    c.replaceNulls = c := by
  have same : (c.d_buf.mapIdx fun i p => if c.d_status i then Pointer.address '0'.toNat else p) = c.d_buf := by
    refine List.ext_getElem (by simp) fun i lt _ => ?_
    rw [List.getElem_mapIdx, h i (by simpa using lt)]
    rfl
  unfold replaceNulls
  rw [same]

/-- A row without NULL cells is written over the memory of its columns. -/
theorem Odbc.fetchRow_row {c : Odbc Cell} {row : List Cell} {rest : List (Fetched Cell)}
    (h : c.stmt = .row (row.map some) :: rest) (width : c.d_buf.length = row.length) :
    c.fetchRow.stmt = rest ∧ c.fetchRow.d_buf = c.d_buf ∧
      ∀ m cell, row[m]? = some cell → c.fetchRow.memory m = cell := by
  have fetch := sqlFetch_row h
  have plain : c.sqlFetch.replaceNulls = c.sqlFetch := by
    refine replaceNulls_of fun i lt => ?_
    rw [sqlFetch_d_buf, width] at lt
    rw [fetch]
    simp [List.getElem?_eq_getElem lt]
  unfold fetchRow
  rw [plain, fetch]
  refine ⟨rfl, rfl, fun m cell entry => ?_⟩
  simp [entry]

/-! ## One cell -/

/-- The connector before it reads column `j` of row `i`, whose cells are `row`. -/
structure At (r : ResultSet Cell) (i j : Nat) (row : List Cell) (c : Odbc Cell) : Prop where
  stands : c.Stands
  cursor : c.cursor = ⟨j, i, r.columns, r.rows.length, true⟩
  row_eq : r.rows[i]? = some row
  memory : ∀ m cell, row[m]? = some cell → c.fetched.memory m = cell
  stmt : c.fetched.stmt = ResultSet.fetches (r.rows.drop (i + 1))
  buffers : c.fetched.d_buf = (List.range r.columns).map .bound

/-- The connector when the columns before `j` of row `i` are read. -/
inductive Before (r : ResultSet Cell) (i j : Nat) (c : Odbc Cell) : Prop where
  | within (row : List Cell) (lt : j < r.columns) (here : At r i j row c)
  | next (row : List Cell) (full : j = r.columns) (here : At r (i + 1) 0 row c)
  | ended (full : j = r.columns) (last : i + 1 = r.rows.length) (ready : c.ready = true)
      (stop : c.cursor.notEnd = false)

/-- A connector that waits for one row is before its first cell. -/
theorem At.start {r : ResultSet Cell} {i : Nat} {row : List Cell} {c : Odbc Cell} (stands : c.Stands)
    (cursor : c.cursor = ⟨0, i, r.columns, r.rows.length, true⟩) (row_eq : r.rows[i]? = some row)
    (wait : c.toFetchRows = 1) (stmt : c.stmt = ResultSet.fetches (r.rows.drop i))
    (buffers : c.d_buf = (List.range r.columns).map .bound) : At r i 0 row c := by
  obtain ⟨lt, entry⟩ := List.getElem?_eq_some_iff.1 row_eq
  have first : c.stmt = .row (row.map some) :: ResultSet.fetches (r.rows.drop (i + 1)) := by
    rw [stmt, List.drop_eq_getElem_cons lt, entry]
    rfl
  have width : c.d_buf.length = row.length := by
    rw [buffers, List.length_map, List.length_range, ← entry, r.width _ (List.getElem_mem lt)]
  have fetched : c.fetched = c.fetchRow := by
    unfold Odbc.fetched
    rw [wait]
    rfl
  obtain ⟨rest, same, cells⟩ := Odbc.fetchRow_row first width
  refine ⟨stands, cursor, row_eq, ?_, ?_, ?_⟩
  · rw [fetched]
    exact cells
  · rw [fetched, rest]
  · rw [fetched, same, buffers]

/-- A read takes the connector to the cell behind. -/
theorem At.step {r : ResultSet Cell} {i j : Nat} {row : List Cell} {c : Odbc Cell} (h : At r i j row c)
    (lt : j < r.columns) : Before r i (j + 1) c.read := by
  obtain ⟨inside, -⟩ := List.getElem?_eq_some_iff.1 h.row_eq
  have here : c.cursor.notEnd = true := by rw [h.cursor]
  have stands := h.stands.read here
  have cursor : c.read.cursor = Cursor.next ⟨j, i, r.columns, r.rows.length, true⟩ := by
    show c.cursor.next = _
    rw [h.cursor]
  have wait : c.read.toFetchRows = Cursor.skipped ⟨j, i, r.columns, r.rows.length, true⟩ := by
    show c.cursor.skipped = _
    rw [h.cursor]
  by_cases same : j + 1 < r.columns
  · -- the row stays in memory
    have fetched : c.read.fetched = c.read := by
      unfold Odbc.fetched
      rw [wait, Cursor.skipped, if_pos same]
      rfl
    refine .within row same ⟨stands, ?_, h.row_eq, ?_, ?_, ?_⟩
    · rw [cursor, Cursor.next, if_pos same]
    · rw [fetched]
      exact h.memory
    · rw [fetched]
      exact h.stmt
    · rw [fetched]
      exact h.buffers
  · have full : j + 1 = r.columns := by omega
    by_cases more : i + 1 < r.rows.length
    · refine .next r.rows[i + 1] full (.start stands ?_ (List.getElem?_eq_getElem more) ?_ h.stmt h.buffers)
      · rw [cursor, Cursor.next, if_neg same, if_pos more]
      · rw [wait, Cursor.skipped, if_neg same, if_pos more]
    · refine .ended full (by omega) stands.ready ?_
      rw [cursor, Cursor.next, if_neg same, if_neg more]

/-- The entry of a cell that a read takes, and the cell behind it. -/
theorem At.entry {r : ResultSet Cell} {i j : Nat} {row : List Cell} {c : Odbc Cell} (h : At r i j row c) (lt : j < r.columns) :
    ∃ cell, row[j]? = some cell ∧ Odbc.getNext 1 c = .ok (.bound j) c.read ∧ Odbc.deref (.bound j) c.read = .ok cell c.read := by
  obtain ⟨inside, entry⟩ := List.getElem?_eq_some_iff.1 h.row_eq
  have width : row.length = r.columns := by
    rw [← entry]
    exact r.width _ (List.getElem_mem inside)
  have cell : row[j]? = some row[j] := List.getElem?_eq_getElem (by omega)
  obtain ⟨p, slot, run⟩ := Odbc.getNext_ok h.stands (by rw [h.cursor])
  obtain rfl : p = .bound j := by
    rw [h.buffers, h.cursor] at slot
    simpa [lt] using slot.symm
  refine ⟨row[j], cell, run, ?_⟩
  show EStateM.Result.ok (c.fetched.memory j) c.read = _
  rw [h.memory j _ cell]

/-- A cast takes the connector to the cell behind. -/
theorem At.cast {r : ResultSet Cell} {i j : Nat} {row : List Cell} {c : Odbc Cell} (h : At r i j row c) (lt : j < r.columns)
    (action : CastAction Cell Val) : ∃ x, Variable.cast action c = .ok x c.read := by
  obtain ⟨cell, -, run, copy⟩ := h.entry lt
  rw [Variable.cast_of_next action h.stands.ready run]
  cases action with
  | cast_string out => exact ⟨_, Proc.bind_ok copy⟩
  | cast_func val2buf => exact ⟨_, rfl⟩

/-- A variable takes the last of the cells its casts go over. -/
theorem At.reads {r : ResultSet Cell} (debug : Bool) {i j : Nat} {row : List Cell} {c : Odbc Cell} (h : At r i j row c)
    (lt : j + castsPerRead debug ≤ r.columns) {v : Variable Cell Val} (connector : v.fromConnector = true)
    (unread : v.read_p = false) :
    ∃ cell c', row[j + castsPerRead debug - 1]? = some cell ∧ v.read debug c = .ok (v.filledWith cell) c' ∧
      Before r i (j + castsPerRead debug) c' := by
  obtain ⟨action, kind⟩ : ∃ action, v.reader = .simple action := by
    unfold Variable.fromConnector at connector
    cases kind : v.reader with
    | simple action => exact ⟨action, rfl⟩
    | dummy val =>
      rw [kind] at connector
      cases connector
  have reads {cell : Cell} {c' : Odbc Cell} (run : Variable.readSimple debug action c = .ok (action.out cell) c') :
      v.read debug c = .ok (v.filledWith cell) c' := by
    unfold Variable.read
    simp only [unread, kind, Bool.false_eq_true, if_false]
    rw [Proc.bind_ok (Proc.catchBES_ok run)]
    unfold Variable.filledWith Variable.out
    rw [kind]
    rfl
  cases debug with
  | false =>
    have one : j < r.columns := lt
    obtain ⟨cell, entry, run, copy⟩ := h.entry one
    exact ⟨cell, c.read, entry, reads (Variable.readSimple_ok action h.stands.ready run copy), h.step one⟩
  | true =>
    have two : j + 2 ≤ r.columns := lt
    obtain ⟨x, first⟩ := h.cast (by omega) action
    cases h.step (show j < r.columns by omega) with
    | next row' full => omega
    | ended full => omega
    | within row' lt' here =>
      obtain rfl : row' = row := Option.some.inj (here.row_eq.symm.trans h.row_eq)
      obtain ⟨cell, entry, run, copy⟩ := here.entry lt'
      refine ⟨cell, c.read.read, entry, reads ?_, here.step lt'⟩
      have second := Variable.readSimple_ok action here.stands.ready run copy
      exact (Proc.bind_ok first).trans second

/-! ## One row -/

/-- Every second cell. -/
def seconds : List Cell → List Cell
  | _ :: cell :: row => cell :: seconds row
  | _ => []

/-- The cells of a row that are stored: under debugging the message takes one in front of each. -/
def handed (debug : Bool) (row : List Cell) : List Cell := if debug then seconds row else row

theorem handed_cons {debug : Bool} {row : List Cell} {cell : Cell} (h : row[castsPerRead debug - 1]? = some cell) :
    handed debug row = cell :: handed debug (row.drop (castsPerRead debug)) := by
  cases debug with
  | false =>
    cases row with
    | nil => cases h
    | cons first row =>
      cases h
      rfl
  | true =>
    match row, h with
    | first :: second :: row, h =>
      cases h
      rfl

/-- The readers of the projected variables. -/
def projectedReaders (vars : List (Variable Cell Val)) : List (Reader Cell Val) :=
  (vars.filter Variable.projected).map Variable.reader

theorem projectedReaders_skip {v : Variable Cell Val} (h : v.projected = false) (vars : List (Variable Cell Val)) :
    projectedReaders (v :: vars) = projectedReaders vars := by
  unfold projectedReaders
  rw [List.filter_cons_of_neg (by simp [h])]

theorem projectedReaders_take {v : Variable Cell Val} (h : v.projected = true) (vars : List (Variable Cell Val)) :
    projectedReaders (v :: vars) = v.reader :: projectedReaders vars := by
  unfold projectedReaders
  rw [List.filter_cons_of_pos h, List.map_cons]

/-- The variables of a sequence that are projected, and that all are read from the connector. -/
structure Projects (readers : List (Reader Cell Val)) (vars : List (Variable Cell Val)) : Prop where
  readers : projectedReaders vars = readers
  connector : ∀ v ∈ vars, v.fromConnector = true

theorem projectedReaders_of_signature {vars vars' : List (Variable Cell Val)}
    (same : vars'.map Variable.signature = vars.map Variable.signature) : projectedReaders vars' = projectedReaders vars := by
  have through (vars : List (Variable Cell Val)) :
      projectedReaders vars = ((vars.map Variable.signature).filter fun x => x.2.2.1 || x.2.2.2).map fun x => x.2.1 := by
    rw [List.filter_map, List.map_map]
    rfl
  rw [through, through, same]

theorem Projects.of_signature {readers : List (Reader Cell Val)} {vars vars' : List (Variable Cell Val)}
    (h : Projects readers vars) (same : vars'.map Variable.signature = vars.map Variable.signature) :
    Projects readers vars' := by
  refine ⟨(projectedReaders_of_signature same).trans h.readers, fun v mem => ?_⟩
  obtain ⟨u, old, same⟩ : ∃ u ∈ vars, u.signature = v.signature := List.mem_map.1 (same ▸ List.mem_map_of_mem mem)
  rw [← h.connector u old]
  exact congrArg (fun x => x.2.1.connected) same.symm

/-- The variables of a sequence that is all projected and all read from the connector. -/
structure Columns (readers : List (Reader Cell Val)) (vars : List (Variable Cell Val)) : Prop where
  readers : vars.map Variable.reader = readers
  projected : ∀ v ∈ vars, v.projected = true
  connector : ∀ v ∈ vars, v.fromConnector = true

theorem Columns.projects {readers : List (Reader Cell Val)} {vars : List (Variable Cell Val)} (h : Columns readers vars) :
    Projects readers vars := by
  refine ⟨?_, h.connector⟩
  unfold projectedReaders
  rw [List.filter_eq_self.2 h.projected, h.readers]

/-- The projected variables filled from these cells. -/
def fill : List (Variable Cell Val) → List Cell → List (Variable Cell Val)
  | [], _ => []
  | v :: vars, cells =>
    if v.projected then
      match cells with
      | [] => v :: vars
      | cell :: cells => v.filledWith cell :: fill vars cells
    else v :: fill vars cells

theorem fill_skip {v : Variable Cell Val} (h : v.projected = false) (vars : List (Variable Cell Val)) (cells : List Cell) :
    fill (v :: vars) cells = v :: fill vars cells := by
  cases cells <;> rw [fill, if_neg (by simp [h])]

theorem fill_take {v : Variable Cell Val} (h : v.projected = true) (vars : List (Variable Cell Val)) (cell : Cell) (cells : List Cell) :
    fill (v :: vars) (cell :: cells) = v.filledWith cell :: fill vars cells := by
  rw [fill, if_pos h]

theorem fill_signature (vars : List (Variable Cell Val)) (cells : List Cell) :
    (fill vars cells).map Variable.signature = vars.map Variable.signature := by
  induction vars generalizing cells with
  | nil => rfl
  | cons v vars ih =>
    cases projected : v.projected with
    | false => rw [fill_skip projected, List.map_cons, List.map_cons, ih]
    | true =>
      cases cells with
      | nil => simp only [fill, if_pos projected]
      | cons cell cells =>
        rw [fill_take projected, List.map_cons, List.map_cons, ih]
        rfl

/-- The row that filled variables show. -/
theorem fill_row {vars : List (Variable Cell Val)} {cells : List Cell} (enough : (projectedReaders vars).length ≤ cells.length) :
    ((fill vars cells).filter Variable.projected).map Variable.value = List.zipWith Reader.out (projectedReaders vars) cells := by
  induction vars generalizing cells with
  | nil => rfl
  | cons v vars ih =>
    cases projected : v.projected with
    | false =>
      rw [projectedReaders_skip projected] at enough ⊢
      rw [fill_skip projected, List.filter_cons_of_neg (by simp [projected]), ih enough]
    | true =>
      rw [projectedReaders_take projected] at enough ⊢
      cases cells with
      | nil => cases enough
      | cons cell cells =>
        have filled : (v.filledWith cell).projected = true := projected
        rw [fill_take projected, List.filter_cons_of_pos filled, List.map_cons, List.zipWith_cons_cons, ih (by simpa using enough)]
        rfl

namespace SQLSequence

/-- The loop over the variables `rest` fills the projected ones from the cells handed over. -/
theorem readVars_row {r : ResultSet Cell} (debug : Bool) {i j : Nat} {row : List Cell} {s : SQLSequence Cell Val}
    {done rest : List (Variable Cell Val)} (row_eq : r.rows[i]? = some row) (h : Before r i j s.conn)
    (count : j + castsPerRead debug * (projectedReaders rest).length = r.columns)
    (connector : ∀ v ∈ rest, v.fromConnector = true) (unread : ∀ v ∈ rest, v.read_p = false)
    (split : s.vars = done ++ rest) :
    ∃ conn, readVars debug done rest s =
        .ok () (s.stored conn (done ++ fill rest (handed debug (row.drop j)))) ∧
      Before r i r.columns conn := by
  induction rest generalizing s done j with
  | nil =>
    obtain rfl : j = r.columns := count
    refine ⟨s.conn, ?_, h⟩
    show EStateM.Result.ok () s = .ok () ⟨s.conn, done ++ [], s.read_p⟩
    rw [← split]
  | cons v rest ih =>
    have connector' : ∀ u ∈ rest, u.fromConnector = true := fun u mem => connector u (List.mem_cons_of_mem _ mem)
    have unread' : ∀ u ∈ rest, u.read_p = false := fun u mem => unread u (List.mem_cons_of_mem _ mem)
    have join (v' : Variable Cell Val) (l : List (Variable Cell Val)) : done ++ v' :: l = (done ++ [v']) ++ l := by
      rw [List.append_assoc]
      rfl
    cases projected : v.projected with
    | false =>
      rw [projectedReaders_skip projected] at count
      obtain ⟨conn, loop, before⟩ := ih h count connector' unread' (split.trans (join v rest))
      refine ⟨conn, ?_, before⟩
      rw [readVars_skip projected, loop, fill_skip projected, ← join]
    | true =>
      rw [projectedReaders_take projected, List.length_cons, Nat.mul_succ] at count
      have one : 0 < castsPerRead debug := by
        cases debug <;> decide
      cases h with
      | next _ full => omega
      | ended full => omega
      | within row' lt here =>
        obtain rfl : row' = row := Option.some.inj (here.row_eq.symm.trans row_eq)
        obtain ⟨cell, conn', entry, run, before⟩ :=
          here.reads debug (by omega) (connector v List.mem_cons_self) (unread v List.mem_cons_self)
        obtain ⟨conn, loop, before⟩ := ih (s := s.stored conn' (done ++ v.filledWith cell :: rest)) before
          (by omega) connector' unread' (join _ _)
        have cells : handed debug (row'.drop j) = cell :: handed debug (row'.drop (j + castsPerRead debug)) := by
          rw [handed_cons (by rw [List.getElem?_drop, ← entry]; congr 1; omega), List.drop_drop]
        refine ⟨conn, ?_, before⟩
        rw [readVars_ok projected run, loop, cells, fill_take projected, ← join]
        rfl

theorem clearRead_signature (s : SQLSequence Cell Val) :
    s.clearRead.vars.map Variable.signature = s.vars.map Variable.signature := by
  show (s.vars.map _).map _ = _
  rw [List.map_map]
  rfl

theorem clearRead_unread (s : SQLSequence Cell Val) : ∀ v ∈ s.clearRead.vars, v.read_p = false := by
  intro v mem
  obtain ⟨u, -, rfl⟩ := List.mem_map.1 mem
  rfl

theorem seconds_length : ∀ row : List Cell, (seconds row).length = row.length / 2
  | [] => by simp [seconds]
  | [_] => by simp [seconds]
  | _ :: cell :: row => by
    rw [seconds, List.length_cons, seconds_length row, List.length_cons, List.length_cons]
    omega

theorem handed_length {debug : Bool} {row : List Cell} {n : Nat} (h : castsPerRead debug * n = row.length) :
    (handed debug row).length = n := by
  cases debug with
  | false =>
    rw [castsPerRead, if_neg Bool.false_ne_true, Nat.one_mul] at h
    exact h.symm
  | true =>
    rw [castsPerRead, if_pos rfl] at h
    change (seconds row).length = n
    rw [seconds_length]
    omega

/-- From the first cell of a row a read of variables that take all of it delivers them. -/
theorem read_row {r : ResultSet Cell} {debug : Bool} {i : Nat} {row : List Cell} {s : SQLSequence Cell Val}
    {readers : List (Reader Cell Val)} (here : At r i 0 row s.conn) (projects : Projects readers s.vars)
    (count : castsPerRead debug * readers.length = r.columns) :
    ∃ s', SQLSequence.read debug s.clearRead = .ok false s' ∧
      s'.row = List.zipWith Reader.out readers (handed debug row) ∧ Projects readers s'.vars ∧ Before r i r.columns s'.conn := by
  have clear := projects.of_signature s.clearRead_signature
  obtain ⟨lt, entry⟩ := List.getElem?_eq_some_iff.1 here.row_eq
  have width : row.length = r.columns := by
    rw [← entry]
    exact r.width _ (List.getElem_mem lt)
  obtain ⟨conn, loop, before⟩ := readVars_row (s := s.clearRead) (j := 0) debug here.row_eq
    (.within row r.columns_pos here) (by rw [clear.readers, Nat.zero_add, count]) clear.connector s.clearRead_unread
    (List.nil_append _).symm
  rw [List.drop_zero] at loop
  have enough : (projectedReaders s.clearRead.vars).length ≤ (handed debug row).length := by
    rw [clear.readers, handed_length (count.trans width.symm)]
  have delivered := fill_row enough
  rw [clear.readers] at delivered
  exact ⟨_, read_ok rfl here.stands.ready (by show s.conn.cursor.notEnd = true; rw [here.cursor]) loop,
    delivered, clear.of_signature (fill_signature _ _), before⟩

/-! ## All rows -/

/-- Before row `i` the reads deliver the rows from there on and then the end. -/
theorem readRows_from {r : ResultSet Cell} {debug : Bool} {k i : Nat} {s : SQLSequence Cell Val}
    {readers : List (Reader Cell Val)} (count : i + k = r.rows.length)
    (here : i < r.rows.length → ∃ row, At r i 0 row s.conn)
    (stop : i = r.rows.length → s.conn.ready = true ∧ s.conn.cursor.notEnd = false)
    (projects : Projects readers s.vars) (width : castsPerRead debug * readers.length = r.columns) :
    (readRows debug (k + 1) s).1.map Prod.fst =
        (r.rows.drop i).map (fun row => List.zipWith Reader.out readers (handed debug row)) ∧
      (readRows debug (k + 1) s).2.1 = .ended := by
  induction k generalizing i s with
  | zero =>
    obtain ⟨ready, stop⟩ := stop count
    have run : SQLSequence.read debug s.clearRead = .ok true s.clearRead := read_end rfl (.inr stop)
    unfold readRows
    rw [run, List.drop_eq_nil_of_le (by omega)]
    exact ⟨rfl, rfl⟩
  | succ k ih =>
    obtain ⟨row, here⟩ := here (by omega)
    obtain ⟨lt, entry⟩ := List.getElem?_eq_some_iff.1 here.row_eq
    obtain ⟨s', run, delivered, projects', before⟩ := read_row here projects width
    have later := ih (i := i + 1) (s := s') (by omega)
      (fun more => by
        cases before with
        | within _ lt => omega
        | next row _ here => exact ⟨row, here⟩
        | ended _ last => omega)
      (fun last => by
        cases before with
        | within _ lt => omega
        | next row _ here =>
          obtain ⟨inside, -⟩ := List.getElem?_eq_some_iff.1 here.row_eq
          omega
        | ended _ _ ready stop => exact ⟨ready, stop⟩)
      projects'
    rw [readRows, run, List.drop_eq_getElem_cons lt, entry]
    refine ⟨?_, later.2⟩
    show s'.row :: (readRows debug (k + 1) s').1.map Prod.fst = _
    rw [later.1, delivered]
    rfl

/-- A delivered row takes the cells of every projected variable. -/
theorem read_left {debug : Bool} {readers : List (Reader Cell Val)} {s s' : SQLSequence Cell Val}
    (stands : s.conn.Stands) (projects : Projects readers s.vars)
    (run : SQLSequence.read debug s.clearRead = .ok false s') :
    s'.conn.Stands ∧ Projects readers s'.vars ∧
      s.conn.cursor.left = s'.conn.cursor.left + castsPerRead debug * readers.length := by
  have loop := read_delivers (s := s.clearRead) rfl run
  have account := readVars_accounted debug (s := s.clearRead) stands (List.nil_append _).symm
  have signature := readVars_signature (List.nil_append _).symm loop
  rw [loop] at account
  obtain ⟨stands', -, left⟩ := account
  have clear := projects.of_signature s.clearRead_signature
  have all : s.clearRead.vars.countP Variable.waits = readers.length := by
    rw [← clear.readers, projectedReaders, List.length_map, ← List.countP_eq_length_filter]
    refine List.countP_congr fun v mem => ?_
    rw [Variable.waits, clear.connector v mem, s.clearRead_unread v mem]
    simp
  rw [all] at left
  exact ⟨stands', clear.of_signature signature, left⟩

/-- Reads that go on to the end take all the cells that are left. -/
theorem readRows_left {debug : Bool} {readers : List (Reader Cell Val)} {n : Nat} {s : SQLSequence Cell Val}
    (stands : s.conn.Stands) (projects : Projects readers s.vars)
    (stop : (readRows debug n s).2.1 = .ended) :
    s.conn.cursor.left = castsPerRead debug * readers.length * (readRows debug n s).1.length := by
  induction n generalizing s with
  | zero => cases stop
  | succ n ih =>
    unfold readRows at stop ⊢
    cases run : SQLSequence.read debug s.clearRead with
    | error f s' =>
      rw [run] at stop
      cases stop
    | ok ended s' =>
      rw [run] at stop
      cases ended with
      | true =>
        rw [Cursor.left_end (c := s.conn.cursor)]
        · rfl
        · by_contra here
          have here : s.clearRead.conn.cursor.notEnd = true := by
            change s.conn.cursor.notEnd = true
            simpa using here
          cases (read_loop (s := s.clearRead) rfl stands.ready here run).1
      | false =>
        obtain ⟨stands', projects', left⟩ := read_left stands projects run
        have later := ih stands' projects' stop
        show _ = _ * ((readRows debug n s').1.length + 1)
        rw [left, later, Nat.mul_succ]

/-- How many rows the reads deliver before they stop does not depend on how often one reads on. -/
theorem readRows_ended {debug : Bool} {m n : Nat} {s : SQLSequence Cell Val} (first : (readRows debug m s).2.1 = .ended)
    (second : (readRows debug n s).2.1 = .ended) : readRows debug m s = readRows debug n s := by
  induction m generalizing n s with
  | zero => cases first
  | succ m ih =>
    cases n with
    | zero => cases second
    | succ n =>
      unfold readRows at first second ⊢
      cases run : SQLSequence.read debug s.clearRead with
      | error f s' => rfl
      | ok ended s' =>
        rw [run] at first second
        cases ended with
        | true => rfl
        | false => simp only [ih first second]

/-- With something to read and no end, no series of reads ends without a row. -/
theorem not_delivers_nil {debug : Bool} {s : SQLSequence Cell Val} (go : s.conn.ready = true)
    (here : s.conn.cursor.notEnd = true) : ¬ Delivers debug s [] := by
  rintro ⟨n, rows, stop⟩
  cases n with
  | zero => cases stop
  | succ n =>
    have start : s.clearRead.conn.cursor.notEnd = true := here
    rw [readRows] at rows stop
    cases run : SQLSequence.read debug s.clearRead with
    | error f s' =>
      rw [run] at stop
      cases stop
    | ok ended s' =>
      cases ended with
      | false =>
        rw [run] at rows
        cases rows
      | true => cases (read_loop (s := s.clearRead) rfl go start run).1

/-- Past `bufSize` columns the first fetch of a row is undefined. -/
theorem readVars_wide {debug : Bool} {s : SQLSequence Cell Val} {done rest : List (Variable Cell Val)}
    (connector : ∀ v ∈ rest, v.fromConnector = true) (unread : ∀ v ∈ rest, v.read_p = false)
    (some : projectedReaders rest ≠ []) (go : s.conn.ready = true) (here : s.conn.cursor.notEnd = true)
    (wide : bufSize < s.conn.cursor.columns) (wait : 0 < s.conn.toFetchRows) :
    ∃ s', readVars debug done rest s = .error .undefined s' := by
  induction rest generalizing done with
  | nil => exact absurd rfl some
  | cons v rest ih =>
    cases projected : v.projected with
    | true =>
      have run : v.read debug s.conn = .error .undefined s.conn :=
        Variable.read_wide (connector v List.mem_cons_self) (unread v List.mem_cons_self) go here wide wait
      exact ⟨_, readVars_error projected run done rest⟩
    | false =>
      rw [readVars_skip projected]
      refine ih (fun u mem => connector u (List.mem_cons_of_mem _ mem)) (fun u mem => unread u (List.mem_cons_of_mem _ mem)) ?_
      unfold projectedReaders at some ⊢
      rw [List.filter_cons_of_neg (by simp [projected])] at some
      exact some

theorem not_delivers_wide {debug : Bool} {readers : List (Reader Cell Val)} {s : SQLSequence Cell Val}
    {rows : List (List (Option Val))} (projects : Projects readers s.vars) (some : readers ≠ [])
    (go : s.conn.ready = true) (here : s.conn.cursor.notEnd = true)
    (wide : bufSize < s.conn.cursor.columns) (wait : 0 < s.conn.toFetchRows) : ¬ Delivers debug s rows := by
  have clear := projects.of_signature s.clearRead_signature
  have some' : projectedReaders s.clearRead.vars ≠ [] := by
    rw [clear.readers]
    exact some
  obtain ⟨s', crash⟩ : ∃ s', readVars debug [] s.clearRead.vars s.clearRead = .error .undefined s' :=
    readVars_wide clear.connector s.clearRead_unread some' go here wide wait
  rintro ⟨n, -, stop⟩
  cases n with
  | zero => cases stop
  | succ n =>
    rw [readRows, read_undefined (s := s.clearRead) rfl go here crash] at stop
    cases stop

/-- Without a projected variable the reads deliver empty rows and never end. -/
theorem not_delivers_idle {debug : Bool} {s : SQLSequence Cell Val} {rows : List (List (Option Val))}
    (projects : Projects [] s.vars) (go : s.conn.ready = true) (here : s.conn.cursor.notEnd = true) : ¬ Delivers debug s rows := by
  have idle {s : SQLSequence Cell Val} {done rest : List (Variable Cell Val)} (none' : projectedReaders rest = []) :
      readVars debug done rest s = .ok () s := by
    induction rest generalizing done with
    | nil => rfl
    | cons v rest ih =>
      unfold projectedReaders at none'
      cases projected : v.projected with
      | true =>
        rw [List.filter_cons_of_pos projected] at none'
        cases none'
      | false =>
        rw [List.filter_cons_of_neg (by simp [projected])] at none'
        rw [readVars_skip projected]
        exact ih none'
  rintro ⟨n, -, stop⟩
  induction n generalizing s with
  | zero => cases stop
  | succ n ih =>
    have clear := projects.of_signature s.clearRead_signature
    rw [readRows, read_ok (s := s.clearRead) rfl go here (idle clear.readers)] at stop
    exact ih clear go here stop

/-- A series of reads over a result set with rows that ends takes every cell of it. -/
theorem cells_of_delivers {r : ResultSet Cell} {debug : Bool} {readers : List (Reader Cell Val)}
    {s : SQLSequence Cell Val} {rows : List (List (Option Val))} (projects : Projects readers s.vars)
    (cursor : s.conn.cursor = ⟨0, 0, r.columns, r.rows.length, true⟩)
    (stands : s.conn.Stands) (delivers : Delivers debug s rows) :
    max r.rows.length 1 * r.columns = castsPerRead debug * readers.length * rows.length := by
  obtain ⟨n, rows', stop⟩ := delivers
  have taken := readRows_left stands projects stop
  have count := congrArg List.length rows'
  rw [List.length_map] at count
  rw [← count, ← taken, cursor, Cursor.left]
  simp

/-- A sequence over a result set without NULL cells delivers exactly its rows if there is
one, `d_status` holds their columns and no debug message takes cells of its own. There is a reader and a
variable for each column; what the memory behind a cell that was not fetched holds is left open. -/
theorem delivers_iff (c : Odbc Cell) (r : ResultSet Cell) (memory : Nat → Cell)
    {readers : List (Reader Cell Val)} {vars : List (Variable Cell Val)} (columns : Columns readers vars)
    (width : vars.length = r.columns) (k : Nat) (debug : Bool) :
    (∃ s, built c (r.answer memory) vars k = .ok s ∧
      Delivers debug s (r.rows.map (List.zipWith Reader.out readers))) ↔
    r.rows ≠ [] ∧ r.columns ≤ bufSize ∧ debug = false := by
  rw [built_eq c (r.answer memory) r.columns_pos]
  have go : (c.query (r.answer memory)).ready = true := rfl
  have here : (c.query (r.answer memory)).cursor.notEnd = true := Cursor.reset_notEnd r.columns_pos
  constructor
  · rintro ⟨s, e, delivers⟩
    cases e
    have some : r.rows ≠ [] := by
      intro empty
      rw [empty] at delivers
      exact not_delivers_nil go here delivers
    have status : r.columns ≤ bufSize := by
      by_contra wide
      have nonempty : vars ≠ [] := by
        rintro rfl
        have := r.columns_pos
        rw [← width] at this
        cases this
      have readers' : readers ≠ [] := fun none' => nonempty (List.map_eq_nil_iff.1 (columns.readers.trans none'))
      exact not_delivers_wide columns.projects readers' go here (Nat.lt_of_not_le wide) Nat.one_pos delivers
    have stands := c.query_stands (r.answer memory) r.columns_pos status
    refine ⟨some, status, ?_⟩
    have cells := cells_of_delivers columns.projects (c.query_cursor _ r.columns_pos) stands delivers
    have nonempty : 0 < r.rows.length := List.length_pos_iff.2 some
    rw [List.length_map, Nat.max_eq_left nonempty, ← columns.readers, List.length_map, width, Nat.mul_comm] at cells
    have once : r.columns = castsPerRead debug * r.columns := Nat.eq_of_mul_eq_mul_right nonempty cells
    cases debug with
    | false => rfl
    | true =>
      have columns_pos := r.columns_pos
      change r.columns = 2 * r.columns at once
      omega
  · rintro ⟨some, status, rfl⟩
    have nonempty : 0 < r.rows.length := List.length_pos_iff.2 some
    have stands := c.query_stands (r.answer memory) r.columns_pos status
    refine ⟨_, rfl, r.rows.length + 1, ?_⟩
    refine readRows_from (i := 0) (Nat.zero_add _) (fun lt => ?_) (fun none => by omega) columns.projects ?_
    · exact ⟨r.rows[0], .start stands (c.query_cursor _ r.columns_pos) (List.getElem?_eq_getElem lt) rfl rfl rfl⟩
    · rw [← columns.readers, List.length_map, width]
      exact Nat.one_mul _

/-- A result set of one column without rows, and its sequence. -/
def emptySet : ResultSet Nat := ⟨1, [], nofun, Nat.one_pos, Odbc.one_column, by decide⟩

def numbers : List (Variable Nat Nat) := [⟨"n".toList, .simple (.cast_func id), true, false, false, none⟩]

/-- The empty result set delivers a row: the memory `query` allocated. -/
theorem empty_set_delivers_row :
    (∃ s, built (Odbc.new (fun _ => 0) fun _ => false) (emptySet.answer fun _ => 0) numbers 1 = .ok s ∧
      (readRows false 2 s).1.map Prod.fst = [[some 0]] ∧ (readRows false 2 s).2.1 = .ended) ∧
    ¬ ∃ s, built (Odbc.new (fun _ => 0) fun _ => false) (emptySet.answer fun _ => 0) numbers 1 = .ok s ∧
      Delivers false s [] := by
  rw [built_eq _ _ emptySet.columns_pos]
  refine ⟨⟨_, rfl, rfl, rfl⟩, ?_⟩
  rintro ⟨s, e, delivers⟩
  cases e
  exact not_delivers_nil rfl rfl delivers

def twoRows : ResultSet Nat :=
  ⟨1, [[7], [8]], by decide, Nat.one_pos, Odbc.one_column, by decide⟩

/-- Two rows of one number arrive as they are. -/
theorem two_rows_delivered :
    ∃ s, built (Odbc.new (fun _ => 0) fun _ => false) (twoRows.answer fun _ => 0) numbers 1 = .ok s ∧
      Delivers false s [[some 7], [some 8]] :=
  (delivers_iff _ twoRows _ (⟨rfl, by decide, by decide⟩ : Columns [.simple (.cast_func id)] numbers) rfl 1 false).2
    ⟨by decide, by decide, rfl⟩

end SQLSequence

end SqlHandler
