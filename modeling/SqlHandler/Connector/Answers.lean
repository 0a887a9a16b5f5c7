import SqlHandler.Connector.Driver
import SqlHandler.Stl.Lockstep

/-!
# What the answers of the driver come to

A query and the arrays it fills, told without the connector: the calls that have to succeed,
one after the other, and the checks, whose message names the first record of the handles. The
connector gives just these outcomes as long as no check has failed before, `Settled`.
-/

namespace SqlHandler
open Posix Lockstep

namespace ODBCConnector
variable (active : CheckPoint → Bool) (D : Driver)

/-! ## Outcomes -/

/-- The message of a check, by the records of the connection, the statement and the environment. -/
def blame (conn stmt env : List DiagRec) : Str :=
  (([conn, stmt, env].findSome? fun records => getDiagRec records 1).map DiagRec.text).getD
    "Unable to get error message".toList

/-- The outcome of a check. -/
def judge (check : CheckPoint) (rc : Return) (message : Str) : Except Fault Unit :=
  if Checked active check ∧ rc.failed = true then .error (.error ⟨.sqlInternalFatalError, message⟩) else .ok ()

/-- The outcome of a call that has to succeed. -/
def demand (reply : Reply) (message : Str) : Except Fault Reply :=
  if reply.rc.succeeded then .ok reply else .error (.error ⟨.besInternalError, message⟩)

/-- The driver's answer on a property of a column. -/
def described (p : Property) (column : Nat) : Reply := D.answer (.colAttribute (column + 1) p.field)

/-- The element the answer makes. -/
def value (p : Property) (column : Nat) : p.Elem := p.read (described D p column)

/-- The outcome of the loop that fills an array. -/
def filling (p : Property) (conn env : List DiagRec) : Nat → Nat → Except Fault Unit
  | _, 0 => .ok ()
  | col, left + 1 => do
    judge active p.point (described D p col).rc (blame conn (described D p col).records env)
    filling p conn env (col + 1) left

/-- The outcome of the loop that binds the buffers. -/
def binding : Nat → Nat → Except Fault Unit
  | _, 0 => .ok ()
  | i, left + 1 => do
    let _ ← demand (D.answer (.bindCol (i + 1) (value D .types i) (value D .sizes i)))
      "ODBC SQL Error: Couldn't bind result set to local variables".toList
    binding (i + 1) left

/-- The rows `getRowCount` answers. -/
def counting (sql : Except Fault Str) : Except Fault Nat := do
  let sql ← sql
  let _ ← demand (D.answer (.execCount sql)) "ODBC SQL Error: Couldn't exec query".toList
  let _ ← demand (D.answer .fetchCount) "ODBC SQL Error: Couldn't fetch row".toList
  let count ← demand (D.answer .dataCount) "ODBC SQL Error: Couldn't extract row count".toList
  if count.isNull then
    throw (.error ⟨.besInternalError, "ODBC SQL Error: Unexpected null value returned by the database".toList⟩)
  return (count.number % 2 ^ 32).toNat

/-- The columns of the statement. -/
def columns : Nat := (D.answer .numResultCols).number.toNat

/-- The records of the connection and of the environment while a statement is in force. -/
def connRecords : List DiagRec := (D.answer .allocStmt).records

def envRecords : List DiagRec := (D.answer .allocConn).records

/-- The outcome of `query`: the rows and the columns. -/
def querying (s : Statements) : Except Fault (Nat × Nat) := do
  let rows ← counting D s.count
  let sql ← s.data
  let _ ← demand (D.answer (.exec sql)) "ODBC SQL Error: Couldn't exec query".toList
  let _ ← demand (D.answer .numResultCols) "ODBC SQL Error: Couldn't get column number".toList
  filling active D .sizes (connRecords D) (envRecords D) 0 (columns D)
  filling active D .types (connRecords D) (envRecords D) 0 (columns D)
  binding D 0 (columns D)
  return (rows, columns D)

/-! ## A connector no check of which has failed -/

structure Settled (conn env : List DiagRec) (c : ODBCConnector) : Prop where
  seq : c.msgSeq = fun _ => 1
  conn : c.records .conn = conn
  env : c.records .env = env

variable {active D} {conn env : List DiagRec} {c c' : ODBCConnector} {p : Property}

theorem Settled.report (h : Settled conn env c) : c.report = blame conn (c.records .stmt) env := by
  unfold ODBCConnector.report ODBCConnector.unread blame
  rw [h.seq]
  simp only [List.findSome?_cons, List.findSome?_nil, h.conn, h.env]

theorem Settled.resetSeq (h : Settled conn env c) : c.resetSeq = c := by
  unfold ODBCConnector.resetSeq
  rw [← h.seq]

theorem judge_bad {check : CheckPoint} {rc : Return} (bad : Checked active check ∧ rc.failed = true) (message : Str) :
    judge active check rc message = .error (.error ⟨.sqlInternalFatalError, message⟩) := if_pos bad

theorem judge_good {check : CheckPoint} {rc : Return} (good : ¬ (Checked active check ∧ rc.failed = true)) (message : Str) :
    judge active check rc message = .ok () := if_neg good

theorem Settled.trigger_good (h : Settled conn env c) {check : CheckPoint}
    (good : ¬ (Checked active check ∧ c.rc.failed = true)) : trigger active check c = .ok () c := by
  by_cases on : Checked active check
  · rw [trigger_passed on (Bool.eq_false_iff.2 fun failed => good ⟨on, failed⟩), h.resetSeq]
  · exact trigger_unchecked on

theorem Settled.trigger_bad (h : Settled conn env c) {check : CheckPoint} (bad : Checked active check ∧ c.rc.failed = true) :
    trigger active check c =
      .error (.error ⟨.sqlInternalFatalError, blame conn (c.records .stmt) env⟩) c.reported := by
  rw [trigger_failed bad.1 bad.2, h.report]

/-- A check of a settled connector leaves it as it is, or fails. -/
theorem Settled.trigger (h : Settled conn env c) (active : CheckPoint → Bool) (check : CheckPoint) :
    Gives (fun _ c' => c' = c) (trigger active check c)
      (judge active check c.rc (blame conn (c.records .stmt) env)) := by
  by_cases bad : Checked active check ∧ c.rc.failed = true
  · rw [judge_bad bad, h.trigger_bad bad]
    exact .error
  · rw [judge_good bad, h.trigger_good bad]
    exact .ok rfl

/-- A call on the statement keeps a connector settled. -/
theorem Settled.call (h : Settled conn env c) {r : DriverRequest} (on : r.on = some .stmt) (makes : r.makes = none)
    (reply : Reply) (rc : Return) : Settled conn env ((c.afterCall r reply).setRc rc) where
  seq := h.seq
  conn := by
    change (if r.makes = some .conn then [] else if r.on = some .conn then reply.records else c.records .conn) = conn
    rw [if_neg (by rw [makes]; exact nofun), if_neg (by rw [on]; decide), h.conn]
  env := by
    change (if r.makes = some .env then [] else if r.on = some .env then reply.records else c.records .env) = env
    rw [if_neg (by rw [makes]; exact nofun), if_neg (by rw [on]; decide), h.env]

theorem stmt_records (c : ODBCConnector) {r : DriverRequest} (on : r.on = some .stmt) (makes : r.makes = none)
    (reply : Reply) (rc : Return) : ((c.afterCall r reply).setRc rc).records .stmt = reply.records := by
  change (if r.makes = some .stmt then [] else if r.on = some .stmt then reply.records else c.records .stmt) = _
  rw [if_neg (by rw [makes]; exact nofun), if_pos on]

/-! ## Filling an array -/

/-- The connector after one round of the loop. -/
def filledAt (D : Driver) (p : Property) (col : Nat) (c : ODBCConnector) : ODBCConnector :=
  store p col (value D p col)
    ((c.afterCall (.colAttribute (col + 1) p.field) (described D p col)).setRc (described D p col).rc)

theorem element_ok {reply : Reply} (run : ODBCConnector.trigger active p.point c = .ok () c') :
    element active p reply c = .ok (p.read reply) c' := by
  unfold element
  rw [run]

theorem element_fatal {reply : Reply} {message : Str}
    (run : ODBCConnector.trigger active p.point c = .error (.error ⟨.sqlInternalFatalError, message⟩) c') :
    element active p reply c = .error (.error ⟨.sqlInternalFatalError, message⟩) c' := by
  unfold element
  rw [run]

theorem askRc_run (D : Driver) (r : DriverRequest) (c : ODBCConnector) :
    askRc D r c = .ok (D.answer r) ((c.afterCall r (D.answer r)).setRc (D.answer r).rc) := rfl

/-- One round of the loop on a settled connector, or its check fails. -/
theorem Settled.fillColumn (h : Settled conn env c) (active : CheckPoint → Bool) (p : Property) (col : Nat) :
    Gives (fun _ c' => c' = filledAt D p col c) (fillColumn active D p col c)
      (judge active p.point (described D p col).rc (blame conn (described D p col).records env)) := by
  have on : (DriverRequest.colAttribute (col + 1) p.field).on = some .stmt := rfl
  have called := h.call on rfl (described D p col) (described D p col).rc
  have asked : askRc D (.colAttribute (col + 1) p.field) c =
      .ok (described D p col) ((c.afterCall _ (described D p col)).setRc (described D p col).rc) := rfl
  unfold ODBCConnector.fillColumn
  rw [Proc.bind_ok asked]
  by_cases bad : Checked active p.point ∧ (described D p col).rc.failed = true
  · have thrown := called.trigger_bad bad
    rw [stmt_records c on rfl] at thrown
    rw [judge_bad bad, Proc.bind_error (element_fatal thrown)]
    exact .error
  · rw [judge_good bad, Proc.bind_ok (element_ok (called.trigger_good bad))]
    exact .ok rfl

theorem filledAt_stmt (D : Driver) (p : Property) (col : Nat) (c : ODBCConnector) :
    (filledAt D p col c).records .stmt = (described D p col).records :=
  stmt_records c (r := .colAttribute (col + 1) p.field) rfl rfl (described D p col) (described D p col).rc

theorem filledAt_array (D : Driver) (col : Nat) {l : List p.Elem} (array : c.arrays p = some l) :
    (filledAt D p col c).arrays p = some (l.set col (value D p col)) := by
  change Function.update c.arrays p ((c.arrays p).map fun l => l.set col (value D p col)) p = _
  rw [Function.update_self, array]
  rfl

theorem filledAt_other (D : Driver) (col : Nat) (c : ODBCConnector) {q : Property} (other : q ≠ p) :
    (filledAt D p col c).arrays q = c.arrays q :=
  Function.update_of_ne other _ _

theorem Settled.filledAt (h : Settled conn env c) (D : Driver) (p : Property) (col : Nat) :
    Settled conn env (filledAt D p col c) :=
  have called := h.call (r := .colAttribute (col + 1) p.field) rfl rfl (described D p col) (described D p col).rc
  ⟨called.seq, called.conn, called.env⟩

/-- The array of `p` holds the first `n` elements of the columns, and behind them what `new` made. -/
structure Filling (D : Driver) (p : Property) (c₀ : ODBCConnector) (n total : Nat) (c : ODBCConnector) : Prop where
  cursor : c.cursor = c₀.cursor
  ready : c.ready = c₀.ready
  array : c.arrays p = some ((List.range n).map (value D p) ++ List.replicate (total - n) p.initial)
  others : ∀ q, q ≠ p → c.arrays q = c₀.arrays q
  rc : 0 < n → c.rc = (described D p (n - 1)).rc
  stmt : 0 < n → c.records .stmt = (described D p (n - 1)).records

theorem Filling.next {c₀ : ODBCConnector} {n total : Nat} (h : Filling D p c₀ n total c) (more : n < total) :
    Filling D p c₀ (n + 1) total (filledAt D p n c) where
  cursor := h.cursor
  ready := h.ready
  array := by
    have length : ((List.range n).map (value D p)).length = n := by simp
    rw [filledAt_array D n h.array, List.set_append_right _ _ (Nat.le_of_eq length), length, Nat.sub_self,
      show total - n = total - (n + 1) + 1 by omega, List.replicate_succ, List.set_cons_zero, List.range_succ,
      List.map_append, List.append_assoc]
    rfl
  others q other := (filledAt_other D n c other).trans (h.others q other)
  rc _ := rfl
  stmt _ := filledAt_stmt D p n c

/-- The loop, from a column on. -/
theorem Settled.fill (h : Settled conn env c) (active : CheckPoint → Bool) {c₀ : ODBCConnector} {col left total : Nat}
    (part : Filling D p c₀ col total c) (rest : col + left = total) :
    Gives (fun _ c' => Filling D p c₀ total total c' ∧ Settled conn env c') (fill active D p col left c)
      (filling active D p conn env col left) := by
  induction left generalizing col c with
  | zero =>
    obtain rfl : col = total := rest
    exact .ok ⟨part, h⟩
  | succ left ih =>
    unfold ODBCConnector.fill filling
    refine (h.fillColumn active p col).bind fun _ c' _ round => ?_
    obtain rfl := round
    exact ih (h.filledAt D p col) (part.next (by omega)) (by omega)

/-! ## The getters -/

/-- The array of `p` is full. -/
def Full (D : Driver) (p : Property) (c : ODBCConnector) : Prop :=
  c.arrays p = some ((List.range c.cursor.columns).map (value D p))

theorem lookup_full {column : Nat} (inside : column < c.cursor.columns) :
    lookup p column ((List.range c.cursor.columns).map (value D p)) c = .ok (value D p column) c := by
  unfold lookup
  rw [if_pos inside, List.getElem?_map, List.getElem?_range inside]
  rfl

theorem stored_full {column : Nat} (full : Full D p c) (inside : column < c.cursor.columns) :
    stored p column c = .ok (value D p column) c := by
  unfold stored
  rw [full]
  exact lookup_full inside

/-- An array that is full answers without the driver. -/
theorem getProperty_full (active : CheckPoint → Bool) {D' : Driver} {column : Nat} (full : Full D p c)
    (inside : column < c.cursor.columns) : getProperty active D' p column c = .ok (value D p column) c := by
  unfold getProperty
  rw [full]
  exact stored_full full inside

theorem Filling.full {c₀ : ODBCConnector} {n : Nat} (h : Filling D p c₀ n n c) (columns : c₀.cursor.columns = n) :
    Full D p c := by
  unfold Full
  rw [h.cursor, columns, h.array, Nat.sub_self, List.replicate_zero, List.append_nil]

/-- The first call fills the array. -/
theorem Settled.getProperty (h : Settled conn env c) (active : CheckPoint → Bool) {column : Nat} (empty : c.arrays p = none)
    (inside : column < c.cursor.columns) :
    Gives (fun v c' => v = value D p column ∧ Filling D p c c.cursor.columns c.cursor.columns c' ∧ Settled conn env c')
      (getProperty active D p column c)
      (filling active D p conn env 0 c.cursor.columns >>= fun _ => .ok (value D p column)) := by
  have some' : 0 < c.cursor.columns := Nat.lt_of_le_of_lt (Nat.zero_le _) inside
  have begun : Filling D p c 0 c.cursor.columns (allocate p c) :=
    ⟨rfl, rfl, Function.update_self _ _ _, fun q other => Function.update_of_ne other _ _, (absurd · (Nat.lt_irrefl 0)),
      (absurd · (Nat.lt_irrefl 0))⟩
  have settled : Settled conn env (allocate p c) := ⟨h.seq, h.conn, h.env⟩
  have made : make active D p c = ODBCConnector.fill active D p 0 c.cursor.columns (allocate p c) := by
    unfold make
    rw [Proc.get_bind, if_pos some']
    rfl
  have filled := settled.fill active begun (Nat.zero_add _)
  rw [← made] at filled
  unfold ODBCConnector.getProperty
  rw [empty]
  refine filled.bind fun _ c' _ ⟨full, settled⟩ => ?_
  have inside' : column < c'.cursor.columns := by rwa [full.cursor]
  rw [stored_full (full.full rfl) inside']
  exact .ok ⟨rfl, full, settled⟩

/-! ## The loops of `query` -/

/-- The loop that makes the buffers, once the sizes are there. -/
theorem measure_full (active : CheckPoint → Bool) (full : Full D .sizes c) {col left : Nat}
    (inside : col + left ≤ c.cursor.columns) : measure active D col left c = .ok () c := by
  induction left generalizing col with
  | zero => rfl
  | succ left ih =>
    unfold measure
    have size : getColSize active D col c = .ok (value D .sizes col) c :=
      getProperty_full active full (by omega)
    rw [Proc.bind_ok size]
    exact ih (by omega)

/-- The sizes, asked for while the buffers are made. -/
theorem Settled.measure (h : Settled conn env c) (active : CheckPoint → Bool) (empty : c.arrays .sizes = none)
    (some' : 0 < c.cursor.columns) :
    Gives (fun _ c' => Filling D .sizes c c.cursor.columns c.cursor.columns c' ∧ Settled conn env c')
      (measure active D 0 c.cursor.columns c) (filling active D .sizes conn env 0 c.cursor.columns) := by
  have first := h.getProperty (D := D) active empty some'
  rw [← bind_unit (filling active D .sizes conn env 0 c.cursor.columns), ← bind_value _ (value D .sizes 0) fun _ => .ok ()]
  obtain ⟨n, columns⟩ := Nat.exists_eq_succ_of_ne_zero (Nat.ne_of_gt some')
  have turn : ODBCConnector.measure active D 0 c.cursor.columns =
      (getColSize active D 0 >>= fun _ => ODBCConnector.measure active D 1 n) := by
    rw [columns]
    rfl
  rw [turn]
  refine Gives.bind first fun _ c' _ made => ?_
  obtain ⟨-, full, settled⟩ := made
  have width : 1 + n ≤ c'.cursor.columns := by rw [full.cursor]; omega
  rw [measure_full active (full.full rfl) width]
  exact .ok ⟨full, settled⟩

/-- A call that has to succeed. -/
theorem require_gives (D : Driver) (r : DriverRequest) (message : Str) (c : ODBCConnector) :
    Gives (fun reply c' => reply = D.answer r ∧ reply.rc.succeeded = true ∧
        c' = (c.afterCall r (D.answer r)).setRc (D.answer r).rc)
      (require D r message c) (demand (D.answer r) message) := by
  unfold require demand
  rw [Proc.bind_ok (askRc_run D r c)]
  cases rc : (D.answer r).rc.succeeded with
  | true => exact .ok ⟨rfl, rc, rfl⟩
  | false => exact .error

theorem passed_of_succeeded {rc : Return} (h : rc.succeeded = true) : rc.failed = false := by
  cases rc <;> first | rfl | cases h

/-- The loop that binds the buffers, once the arrays are there. -/
theorem Settled.bindCols (h : Settled conn env c) (active : CheckPoint → Bool) (types : Full D .types c)
    (sizes : Full D .sizes c) {i left : Nat} (inside : i + left = c.cursor.columns) (before : 0 < left ∨ c.rc.failed = false) :
    Gives (fun _ c' => c'.cursor = c.cursor ∧ c'.ready = c.ready ∧ c'.arrays = c.arrays ∧ c'.rc.failed = false ∧
        Settled conn env c')
      (bindCols active D i left c) (binding D i left) := by
  induction left generalizing i c with
  | zero => exact .ok ⟨rfl, rfl, rfl, before.resolve_left (Nat.lt_irrefl 0), h⟩
  | succ left ih =>
    have type : getType active D i c = .ok (value D .types i) c := getProperty_full active types (by omega)
    have size : getColSize active D i c = .ok (value D .sizes i) c := getProperty_full active sizes (by omega)
    unfold ODBCConnector.bindCols binding
    rw [Proc.bind_ok type, Proc.bind_ok size]
    refine (require_gives D _ _ c).bind fun reply c' _ made => ?_
    obtain ⟨rfl, succeeded, rfl⟩ := made
    have rest : i + 1 + left = c.cursor.columns := by omega
    exact ih (h.call rfl rfl _ _) types sizes rest (.inr (passed_of_succeeded succeeded))

/-- Both loops of `query` and the arrays behind them. -/
theorem Settled.loops (h : Settled conn env c) (active : CheckPoint → Bool) (sizes : c.arrays .sizes = none)
    (types : c.arrays .types = none) (passed : c.rc.failed = false) :
    Gives (fun _ c' => c'.cursor = c.cursor ∧ (0 < c.cursor.columns → Full D .types c' ∧ Full D .sizes c') ∧
        (∀ p, p ≠ .types → p ≠ .sizes → c'.arrays p = c.arrays p) ∧ c'.rc.failed = false ∧ Settled conn env c')
      ((do ODBCConnector.measure active D 0 c.cursor.columns; ODBCConnector.bindCols active D 0 c.cursor.columns) c)
      (do
        filling active D .sizes conn env 0 c.cursor.columns
        filling active D .types conn env 0 c.cursor.columns
        binding D 0 c.cursor.columns) := by
  rcases Nat.eq_zero_or_pos c.cursor.columns with none' | some'
  · rw [none']
    exact .ok ⟨rfl, (absurd · (Nat.lt_irrefl 0)), fun _ _ _ => rfl, passed, h⟩
  · refine (h.measure active sizes some').bind fun _ c₁ _ measured => ?_
    obtain ⟨measured, settled⟩ := measured
    have columns : c₁.cursor.columns = c.cursor.columns := by rw [measured.cursor]
    have empty : c₁.arrays .types = none := (measured.others .types nofun).trans types
    have some₁ : 0 < c₁.cursor.columns := by omega
    have first := settled.getProperty (D := D) active empty some₁
    obtain ⟨n, width⟩ := Nat.exists_eq_succ_of_ne_zero (Nat.ne_of_gt some')
    rw [columns] at first
    rw [width] at first ⊢
    rw [← bind_value _ (value D .types 0) fun _ => binding D 0 (n + 1)]
    refine Gives.bind first fun type c₂ _ made => ?_
    obtain ⟨rfl, typed, settled⟩ := made
    -- what is left of the loop is the loop again, on the arrays it has
    have columns₂ : c₂.cursor.columns = n + 1 := by rw [typed.cursor, columns, width]
    have full : Full D .types c₂ := typed.full (columns.trans width)
    have sized : Full D .sizes c₂ := by
      unfold Full
      rw [typed.others .sizes nofun, typed.cursor]
      exact measured.full rfl
    have type : getType active D 0 c₂ = .ok (value D .types 0) c₂ := getProperty_full active full (by omega)
    have width₂ : 0 + (n + 1) = c₂.cursor.columns := by omega
    have rest := settled.bindCols active full sized width₂ (.inl (Nat.succ_pos n))
    unfold ODBCConnector.bindCols at rest
    rw [Proc.bind_ok type] at rest
    refine rest.weaken fun _ c₃ _ last => ?_
    obtain ⟨cursor, -, arrays, passed, settled⟩ := last
    have same : c₃.cursor = c.cursor := by rw [cursor, typed.cursor, measured.cursor]
    refine ⟨same, fun _ => ⟨?_, ?_⟩, fun p first second => ?_, passed, settled⟩
    · unfold Full
      rw [arrays, cursor]
      exact full
    · unfold Full
      rw [arrays, cursor]
      exact sized
    · rw [arrays, typed.others p first, measured.others p second]

/-! ## A query -/

/-- A call neither on the environment nor on an attribute of the statement. -/
structure Apart (c c' : ODBCConnector) : Prop where
  cursor : c'.cursor = c.cursor
  ready : c'.ready = c.ready
  arrays : c'.arrays = c.arrays
  seq : c'.msgSeq = c.msgSeq
  env : c'.records .env = c.records .env

theorem Apart.trans {c₁ c₂ c₃ : ODBCConnector} (h : Apart c₁ c₂) (h' : Apart c₂ c₃) : Apart c₁ c₃ :=
  ⟨h'.cursor.trans h.cursor, h'.ready.trans h.ready, h'.arrays.trans h.arrays, h'.seq.trans h.seq, h'.env.trans h.env⟩

theorem apart_call (c : ODBCConnector) {r : DriverRequest} (on : r.on ≠ some .env) (makes : r.makes ≠ some .env)
    (reply : Reply) : Apart c (c.afterCall r reply) where
  cursor := rfl
  ready := rfl
  arrays := rfl
  seq := rfl
  env := by
    change (if r.makes = some .env then [] else if r.on = some .env then reply.records else c.records .env) = c.records .env
    rw [if_neg makes, if_neg on]

/-- A call that has to succeed, apart from the environment. -/
theorem require_apart (D : Driver) {r : DriverRequest} (on : r.on ≠ some .env) (makes : r.makes ≠ some .env)
    (message : Str) (c : ODBCConnector) : Gives (fun reply c' => reply = D.answer r ∧ reply.rc.succeeded = true ∧ c'.rc = reply.rc ∧ Apart c c')
      (require D r message c) (demand (D.answer r) message) := by
  refine (require_gives D r message c).weaken fun reply c' _ made => ?_
  obtain ⟨rfl, succeeded, rfl⟩ := made
  have apart := apart_call c on makes (D.answer r)
  exact ⟨rfl, succeeded, rfl, apart.cursor, apart.ready, apart.arrays, apart.seq, apart.env⟩

theorem given_gives {α : Type} (o : Except Fault α) (c : ODBCConnector) :
    Gives (fun a c' => o = .ok a ∧ c' = c) (SQLActionFactory.given o c : EStateM.Result Fault ODBCConnector α) o := by
  cases o with
  | ok a => exact .ok ⟨rfl, rfl⟩
  | error fault => exact .error

theorem getRowCount_gives (D : Driver) (sql : Except Fault Str) (c : ODBCConnector) :
    Gives (fun _ c' => Apart c c') (getRowCount D sql c) (counting D sql) := by
  have alloc : Apart c (c.afterCall .allocCount (D.answer .allocCount)) := apart_call c (by decide) (by decide) _
  have asked : ask D .allocCount c = .ok (D.answer .allocCount) (c.afterCall .allocCount (D.answer .allocCount)) := rfl
  unfold getRowCount counting
  rw [Proc.bind_ok asked]
  refine (given_gives sql _).bind fun sql c₁ _ same => ?_
  obtain ⟨-, rfl⟩ := same
  refine (require_apart D (r := .execCount sql) (fun h => by cases h) (fun h => by cases h) _ _).bind fun _ c₂ _ executed => ?_
  refine (require_apart D (r := .fetchCount) (by decide) (by decide) _ _).bind fun _ c₃ _ fetched => ?_
  refine (require_apart D (r := .dataCount) (by decide) (by decide) _ _).bind fun count c₄ _ read => ?_
  have so_far := ((alloc.trans executed.2.2.2).trans fetched.2.2.2).trans read.2.2.2
  cases count.isNull with
  | true => exact .error
  | false => exact .ok (so_far.trans (apart_call c₄ (r := .freeCount) (by decide) (by decide) _))

/-- A connector between `connect` and `query`. -/
structure Connected (D : Driver) (c : ODBCConnector) : Prop where
  ready : c.ready = false
  seq : c.msgSeq = fun _ => 1
  env : c.records .env = envRecords D
  arrays : c.arrays = fun _ => none

/-- A connector whose query has succeeded. -/
structure Queried (D : Driver) (s : Statements) (c : ODBCConnector) : Prop where
  settled : Settled (connRecords D) (envRecords D) c
  rows : counting D s.count = .ok c.cursor.rows
  columns : c.cursor.columns = columns D
  start : c.cursor.reset = c.cursor
  ready : c.ready = true
  full : 0 < ODBCConnector.columns D → Full D .types c ∧ Full D .sizes c
  names : c.arrays .names = none
  descs : c.arrays .descs = none
  passed : c.rc.failed = false

theorem Connected.query (h : Connected D c) (active : CheckPoint → Bool) (s : Statements) :
    Gives (fun ret c' => ret = true ∧ Queried D s c') (query active D s c) (querying active D s >>= fun _ => .ok true) := by
  unfold ODBCConnector.query querying
  rw [Proc.get_bind, h.ready]
  change Gives _ ((getRowCount D s.count >>= _) c) _
  simp only [bind_assoc]
  refine (getRowCount_gives D s.count c).bind fun rows c₁ counted apart => ?_
  -- the connection's records are those of the call that made the statement
  have alloc := apart_call (setRows rows c₁) (r := .allocStmt) (by decide) (by decide) (D.answer .allocStmt)
  have asked : ask D .allocStmt (setRows rows c₁) =
      .ok (D.answer .allocStmt) ((setRows rows c₁).afterCall .allocStmt (D.answer .allocStmt)) := rfl
  refine Gives.step (Proc.modify_run _ _) (Gives.step asked ?_)
  refine (given_gives s.data _).bind fun sql c₂ _ same => ?_
  obtain ⟨-, rfl⟩ := same
  have settled : Settled (connRecords D) (envRecords D) ((setRows rows c₁).afterCall .allocStmt (D.answer .allocStmt)) :=
    ⟨alloc.seq.trans (apart.seq.trans h.seq), rfl, alloc.env.trans (apart.env.trans h.env)⟩
  refine (require_gives D (.exec sql) _ _).bind fun _ c₃ _ executed => ?_
  obtain ⟨rfl, -, rfl⟩ := executed
  refine (require_gives D .numResultCols _ _).bind fun cols c₄ _ sized => ?_
  obtain ⟨rfl, succeeded, rfl⟩ := sized
  refine Gives.step (Proc.modify_run _ _) ?_
  generalize five : setCols (D.answer .numResultCols).number.toNat _ = c₅
  have settled₅ : Settled (connRecords D) (envRecords D) c₅ := by
    have called := (settled.call (r := .exec sql) rfl rfl (D.answer (.exec sql)) (D.answer (.exec sql)).rc).call
      (r := .numResultCols) rfl rfl (D.answer .numResultCols) (D.answer .numResultCols).rc
    subst five
    exact ⟨called.seq, called.conn, called.env⟩
  have arrays : c₅.arrays = fun _ => none := by
    subst five
    exact apart.arrays.trans h.arrays
  have passed : c₅.rc.failed = false := by
    subst five
    exact passed_of_succeeded succeeded
  have columns₅ : c₅.cursor.columns = columns D := by
    subst five
    rfl
  have rows₅ : c₅.cursor.rows = rows := by
    subst five
    rfl
  have loops := settled₅.loops (D := D) active (by rw [arrays]) (by rw [arrays]) passed
  rw [columns₅] at loops
  have both := loops.bind (R := fun ret c' => ret = true ∧ Queried D s c')
    (f := fun _ => do trigger active .onAlways; modify start; return true)
    (g := fun _ => do let _ ← (.ok (rows, columns D) : Except Fault (Nat × Nat)); .ok true) fun _ c₆ _ done => by
      obtain ⟨cursor, full, others, passed, settled⟩ := done
      have good : ¬ (Checked active .onAlways ∧ c₆.rc.failed = true) := fun bad => by
        rw [passed] at bad
        exact Bool.false_ne_true bad.2
      rw [Proc.bind_ok (settled.trigger_good good)]
      have names : c₆.arrays .names = none := by rw [others .names nofun nofun, arrays]
      have descs : c₆.arrays .descs = none := by rw [others .descs nofun nofun, arrays]
      refine .ok ⟨rfl, ⟨settled.seq, settled.conn, settled.env⟩, ?_, ?_, ?_, rfl, ?_, names, descs, passed⟩
      · rw [counted, ← rows₅, ← cursor]
        rfl
      · change c₆.cursor.columns = columns D
        rw [cursor, columns₅]
      · rfl
      · exact full
  simp only [bind_assoc] at both
  exact both

/-! ## Closing -/

theorem ask_run (D : Driver) (r : DriverRequest) (c : ODBCConnector) :
    ask D r c = .ok (D.answer r) (c.afterCall r (D.answer r)) := rfl

/-- The connector behind `close`. -/
def closedBy (D : Driver) (c : ODBCConnector) : ODBCConnector :=
  clean ([DriverRequest.closeCursor, .freeStmt, .disconnect, .freeConn, .endTran, .freeEnv].foldl
    (fun c r => c.afterCall r (D.answer r)) c)

theorem close_run (D : Driver) (c : ODBCConnector) : close D c = .ok true (closedBy D c) := by
  unfold ODBCConnector.close
  rw [Proc.bind_ok (ask_run D .closeCursor c), Proc.bind_ok (ask_run D .freeStmt _), Proc.bind_ok (ask_run D .disconnect _),
    Proc.bind_ok (ask_run D .freeConn _), Proc.bind_ok (ask_run D .endTran _), Proc.bind_ok (ask_run D .freeEnv _)]
  rfl

theorem clean_rc (c : ODBCConnector) : (clean c).rc = c.rc := rfl

theorem afterCall_rc (r : DriverRequest) (reply : Reply) (c : ODBCConnector) : (c.afterCall r reply).rc = c.rc := rfl

/-- `close` keeps the return code, and leaves each handle the records of its last call. -/
theorem closedBy_rc (D : Driver) (c : ODBCConnector) : (closedBy D c).rc = c.rc := by
  unfold closedBy
  simp only [List.foldl_cons, List.foldl_nil, clean_rc, afterCall_rc]

theorem closedBy_stmt (D : Driver) (c : ODBCConnector) : (closedBy D c).records .stmt = (D.answer .freeStmt).records := rfl

theorem closedBy_settled (D : Driver) (c : ODBCConnector) :
    Settled (D.answer .freeConn).records (D.answer .freeEnv).records (closedBy D c) := ⟨rfl, rfl, rfl⟩

end ODBCConnector

end SqlHandler
