import SqlHandler.DTM.Sequence

/-!
# What a read takes from the connector

A cast takes one cell, so a read of a variable takes one, and two under debugging.
`Accounted` says this of the loop over the variables: the cells taken and the
variables stored keep in step, and where a read stops they tell at which cast.
-/

namespace SqlHandler
open Posix

variable {Cell Val : Type}

/-- The cells a read of a variable takes. -/
def castsPerRead (debug : Bool) : Nat := if debug then 2 else 1

namespace Odbc

/-- The next read returns the substitute of a NULL cell. -/
def NullHere (c : Odbc Cell) : Prop :=
  ∃ n, c.fetched.d_buf[c.cursor.columnPosition]? = some (.address n)

end Odbc

namespace Variable

/-- A read of the sequence reads this variable from the connector. -/
def waits (v : Variable Cell Val) : Bool := v.projected && !v.read_p && v.fromConnector

def filled (v : Variable Cell Val) : Bool := v.fromConnector && v.read_p

/-- A cast that copies the cell does not survive the substitute of a NULL cell. -/
def Crashes (c : Odbc Cell) (v : Variable Cell Val) : Prop :=
  (∃ out, v.reader = .simple (.cast_string out)) ∧ c.NullHere

theorem deref_cases (p : Pointer) (c : Odbc Cell) :
    (∃ cell, Odbc.deref p c = .ok cell c) ∨ ((∃ n, p = .address n) ∧ Odbc.deref p c = .error .undefined c) := by
  cases p with
  | bound column => exact .inl ⟨c.memory column, rfl⟩
  | address n => exact .inr ⟨⟨n, rfl⟩, rfl⟩

theorem store_cases (action : CastAction Cell Val) (x : Casted Val) (c : Odbc Cell) :
    (∃ v, store action x c = .ok v c) ∨ store action x c = .error .undefined c := by
  cases x with
  | value v => exact .inl ⟨v, rfl⟩
  | pointer p =>
    rcases deref_cases p c with ⟨cell, h⟩ | ⟨-, h⟩
    · cases action <;> exact .inl ⟨_, by unfold store; exact Proc.bind_ok h⟩
    · cases action <;> exact .inr (by unfold store; exact Proc.bind_error h)

/-- What a cast makes of the call it does. -/
theorem cast_of_next (action : CastAction Cell Val) {c c' : Odbc Cell} {p : Pointer} (go : c.ready = true)
    (run : Odbc.getNext 1 c = .ok p c') :
    cast action c = (match action with
      | .cast_string out => return .value (out (← Odbc.deref p))
      | .cast_func _ => return .pointer p : Proc (Odbc Cell) (Casted Val)) c' := by
  unfold cast
  rw [Proc.get_bind]
  simp only [go, if_true]
  refine (Proc.bind_ok run).trans ?_
  cases action <;> rfl

theorem cast_of_error (action : CastAction Cell Val) {c c' : Odbc Cell} {f : Fault} (go : c.ready = true)
    (run : Odbc.getNext 1 c = .error f c') : cast action c = .error f c' := by
  unfold cast
  rw [Proc.get_bind]
  simp only [go, if_true]
  exact Proc.bind_error run

/-- A call that fails makes the read fail, debugged or not. -/
theorem readSimple_error {debug : Bool} (action : CastAction Cell Val) {c c' : Odbc Cell} {f : Fault}
    (go : c.ready = true) (run : Odbc.getNext 1 c = .error f c') : readSimple debug action c = .error f c' := by
  cases debug <;> exact Proc.bind_error (cast_of_error action go run)

/-- A cast that copies does not survive a number taken for an address, debugged or not. -/
theorem readSimple_address {debug : Bool} (out : Cell → Val) {c c' : Odbc Cell} {n : Nat} (go : c.ready = true)
    (run : Odbc.getNext 1 c = .ok (.address n) c') : readSimple debug (.cast_string out) c = .error .undefined c' := by
  have crash : cast (.cast_string out) c = .error .undefined c' := by
    rw [cast_of_next _ go run]
    rfl
  cases debug <;> exact Proc.bind_error crash

/-- Without debugging a read hands over the cell behind the pointer. -/
theorem readSimple_ok (action : CastAction Cell Val) {c c' : Odbc Cell} {p : Pointer} {cell : Cell}
    (go : c.ready = true) (run : Odbc.getNext 1 c = .ok p c') (copy : Odbc.deref p c' = .ok cell c') :
    readSimple false action c = .ok (action.out cell) c' := by
  change (cast action >>= store action) c = _
  cases action with
  | cast_string out =>
    have first : cast (.cast_string out) c = .ok (.value (out cell)) c' := by
      rw [cast_of_next _ go run]
      exact Proc.bind_ok copy
    exact Proc.bind_ok first
  | cast_func val2buf => exact (Proc.bind_ok (cast_of_next _ go run)).trans (Proc.bind_ok copy)

/-- A cast takes one cell, or throws at the end. -/
theorem cast_cases (action : CastAction Cell Val) {c : Odbc Cell} (h : c.Stands) :
    (c.cursor.notEnd = true ∧ ∃ x, cast action c = .ok x c.read) ∨
    (c.cursor.notEnd = true ∧ (∃ out, action = .cast_string out) ∧ c.NullHere ∧
      cast action c = .error .undefined c.read) ∨
    (c.cursor.notEnd = false ∧ ∃ e, cast action c = .error (.error e) c) := by
  cases here : c.cursor.notEnd with
  | false => exact .inr (.inr ⟨rfl, _, cast_of_error action h.ready (Odbc.getNext_end (.inr here))⟩)
  | true =>
    obtain ⟨p, entry, run⟩ := Odbc.getNext_ok h here
    rw [cast_of_next action h.ready run]
    cases action with
    | cast_func val2buf => exact .inl ⟨rfl, _, rfl⟩
    | cast_string out =>
      rcases deref_cases p c.read with ⟨cell, copy⟩ | ⟨⟨n, rfl⟩, crash⟩
      · exact .inl ⟨rfl, _, Proc.bind_ok copy⟩
      · exact .inr (.inl ⟨rfl, ⟨out, rfl⟩, ⟨n, entry⟩, Proc.bind_error crash⟩)

/-- How a read of a variable from the connector ends, by the cells it took. -/
def Taken (debug : Bool) (c : Odbc Cell) (v : Variable Cell Val) {α : Type} :
    EStateM.Result Fault (Odbc Cell) α → Prop
  | .ok _ c' => c'.Stands ∧ c.cursor.left = c'.cursor.left + castsPerRead debug
  | .error .undefined c' =>
    (c.cursor.left = c'.cursor.left + castsPerRead debug) ∨
      (c.cursor.left = c'.cursor.left + 1 ∧ v.Crashes c)
  | .error (.error _) _ => c.cursor.left < castsPerRead debug
  | .error (.foreign _) _ => False
  | .error .endless _ => False
  | .error .terminated _ => False

theorem read_left {c : Odbc Cell} (h : c.Stands) (here : c.cursor.notEnd = true) :
    c.cursor.left = c.read.cursor.left + 1 := Cursor.next_left h.fits here

/-- The read itself, behind the cast of the debug message. -/
theorem castStore_taken {action : CastAction Cell Val} {v : Variable Cell Val}
    (simple : v.reader = .simple action) {c : Odbc Cell} (h : c.Stands) :
    Taken false c v ((cast action >>= store action) c) := by
  rcases cast_cases action h with ⟨here, x, run⟩ | ⟨here, ⟨out, rfl⟩, null, run⟩ | ⟨stop, e, run⟩
  · rw [Proc.bind_ok run]
    rcases store_cases action x c.read with ⟨val, copy⟩ | crash
    · rw [copy]
      exact ⟨h.read here, read_left h here⟩
    · rw [crash]
      exact .inl (read_left h here)
  · rw [Proc.bind_error run]
    exact .inr ⟨read_left h here, ⟨out, simple⟩, null⟩
  · rw [Proc.bind_error run]
    show c.cursor.left < 1
    rw [Cursor.left_end stop]
    omega

theorem readSimple_taken (debug : Bool) {action : CastAction Cell Val} {v : Variable Cell Val}
    (simple : v.reader = .simple action) {c : Odbc Cell} (h : c.Stands) :
    Taken debug c v (readSimple debug action c) := by
  cases debug with
  | false => exact castStore_taken simple h
  | true =>
    change Taken true c v ((cast action >>= fun _ => cast action >>= store action) c)
    rcases cast_cases action h with ⟨here, x, run⟩ | ⟨here, ⟨out, rfl⟩, null, run⟩ | ⟨stop, e, run⟩
    · rw [Proc.bind_ok run]
      have first := read_left h here
      -- the cast that stores starts one cell further
      rcases cast_cases action (h.read here) with ⟨here', y, run'⟩ | ⟨here', -, -, run'⟩ | ⟨stop, e, run'⟩
      · have second := read_left (h.read here) here'
        rw [Proc.bind_ok run']
        rcases store_cases action y c.read.read with ⟨val, copy⟩ | crash
        · rw [copy]
          exact ⟨(h.read here).read here', by rw [first, second]; rfl⟩
        · rw [crash]
          exact .inl (by rw [first, second]; rfl)
      · rw [Proc.bind_error run']
        exact .inl (by rw [first, read_left (h.read here) here']; rfl)
      · rw [Proc.bind_error run']
        show c.cursor.left < 2
        rw [first, Cursor.left_end stop]
        omega
    · rw [Proc.bind_error run]
      exact .inr ⟨read_left h here, ⟨out, simple⟩, null⟩
    · rw [Proc.bind_error run]
      show c.cursor.left < 2
      rw [Cursor.left_end stop]
      omega

/-- A call that is undefined makes the read undefined, debugged or not. -/
theorem read_undefined {debug : Bool} {v : Variable Cell Val} {c c' : Odbc Cell} (connector : v.fromConnector = true)
    (unread : v.read_p = false) (go : c.ready = true) (crash : Odbc.getNext 1 c = .error .undefined c') :
    v.read debug c = .error .undefined c' := by
  unfold Variable.read
  cases kind : v.reader with
  | dummy val =>
    rw [fromConnector, kind] at connector
    cases connector
  | simple action =>
    simp only [unread, Bool.false_eq_true, if_false]
    exact Proc.bind_error (Proc.catchBES_undefined (readSimple_error action go crash))

theorem store_state {action : CastAction Cell Val} {x : Casted Val} {val : Val} {c c' : Odbc Cell}
    (run : store action x c = .ok val c') : c' = c := by
  rcases store_cases action x c with ⟨v, same⟩ | crash
  · rw [same] at run
    cases run
    rfl
  · rw [crash] at run
    cases run

theorem cast_state {action : CastAction Cell Val} {x : Casted Val} {c c' : Odbc Cell} (h : c.Stands)
    (run : cast action c = .ok x c') : c' = c.read ∧ c.cursor.notEnd = true := by
  rcases cast_cases action h with ⟨here, y, same⟩ | ⟨-, -, -, crash⟩ | ⟨-, e, stop⟩
  · rw [same] at run
    cases run
    exact ⟨rfl, here⟩
  · rw [crash] at run
    cases run
  · rw [stop] at run
    cases run

/-- A read that returned leaves the size of the result set. -/
theorem read_sized {debug : Bool} {v v' : Variable Cell Val} {c c' : Odbc Cell} (h : c.Stands)
    (run : v.read debug c = .ok v' c') : c'.cursor.rows = c.cursor.rows ∧ c'.cursor.columns = c.cursor.columns := by
  have one {c d : Odbc Cell} {action : CastAction Cell Val} {val : Val} (h : c.Stands)
      (body : (cast action >>= store action) c = .ok val d) :
      d.cursor.rows = c.cursor.rows ∧ d.cursor.columns = c.cursor.columns := by
    obtain ⟨x, e, first, second⟩ := Proc.of_bind_ok body
    rw [store_state second, (cast_state h first).1]
    exact ⟨Cursor.next_rows _, Cursor.next_columns _⟩
  unfold Variable.read at run
  cases read : v.read_p with
  | true =>
    rw [read] at run
    cases run
    exact ⟨rfl, rfl⟩
  | false =>
    cases kind : v.reader with
    | dummy val =>
      simp only [read, kind, Bool.false_eq_true, if_false] at run
      cases run
      exact ⟨rfl, rfl⟩
    | simple action =>
      simp only [read, kind, Bool.false_eq_true, if_false] at run
      obtain ⟨val, d, caught, done⟩ := Proc.of_bind_ok run
      cases done
      cases body : readSimple debug action c with
      | error fault d =>
        unfold Proc.catchBES at caught
        rw [body] at caught
        cases fault <;> cases caught
      | ok val' d =>
        rw [Proc.catchBES_ok body] at caught
        cases caught
        cases debug with
        | false => exact one h body
        | true =>
          obtain ⟨x, e, first, second⟩ := Proc.of_bind_ok (x := cast action) (f := fun _ => cast action >>= store action) body
          obtain ⟨rfl, here⟩ := cast_state h first
          have later := one (h.read here) second
          exact ⟨later.1.trans (Cursor.next_rows _), later.2.trans (Cursor.next_columns _)⟩

/-- With more columns than status entries the first read is undefined. -/
theorem read_wide {debug : Bool} {v : Variable Cell Val} {c : Odbc Cell} (connector : v.fromConnector = true)
    (unread : v.read_p = false) (go : c.ready = true) (here : c.cursor.notEnd = true)
    (wide : bufSize < c.cursor.columns) (wait : 0 < c.toFetchRows) :
    v.read debug c = .error .undefined c :=
  read_undefined connector unread go (Odbc.getNext_undefined go here wide wait)

/-- A cast that copies stops at the substitute of a NULL cell, debugged or not. -/
theorem read_crashes {debug : Bool} {v : Variable Cell Val} {c : Odbc Cell} (h : c.Stands)
    (here : c.cursor.notEnd = true) (unread : v.read_p = false) (crash : v.Crashes c) :
    v.read debug c = .error .undefined c.read := by
  obtain ⟨⟨out, simple⟩, n, slot⟩ := crash
  obtain ⟨p, entry, run⟩ := Odbc.getNext_ok h here
  obtain rfl : p = .address n := Option.some.inj (entry.symm.trans slot)
  unfold Variable.read
  simp only [simple, unread, Bool.false_eq_true, if_false]
  exact Proc.bind_error (Proc.catchBES_undefined (readSimple_address out h.ready run))

theorem read_signature {debug : Bool} {v v' : Variable Cell Val} {c c' : Odbc Cell}
    (run : v.read debug c = .ok v' c') : v'.signature = v.signature := by
  unfold Variable.read at run
  cases read : v.read_p with
  | true =>
    rw [read] at run
    cases run
    rfl
  | false =>
    cases kind : v.reader with
    | dummy val =>
      simp only [read, kind, Bool.false_eq_true, if_false] at run
      cases run
      rw [signature, signature, kind]
    | simple action =>
      simp only [read, kind, Bool.false_eq_true, if_false] at run
      cases body : (readSimple debug action).catchBES (fun e => throw (.error (v.readError e))) c with
      | error f c₁ =>
        rw [Proc.bind_error body] at run
        cases run
      | ok val c₁ =>
        rw [Proc.bind_ok body] at run
        cases run
        rw [signature, signature, kind]

/-- A variable the connector is not asked for is read without it. -/
theorem read_idle (debug : Bool) {v : Variable Cell Val} (projected : v.projected = true)
    (idle : v.waits = false) (c : Odbc Cell) :
    ∃ v', v.read debug c = .ok v' c ∧ v'.fromConnector = v.fromConnector ∧ v'.filled = v.filled ∧
      v'.projected = v.projected := by
  unfold Variable.read
  cases read : v.read_p with
  | true => exact ⟨v, rfl, rfl, rfl, rfl⟩
  | false =>
    cases from' : v.reader with
    | simple action =>
      rw [waits, projected, read, fromConnector, from'] at idle
      cases idle
    | dummy val =>
      have dummy : v.fromConnector = false := by rw [fromConnector, from']; rfl
      exact ⟨_, rfl, by rw [dummy]; simp [fromConnector, Reader.connected], by simp [filled, fromConnector, from', Reader.connected], rfl⟩

/-- The value read does not depend on debugging where the connector is not asked. -/
theorem read_idle_debug {v : Variable Cell Val} (projected : v.projected = true)
    (idle : v.waits = false) : v.read true = v.read false := by
  unfold Variable.read
  cases read : v.read_p with
  | true => rfl
  | false =>
    cases from' : v.reader with
    | simple action =>
      rw [waits, projected, read, fromConnector, from'] at idle
      cases idle
    | dummy val => rfl

/-- How a variable that waits for the connector is read. -/
theorem read_waits (debug : Bool) {v : Variable Cell Val} (waits : v.waits = true) {c : Odbc Cell}
    (h : c.Stands) :
    Taken debug c v (v.read debug c) ∧
      ∀ v' c', v.read debug c = .ok v' c' → v'.filled = true ∧ v'.projected = true := by
  simp only [Variable.waits, Bool.and_eq_true, Bool.not_eq_true'] at waits
  obtain ⟨⟨projected, unread⟩, connector⟩ := waits
  obtain ⟨action, simple⟩ : ∃ action, v.reader = .simple action := by
    unfold fromConnector at connector
    cases kind : v.reader with
    | simple action => exact ⟨action, rfl⟩
    | dummy val =>
      rw [kind] at connector
      cases connector
  have taken := readSimple_taken debug simple h
  unfold Variable.read
  simp only [unread, simple, Bool.false_eq_true, if_false]
  cases run : readSimple debug action c with
  | ok val c' =>
    rw [run] at taken
    rw [Proc.bind_ok (Proc.catchBES_ok run)]
    refine ⟨taken, fun v' c'' e => ?_⟩
    cases e
    exact ⟨by simp [filled, fromConnector, Reader.connected], projected⟩
  | error f c' =>
    rw [run] at taken
    cases f with
    | error e =>
      rw [Proc.bind_error (Proc.catchBES_error run)]
      exact ⟨taken, nofun⟩
    | undefined =>
      rw [Proc.bind_error (Proc.catchBES_undefined run)]
      exact ⟨taken, nofun⟩
    | foreign what => exact taken.elim
    | endless => exact taken.elim
    | terminated => exact taken.elim

end Variable

namespace SQLSequence

/-- The variables filled from the connector. -/
def filled (s : SQLSequence Cell Val) : Nat := s.vars.countP Variable.filled

/-- The first variable of a list that waits for the connector does not survive its cast. -/
def CrashesFirst (c : Odbc Cell) (vars : List (Variable Cell Val)) : Prop :=
  ∃ v, vars.find? Variable.waits = some v ∧ v.Crashes c

/-- How the loop over the variables `rest` ends from `s`, by the cells it took. -/
def Accounted (debug : Bool) (rest : List (Variable Cell Val)) (s : SQLSequence Cell Val) :
    EStateM.Result Fault (SQLSequence Cell Val) Unit → Prop
  | .ok _ s' => s'.conn.Stands ∧ s'.filled = s.filled + rest.countP Variable.waits ∧
      s.conn.cursor.left = s'.conn.cursor.left + castsPerRead debug * rest.countP Variable.waits
  | .error .undefined s' => ∃ n, s'.filled = s.filled + n ∧
      (s.conn.cursor.left = s'.conn.cursor.left + castsPerRead debug * (n + 1) ∨
        s.conn.cursor.left = s'.conn.cursor.left + castsPerRead debug * n + 1 ∧
          (n = 0 → CrashesFirst s.conn rest))
  | .error (.error _) _ => s.conn.cursor.left < castsPerRead debug * rest.countP Variable.waits
  | .error (.foreign _) _ => False
  | .error .endless _ => False
  | .error .terminated _ => False

/-- A variable that is skipped or read without the connector changes no account. -/
theorem Accounted.idle {debug : Bool} {v : Variable Cell Val} {rest : List (Variable Cell Val)}
    {s s₁ : SQLSequence Cell Val} {r : EStateM.Result Fault (SQLSequence Cell Val) Unit}
    (h : Accounted debug rest s₁ r) (idle : v.waits = false) (conn : s₁.conn = s.conn)
    (filled : s₁.filled = s.filled) : Accounted debug (v :: rest) s r := by
  have count : (v :: rest).countP Variable.waits = rest.countP Variable.waits := by
    rw [List.countP_cons, idle]
    rfl
  match r, h with
  | .ok _ s', ⟨stands, stored, taken⟩ =>
    refine ⟨stands, ?_, ?_⟩
    · rw [count, ← filled, stored]
    · rw [count, ← conn, taken]
  | .error .undefined s', ⟨n, stored, taken⟩ =>
    refine ⟨n, by rw [← filled, stored], ?_⟩
    rw [← conn]
    refine taken.imp_right fun ⟨one, crash⟩ => ⟨one, fun zero => ?_⟩
    obtain ⟨u, first, crashes⟩ := crash zero
    exact ⟨u, by rw [List.find?_cons, idle]; exact first, crashes⟩
  | .error (.error _) _, h =>
    show s.conn.cursor.left < _
    rw [count, ← conn]
    exact h

/-- A variable read from the connector takes its cells and is stored. -/
theorem Accounted.taken {debug : Bool} {v : Variable Cell Val} {rest : List (Variable Cell Val)}
    {s s₁ : SQLSequence Cell Val} {r : EStateM.Result Fault (SQLSequence Cell Val) Unit}
    (h : Accounted debug rest s₁ r) (waits : v.waits = true)
    (left : s.conn.cursor.left = s₁.conn.cursor.left + castsPerRead debug)
    (filled : s₁.filled = s.filled + 1) : Accounted debug (v :: rest) s r := by
  have count : (v :: rest).countP Variable.waits = rest.countP Variable.waits + 1 := by
    rw [List.countP_cons, waits]
    rfl
  have product : castsPerRead debug * (rest.countP Variable.waits + 1) =
      castsPerRead debug * rest.countP Variable.waits + castsPerRead debug := Nat.mul_succ ..
  match r, h with
  | .ok _ s', ⟨stands, stored, taken⟩ =>
    refine ⟨stands, ?_, ?_⟩
    · rw [count, stored, filled]
      omega
    · rw [count, left, taken, product]
      omega
  | .error .undefined s', ⟨n, stored, taken⟩ =>
    have step : castsPerRead debug * (n + 1 + 1) = castsPerRead debug * (n + 1) + castsPerRead debug :=
      Nat.mul_succ ..
    have step' : castsPerRead debug * (n + 1) = castsPerRead debug * n + castsPerRead debug :=
      Nat.mul_succ ..
    refine ⟨n + 1, by omega, ?_⟩
    rcases taken with taken | ⟨taken, -⟩
    · exact .inl (by omega)
    · exact .inr ⟨by omega, nofun⟩
  | .error (.error _) _, h =>
    have h : s₁.conn.cursor.left < castsPerRead debug * rest.countP Variable.waits := h
    show s.conn.cursor.left < _
    rw [count, product]
    omega

/-- The sequence after the loop stored `v`. -/
def stored (s : SQLSequence Cell Val) (conn : Odbc Cell) (vars : List (Variable Cell Val)) :
    SQLSequence Cell Val := { s with conn, vars }

theorem readVars_skip {debug : Bool} {v : Variable Cell Val} (h : v.projected = false)
    (done rest : List (Variable Cell Val)) :
    readVars debug done (v :: rest) = readVars debug (done ++ [v]) rest := by
  rw [readVars, h]
  rfl

theorem readVars_ok {debug : Bool} {v v' : Variable Cell Val} {s : SQLSequence Cell Val}
    {conn : Odbc Cell} (h : v.projected = true) (run : v.read debug s.conn = .ok v' conn)
    (done rest : List (Variable Cell Val)) :
    readVars debug done (v :: rest) s =
      readVars debug (done ++ [v']) rest (s.stored conn (done ++ v' :: rest)) := by
  rw [readVars, h]
  change ((Proc.zoom SQLSequence.conn withConn (v.read debug) >>= _) : Proc (SQLSequence Cell Val) Unit) s = _
  rw [Proc.bind_ok (Proc.zoom_ok run)]
  rfl

theorem readVars_error {debug : Bool} {v : Variable Cell Val} {s : SQLSequence Cell Val}
    {conn : Odbc Cell} {f : Fault} (h : v.projected = true) (run : v.read debug s.conn = .error f conn)
    (done rest : List (Variable Cell Val)) :
    readVars debug done (v :: rest) s = .error f (s.withConn conn) := by
  rw [readVars, h]
  change ((Proc.zoom SQLSequence.conn withConn (v.read debug) >>= _) : Proc (SQLSequence Cell Val) Unit) s = _
  rw [Proc.bind_error (Proc.zoom_error run)]

theorem readVars_signature {debug : Bool} {s s' : SQLSequence Cell Val}
    {done rest : List (Variable Cell Val)} (split : s.vars = done ++ rest)
    (run : readVars debug done rest s = .ok () s') :
    s'.vars.map Variable.signature = s.vars.map Variable.signature := by
  induction rest generalizing s done with
  | nil =>
    cases run
    rfl
  | cons v rest ih =>
    have join : ∀ v' : Variable Cell Val, done ++ v' :: rest = (done ++ [v']) ++ rest := fun v' => by
      rw [List.append_assoc]
      rfl
    by_cases projected : v.projected = true
    · cases read : v.read debug s.conn with
      | error f conn =>
        rw [readVars_error projected read] at run
        cases run
      | ok v' conn =>
        rw [readVars_ok projected read] at run
        refine (ih (s := s.stored conn (done ++ v' :: rest)) (join v') run).trans ?_
        show (done ++ v' :: rest).map _ = _
        rw [split, List.map_append, List.map_append, List.map_cons, List.map_cons, Variable.read_signature read]
    · rw [readVars_skip (by simpa using projected)] at run
      exact ih (by rw [split, join]) run

theorem readVars_accounted (debug : Bool) {s : SQLSequence Cell Val} (h : s.conn.Stands)
    {done rest : List (Variable Cell Val)} (split : s.vars = done ++ rest) :
    Accounted debug rest s (readVars debug done rest s) := by
  induction rest generalizing s done with
  | nil => exact ⟨h, rfl, rfl⟩
  | cons v rest ih =>
    have filled : s.filled = done.countP Variable.filled + (v :: rest).countP Variable.filled := by
      unfold SQLSequence.filled
      rw [split, List.countP_append]
    have filled' : ∀ conn v', (s.stored conn (done ++ v' :: rest)).filled =
        done.countP Variable.filled + (v' :: rest).countP Variable.filled := fun _ _ => List.countP_append
    have join : ∀ v' : Variable Cell Val, done ++ v' :: rest = (done ++ [v']) ++ rest := fun v' => by
      rw [List.append_assoc]
      rfl
    rw [List.countP_cons] at filled
    by_cases projected : v.projected = true
    · cases waits : v.waits with
      | false =>
        obtain ⟨v', run, -, same, -⟩ := Variable.read_idle debug projected waits s.conn
        rw [readVars_ok projected run]
        refine (ih (s := s.stored s.conn (done ++ v' :: rest)) h (join v')).idle waits rfl ?_
        rw [filled, filled', List.countP_cons, same]
      | true =>
        obtain ⟨taken, stores⟩ := Variable.read_waits debug waits h
        cases run : v.read debug s.conn with
        | ok v' conn =>
          rw [run] at taken
          obtain ⟨stands, left⟩ := taken
          rw [readVars_ok projected run]
          refine (ih (s := s.stored conn (done ++ v' :: rest)) stands (join v')).taken waits left ?_
          have empty : v.filled = false := by
            simp only [Variable.waits, Bool.and_eq_true, Bool.not_eq_true'] at waits
            rw [Variable.filled, waits.1.2, Bool.and_false]
          rw [filled, filled', List.countP_cons, (stores v' conn run).1, empty]
          rfl
        | error f conn =>
          rw [run] at taken
          rw [readVars_error projected run]
          match f, taken with
          | .error e, taken =>
            have count : (v :: rest).countP Variable.waits = rest.countP Variable.waits + 1 := by
              rw [List.countP_cons, waits]
              rfl
            show s.conn.cursor.left < _
            rw [count, Nat.mul_succ]
            exact Nat.lt_of_lt_of_le taken (Nat.le_add_left ..)
          | .undefined, taken =>
            refine ⟨0, rfl, ?_⟩
            rcases taken with taken | ⟨taken, crash⟩
            · exact .inl (by rw [Nat.zero_add, Nat.mul_one]; exact taken)
            · exact .inr ⟨taken, fun _ => ⟨v, by rw [List.find?_cons, waits], crash⟩⟩
    · have projected : v.projected = false := by simpa using projected
      have idle : v.waits = false := by rw [Variable.waits, projected]; rfl
      rw [readVars_skip projected]
      exact (ih h (by rw [split, join])).idle idle rfl rfl

/-! ## How a read of the sequence ends -/

theorem read_end {debug : Bool} {s : SQLSequence Cell Val} (h : s.read_p = false)
    (stop : s.conn.ready = false ∨ s.conn.cursor.notEnd = false) :
    SQLSequence.read debug s = .ok true s := by
  refine Proc.catchBES_ok ?_
  change ((if s.read_p || !s.conn.ready then pure true else if s.conn.cursor.notEnd then _ else pure true) :
    Proc (SQLSequence Cell Val) Bool) s = _
  rw [h]
  rcases stop with stop | stop
  · rw [stop]
    rfl
  · rw [stop]
    cases s.conn.ready <;> rfl

theorem read_here {debug : Bool} {s : SQLSequence Cell Val} (h : s.read_p = false)
    (go : s.conn.ready = true) (here : s.conn.cursor.notEnd = true) :
    SQLSequence.read debug s = Proc.catchBES (readVars debug [] s.vars >>= fun _ => pure false)
      (fun _ => do
        modify fun s => { s with conn := s.conn.close }
        Proc.raise .sqlInternalError "SQLSequence:read() ERROR".toList) s := by
  have body : ((do
      let s ← get
      if s.read_p || !s.conn.ready then return true
      else if s.conn.cursor.notEnd then
        readVars debug [] s.vars
        return false
      else return true) : Proc (SQLSequence Cell Val) Bool) s =
      (readVars debug [] s.vars >>= fun _ => pure false) s := by
    change ((if s.read_p || !s.conn.ready then pure true else if s.conn.cursor.notEnd then _ else _) :
      Proc (SQLSequence Cell Val) Bool) s = _
    rw [h, go, here]
    rfl
  unfold SQLSequence.read Proc.catchBES
  rw [body]

theorem read_ok {debug : Bool} {s s' : SQLSequence Cell Val} (h : s.read_p = false)
    (go : s.conn.ready = true) (here : s.conn.cursor.notEnd = true)
    (run : readVars debug [] s.vars s = .ok () s') : SQLSequence.read debug s = .ok false s' := by
  rw [read_here h go here]
  exact Proc.catchBES_ok (Proc.bind_ok run)

theorem read_error {debug : Bool} {s s' : SQLSequence Cell Val} {e : BESError} (h : s.read_p = false)
    (go : s.conn.ready = true) (here : s.conn.cursor.notEnd = true)
    (run : readVars debug [] s.vars s = .error (.error e) s') :
    ∃ e', SQLSequence.read debug s = .error (.error e') { s' with conn := s'.conn.close } := by
  rw [read_here h go here]
  exact ⟨_, Proc.catchBES_error (Proc.bind_error run)⟩

theorem read_undefined {debug : Bool} {s s' : SQLSequence Cell Val} (h : s.read_p = false)
    (go : s.conn.ready = true) (here : s.conn.cursor.notEnd = true)
    (run : readVars debug [] s.vars s = .error .undefined s') :
    SQLSequence.read debug s = .error .undefined s' := by
  rw [read_here h go here]
  exact Proc.catchBES_undefined (Proc.bind_error run)

/-- Where there is something to read, a read goes through the variables. -/
theorem read_loop {debug : Bool} {s s' : SQLSequence Cell Val} {stop : Bool} (h : s.read_p = false)
    (go : s.conn.ready = true) (here : s.conn.cursor.notEnd = true)
    (run : SQLSequence.read debug s = .ok stop s') :
    stop = false ∧ readVars debug [] s.vars s = .ok () s' := by
  cases loop : readVars debug [] s.vars s with
  | ok _ s₁ =>
    rw [read_ok h go here loop] at run
    cases run
    exact ⟨rfl, rfl⟩
  | error f s₁ =>
    match f with
    | .error e =>
      obtain ⟨e', closed⟩ := read_error h go here loop
      rw [closed] at run
      cases run
    | .undefined =>
      rw [read_undefined h go here loop] at run
      cases run
    | .foreign what =>
      rw [read_here h go here, Proc.catchBES, Proc.bind_error loop] at run
      cases run
    | .endless =>
      rw [read_here h go here, Proc.catchBES, Proc.bind_error loop] at run
      cases run
    | .terminated =>
      rw [read_here h go here, Proc.catchBES, Proc.bind_error loop] at run
      cases run

/-- A read that delivers a row went through the variables. -/
theorem read_delivers {debug : Bool} {s s' : SQLSequence Cell Val} (h : s.read_p = false)
    (run : SQLSequence.read debug s = .ok false s') : readVars debug [] s.vars s = .ok () s' := by
  by_cases stop : s.conn.ready = false ∨ s.conn.cursor.notEnd = false
  · rw [read_end h stop] at run
    cases run
  · simp only [not_or, Bool.not_eq_false] at stop
    exact (read_loop h stop.1 stop.2 run).2

end SQLSequence

end SqlHandler
