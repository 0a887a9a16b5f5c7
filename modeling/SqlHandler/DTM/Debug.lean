import SqlHandler.DTM.Delivery

/-!
# Reading under debugging

`BESDEBUG` in `SQLSimpleType::read` evaluates `cast()`, which reads a cell and moves
the cursor. A run under debugging equals the run without it only where no variable
reads from the connector, or where both stop at the first cast.
-/

namespace SqlHandler
open Posix

variable {Cell Val : Type}

namespace SQLSequence

/-- No variable is read from the connector, or the first cast does not return. -/
def DebugHarmless (c : Odbc Cell) (vars : List (Variable Cell Val)) : Prop :=
  (∀ v ∈ vars, v.waits = false) ∨ bufSize < c.cursor.columns ∨ CrashesFirst c vars

/-- Both runs stop at the first variable that waits, in the same state. -/
theorem readVars_crash {s : SQLSequence Cell Val} {done rest : List (Variable Cell Val)}
    {v : Variable Cell Val} {f : Fault} {conn : Odbc Cell} (first : rest.find? Variable.waits = some v)
    (crash : ∀ debug, v.read debug s.conn = .error f conn) :
    ∃ s', ∀ debug, readVars debug done rest s = .error f s' := by
  induction rest generalizing s done with
  | nil => cases first
  | cons u rest ih =>
    cases waits : u.waits with
    | true =>
      rw [List.find?_cons, waits] at first
      cases first
      have projected : v.projected = true := by
        simp only [Variable.waits, Bool.and_eq_true] at waits
        exact waits.1.1
      exact ⟨_, fun debug => readVars_error projected (crash debug) done rest⟩
    | false =>
      rw [List.find?_cons, waits] at first
      by_cases projected : u.projected = true
      · obtain ⟨u', run, -⟩ := Variable.read_idle false projected waits s.conn
        have run' : ∀ debug, u.read debug s.conn = .ok u' s.conn := by
          intro debug
          cases debug with
          | false => exact run
          | true => rw [Variable.read_idle_debug projected waits, run]
        obtain ⟨s', stop⟩ := ih (s := s.stored s.conn (done ++ u' :: rest)) first crash
        exact ⟨s', fun debug => (readVars_ok projected (run' debug) done rest).trans (stop debug)⟩
      · obtain ⟨s', stop⟩ := ih first crash
        exact ⟨s', fun debug => by rw [readVars_skip (by simpa using projected)]; exact stop debug⟩

/-- Where no variable waits the loop does not ask whether it is debugged. -/
theorem readVars_idle {rest : List (Variable Cell Val)} (idle : ∀ v ∈ rest, v.waits = false)
    (done : List (Variable Cell Val)) (s : SQLSequence Cell Val) :
    readVars true done rest s = readVars false done rest s := by
  induction rest generalizing s done with
  | nil => rfl
  | cons v rest ih =>
    have later := ih fun u mem => idle u (List.mem_cons_of_mem _ mem)
    by_cases projected : v.projected = true
    · have waits := idle v List.mem_cons_self
      obtain ⟨v', run, -⟩ := Variable.read_idle false projected waits s.conn
      have run' := run
      rw [← Variable.read_idle_debug projected waits] at run'
      rw [readVars_ok projected run, readVars_ok projected run', later]
    · have skipped : v.projected = false := by simpa using projected
      rw [readVars_skip skipped, readVars_skip skipped, later]

theorem read_congr {s : SQLSequence Cell Val} (same : readVars true [] s.vars s = readVars false [] s.vars s) :
    SQLSequence.read true s = SQLSequence.read false s := by
  have body : ∀ debug, ((do
      let s ← get
      if s.read_p || !s.conn.ready then return true
      else if s.conn.cursor.notEnd then
        readVars debug [] s.vars
        return false
      else return true) : Proc (SQLSequence Cell Val) Bool) s =
      (if s.read_p || !s.conn.ready then pure true else if s.conn.cursor.notEnd then
        (readVars debug [] s.vars >>= fun _ => pure false) else pure true : Proc (SQLSequence Cell Val) Bool) s :=
    fun _ => rfl
  have loop : (readVars true [] s.vars >>= fun _ => pure false : Proc (SQLSequence Cell Val) Bool) s =
      (readVars false [] s.vars >>= fun _ => pure false : Proc (SQLSequence Cell Val) Bool) s := by
    change EStateM.bind _ _ s = EStateM.bind _ _ s
    rw [EStateM.bind, EStateM.bind, same]
  unfold SQLSequence.read Proc.catchBES
  rw [body, body]
  cases s.read_p || !s.conn.ready with
  | true => rfl
  | false =>
    cases s.conn.cursor.notEnd with
    | true =>
      simp only [Bool.false_eq_true, if_false, if_true]
      rw [loop]
    | false => rfl

/-- Reads without the connector are the same runs. -/
theorem readRows_idle {n : Nat} {s : SQLSequence Cell Val}
    (idle : ∀ v ∈ s.clearRead.vars, v.waits = false) : readRows true n s = readRows false n s := by
  induction n generalizing s with
  | zero => rfl
  | succ n ih =>
    have same : SQLSequence.read true s.clearRead = SQLSequence.read false s.clearRead :=
      read_congr (readVars_idle idle [] s.clearRead)
    unfold readRows
    rw [same]
    cases run : SQLSequence.read false s.clearRead with
    | error f s' => rfl
    | ok ended s' =>
      cases ended with
      | true => rfl
      | false =>
        have later : readRows true n s' = readRows false n s' := by
          refine ih fun v mem => ?_
          -- the variables of `s'` are those of `s`, but for what they hold
          have signature : s'.clearRead.vars.map Variable.signature = s.clearRead.vars.map Variable.signature := by
            rw [clearRead_signature, clearRead_signature]
            have loop := read_delivers (s := s.clearRead) rfl run
            exact (readVars_signature (List.nil_append _).symm loop).trans s.clearRead_signature
          obtain ⟨u, old, like⟩ := List.mem_map.1 (signature ▸ List.mem_map_of_mem mem)
          have fresh : ∀ t : SQLSequence Cell Val, ∀ w ∈ t.clearRead.vars, w.read_p = false := by
            intro t w mem
            obtain ⟨x, -, rfl⟩ := List.mem_map.1 mem
            rfl
          rw [← idle u old]
          unfold Variable.waits
          rw [fresh s' v mem, fresh s u old]
          exact congrArg (fun x => (x.2.2.1 || x.2.2.2) && !false && x.2.1.connected) like.symm
        dsimp only
        rw [later]

theorem clearRead_of_unread {s : SQLSequence Cell Val} (h : s.read_p = false)
    (unread : ∀ v ∈ s.vars, v.read_p = false) : s.clearRead = s := by
  have same : (s.vars.map fun v => { v with read_p := false }) = s.vars := by
    conv_rhs => rw [← List.map_id s.vars]
    refine List.map_congr_left fun v mem => ?_
    rw [← unread v mem]
    rfl
  unfold clearRead
  rw [same, ← h]

/-- Two series that both stop in the loop of the first read are the same series. -/
theorem readRows_crash {s s' : SQLSequence Cell Val} (go : s.conn.ready = true)
    (here : s.conn.cursor.notEnd = true)
    (crash : ∀ debug, readVars debug [] s.clearRead.vars s.clearRead = .error .undefined s') (n : Nat) :
    readRows true n s = readRows false n s := by
  have stop : ∀ debug, SQLSequence.read debug s.clearRead = .error .undefined s' := fun debug =>
    read_undefined rfl go here (crash debug)
  cases n with
  | zero => rfl
  | succ n =>
    unfold readRows
    rw [stop, stop]

/-- A loop under debugging and one without end alike only if no variable waits or the first crashes. -/
theorem accounts_differ {s : SQLSequence Cell Val} {rest : List (Variable Cell Val)}
    (enough : rest.countP Variable.waits ≤ s.conn.cursor.left) (some : 0 < rest.countP Variable.waits)
    {on off : EStateM.Result Fault (SQLSequence Cell Val) Unit} (debugged : Accounted true rest s on)
    (plain : Accounted false rest s off) (same : on = off) : CrashesFirst s.conn rest := by
  subst same
  have two : castsPerRead true = 2 := rfl
  have one : castsPerRead false = 1 := rfl
  match on, debugged, plain with
  | .ok _ s', ⟨_, _, left₂⟩, ⟨_, _, left₁⟩ =>
    rw [two] at left₂
    rw [one] at left₁
    omega
  | .error .undefined s', ⟨n₂, filled₂, left₂⟩, ⟨n₁, filled₁, left₁⟩ =>
    rw [two] at left₂
    rw [one] at left₁
    rcases left₂ with left₂ | ⟨left₂, crash⟩
    · omega
    · exact crash (by omega)
  | .error (.error _) _, _, plain =>
    have plain : s.conn.cursor.left < castsPerRead false * rest.countP Variable.waits := plain
    rw [one] at plain
    omega

/-- One read tells how the loop over the variables ended. -/
theorem readRows_one (debug : Bool) {s : SQLSequence Cell Val} (clear : s.clearRead = s)
    (go : s.conn.ready = true) (here : s.conn.cursor.notEnd = true) :
    (∀ s', readVars debug [] s.vars s = .ok () s' →
      readRows debug 1 s = ([(s'.row, s'.conn.cursor)], .running, s')) ∧
    (∀ s', readVars debug [] s.vars s = .error .undefined s' → readRows debug 1 s = ([], .fault .undefined, s')) ∧
    (∀ e s', readVars debug [] s.vars s = .error (.error e) s' →
      ∃ e', (readRows debug 1 s).2.1 = .fault (.error e')) := by
  have fresh : s.read_p = false := by
    rw [← clear]
    rfl
  refine ⟨fun s' run => ?_, fun s' run => ?_, fun e s' run => ?_⟩
  · unfold readRows
    rw [clear, read_ok fresh go here run]
    rfl
  · unfold readRows
    rw [clear, read_undefined fresh go here run]
  · obtain ⟨e', stop⟩ := read_error fresh go here run
    refine ⟨e', ?_⟩
    unfold readRows
    rw [clear, stop]

/-- Where the first reads agree and some variable waits, both stop at the first cast. -/
theorem crashes_of_same {s : SQLSequence Cell Val} (clear : s.clearRead = s) (stands : s.conn.Stands)
    (here : s.conn.cursor.notEnd = true) (enough : s.vars.countP Variable.waits ≤ s.conn.cursor.left)
    (some : 0 < s.vars.countP Variable.waits) (same : readRows true 1 s = readRows false 1 s) :
    CrashesFirst s.conn s.vars := by
  have debugged := readVars_accounted true stands (List.nil_append s.vars).symm
  have plain := readVars_accounted false stands (List.nil_append s.vars).symm
  obtain ⟨onOk, onUndefined, onError⟩ := readRows_one true clear stands.ready here
  obtain ⟨offOk, offUndefined, -⟩ := readRows_one false clear stands.ready here
  refine accounts_differ enough some debugged plain ?_
  cases off : readVars false [] s.vars s with
  | ok _ s₁ =>
    rw [offOk s₁ off] at same
    cases on : readVars true [] s.vars s with
    | ok _ s₂ =>
      rw [onOk s₂ on] at same
      have states : s₂ = s₁ := congrArg (fun x => x.2.2) same
      rw [states]
    | error f s₂ =>
      rw [on] at debugged
      match f, debugged with
      | .error e, _ =>
        obtain ⟨e', stop⟩ := onError e s₂ on
        rw [same] at stop
        cases stop
      | .undefined, _ =>
        rw [onUndefined s₂ on] at same
        cases same
  | error f s₁ =>
    rw [off] at plain
    match f, plain with
    | .error e, short =>
      have short : s.conn.cursor.left < castsPerRead false * s.vars.countP Variable.waits := short
      have one : castsPerRead false = 1 := rfl
      rw [one] at short
      omega
    | .undefined, _ =>
      rw [offUndefined s₁ off] at same
      cases on : readVars true [] s.vars s with
      | ok _ s₂ =>
        rw [onOk s₂ on] at same
        cases same
      | error f s₂ =>
        rw [on] at debugged
        match f, debugged with
        | .error e, _ =>
          obtain ⟨e', stop⟩ := onError e s₂ on
          rw [same] at stop
          cases stop
        | .undefined, _ =>
          rw [onUndefined s₂ on] at same
          have states : s₂ = s₁ := congrArg (fun x => x.2.2) same
          rw [states]

/-- A series of reads of new variables over any result set is the same with and without
debugging exactly if no projected variable reads from the connector or the first cast of
the series does not return. -/
theorem debug_neutral_iff (c : Odbc Cell) (a : Odbc.Answer Cell) {vars : List (Variable Cell Val)}
    (width : vars.length = a.columns) (unread : ∀ v ∈ vars, v.read_p = false) :
    (∀ n, readRows true n ⟨c.query a, vars, false⟩ = readRows false n ⟨c.query a, vars, false⟩) ↔
      DebugHarmless (c.query a) vars := by
  have clear : (⟨c.query a, vars, false⟩ : SQLSequence Cell Val).clearRead = ⟨c.query a, vars, false⟩ :=
    clearRead_of_unread rfl unread
  have go : (c.query a).ready = true := rfl
  by_cases idle : ∀ v ∈ vars, v.waits = false
  · refine iff_of_true (fun n => readRows_idle ?_) (.inl idle)
    rw [clear]
    exact idle
  · obtain ⟨w, mem, waits⟩ : ∃ w ∈ vars, w.waits = true := by
      simpa only [not_forall, exists_prop, Bool.not_eq_false] using idle
    have some : 0 < a.columns := by
      rw [← width]
      exact List.length_pos_of_mem mem
    have here : (c.query a).cursor.notEnd = true := Cursor.reset_notEnd some
    obtain ⟨first, found⟩ : ∃ v, vars.find? Variable.waits = .some v := by
      rw [← Option.isSome_iff_exists, List.find?_isSome]
      exact ⟨w, mem, waits⟩
    have firstWaits : first.waits = true := List.find?_some found
    constructor
    · intro same
      by_cases wide : bufSize < (c.query a).cursor.columns
      · exact .inr (.inl wide)
      · have stands := c.query_stands a some (Nat.le_of_not_lt wide)
        have enough : vars.countP Variable.waits ≤ (c.query a).cursor.left := by
          rw [c.query_cursor a some, Cursor.left]
          simp only [if_true, Nat.zero_mul, Nat.add_zero, Nat.sub_zero]
          refine Nat.le_trans (List.countP_le_length (l := vars)) ?_
          rw [width]
          exact Nat.le_mul_of_pos_left _ (by omega)
        exact .inr (.inr (crashes_of_same (s := ⟨c.query a, vars, false⟩) clear stands here enough
          (List.countP_pos_iff.2 ⟨w, mem, waits⟩) (same 1)))
    · have atFirst : (∃ conn, ∀ debug, first.read debug (c.query a) = .error .undefined conn) →
          ∀ n, readRows true n ⟨c.query a, vars, false⟩ = readRows false n ⟨c.query a, vars, false⟩ := by
        rintro ⟨conn, stop⟩
        obtain ⟨s', crash⟩ : ∃ s', ∀ debug, readVars debug [] vars ⟨c.query a, vars, false⟩ =
            .error .undefined s' := readVars_crash found stop
        exact readRows_crash go here (by rw [clear]; exact crash)
      have unreadFirst := unread first (List.mem_of_find?_eq_some found)
      have connector : first.fromConnector = true := by
        simp only [Variable.waits, Bool.and_eq_true] at firstWaits
        exact firstWaits.2
      have far : bufSize < a.columns → ∀ debug, first.read debug (c.query a) = .error .undefined (c.query a) :=
        fun wide _ => Variable.read_wide connector unreadFirst go here wide Nat.one_pos
      rintro (none | wide | ⟨v, found', crash⟩)
      · exact absurd none idle
      · exact atFirst ⟨_, far wide⟩
      · obtain rfl : v = first := Option.some.inj (found'.symm.trans found)
        by_cases wide : bufSize < a.columns
        · exact atFirst ⟨_, far wide⟩
        · have stands := c.query_stands a some (Nat.le_of_not_lt wide)
          exact atFirst ⟨_, fun _ => Variable.read_crashes stands here unreadFirst crash⟩

/-- A connector whose query answers one row of one number. -/
def oneRow : Odbc Nat :=
  (Odbc.new (fun _ => 0) fun _ => false).query ⟨1, 1, [.row [some 7]], fun _ => 0, by decide, Odbc.one_column⟩

/-- Without debugging the row arrives, under debugging the read throws. -/
theorem one_row_under_debug :
    (readRows false 1 ⟨oneRow, numbers, false⟩).1.map Prod.fst = [[some 7]] ∧
    (readRows true 1 ⟨oneRow, numbers, false⟩).2.1 =
      .fault (.error ⟨.sqlInternalError, "SQLSequence:read() ERROR".toList⟩) ∧
    readRows true 1 ⟨oneRow, numbers, false⟩ ≠ readRows false 1 ⟨oneRow, numbers, false⟩ := by
  refine ⟨rfl, rfl, fun same => ?_⟩
  have stop := congrArg (fun x => x.2.1) same
  change Halt.fault _ = Halt.running at stop
  cases stop

def placeHolder : List (Variable Nat Nat) := [⟨"DefaultName".toList, .dummy 0, true, false, false, none⟩]

/-- A place-holder is read alike in both. -/
theorem placeHolder_under_debug :
    readRows true 1 ⟨oneRow, placeHolder, false⟩ = readRows false 1 ⟨oneRow, placeHolder, false⟩ :=
  (debug_neutral_iff (Odbc.new (fun _ => 0) fun _ => false)
    ⟨1, 1, [.row [some 7]], fun _ => 0, by decide, by decide⟩ rfl
    (by decide : ∀ v ∈ placeHolder, v.read_p = false)).2 (.inl (by decide)) 1

end SQLSequence

end SqlHandler
