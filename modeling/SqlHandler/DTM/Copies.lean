import SqlHandler.Connector.Fetches
import SqlHandler.DTM.Delivery

/-!
# Is copying a sequence harmless?

A copy shares the connector, and its constructor resets the cursor. `Delivering` is a
sequence in the middle of being read, variable by variable; its steps are those of
`SQLSequence::read` (`run_readRows`). A copy is harmless where `reset` changes nothing, and
nowhere else on the way to the end (`copy_harmless`).
-/

namespace SqlHandler
open Posix

variable {Cell Val : Type}

/-- A sequence that is being read row after row, and the instances that share its connector. -/
structure Delivering (Cell Val : Type) where
  seq : SQLSequence Cell Val
  /-- `use_count` of the connector -/
  users : Nat
  /-- The variables of the row that is being read, those the loop is through with and the others. -/
  row : Option (List (Variable Cell Val) × List (Variable Cell Val))
  delivered : List (List (Option Val))
  halt : SQLSequence.Halt

namespace Delivering

/-- A sequence no row has been read of. -/
def start (s : SQLSequence Cell Val) : Delivering Cell Val := ⟨s, 1, none, [], .running⟩

/-- `SQLSequence::read` up to its loop. -/
def begin (p : Delivering Cell Val) : Delivering Cell Val :=
  if p.seq.conn.ready && p.seq.conn.cursor.notEnd then
    { p with seq := p.seq.clearRead, row := some ([], p.seq.clearRead.vars) }
  else { p with seq := p.seq.clearRead, halt := .ended }

/-- One round of the loop of `SQLSequence::read`, with its `catch`. -/
def round (debug : Bool) (p : Delivering Cell Val) (done : List (Variable Cell Val)) (v : Variable Cell Val)
    (rest : List (Variable Cell Val)) : Delivering Cell Val :=
  if v.projected then
    match v.read debug p.seq.conn with
    | .ok v' conn => { p with seq := p.seq.stored conn (done ++ v' :: rest), row := some (done ++ [v'], rest) }
    | .error (.error _) conn =>
      { p with
        seq := p.seq.withConn conn.close
        row := none
        halt := .fault (.error ⟨.sqlInternalError, "SQLSequence:read() ERROR".toList⟩) }
    | .error fault conn => { p with seq := p.seq.withConn conn, row := none, halt := .fault fault }
  else { p with row := some (done ++ [v], rest) }

/-- The next step of a reading. -/
def step (debug : Bool) (p : Delivering Cell Val) : Delivering Cell Val :=
  match p.halt, p.row with
  | .running, none => p.begin
  | .running, some (_, []) => { p with row := none, delivered := p.delivered ++ [p.seq.row] }
  | .running, some (done, v :: rest) => p.round debug done v rest
  | _, _ => p

def run (debug : Bool) (n : Nat) (p : Delivering Cell Val) : Delivering Cell Val := (step debug)^[n] p

def withConn (p : Delivering Cell Val) (conn : Odbc Cell) : Delivering Cell Val := { p with seq := p.seq.withConn conn }

/-- `ptr_duplicate`: the copy shares the connector and resets it if it is ready. -/
def copy (p : Delivering Cell Val) : Delivering Cell Val :=
  { p.withConn (if p.seq.conn.ready then p.seq.conn.reset else p.seq.conn) with users := p.users + 1 }

/-- `~SQLSequence` of the copy: the last instance closes the connector. -/
def destroy (p : Delivering Cell Val) : Delivering Cell Val :=
  { p.withConn (if p.users = 1 then p.seq.conn.close else p.seq.conn) with users := p.users - 1 }

/-- A copy made here and destroyed `d` steps later changes no row delivered and no end. -/
def Harmless (debug : Bool) (p : Delivering Cell Val) : Prop :=
  ∀ d n, ((p.copy.run debug d).destroy.run debug n).delivered = (p.run debug (d + n)).delivered ∧
    ((p.copy.run debug d).destroy.run debug n).halt = (p.run debug (d + n)).halt

/-- A copy does not move the cursor. -/
def Unmoved (p : Delivering Cell Val) : Prop :=
  p.halt ≠ .running ∨ p.seq.conn.ready = false ∨ p.seq.conn.cursor.reset = p.seq.conn.cursor

/-- The states of a reading that starts behind a query. -/
inductive Reached (debug : Bool) : Delivering Cell Val → Prop
  | start {c : Odbc Cell} {a : Odbc.Answer Cell} {vars : List (Variable Cell Val)} {k : Nat} {s : SQLSequence Cell Val}
      (built : SQLSequence.built c a vars k = .ok s) : Reached debug (start s)
  | step {p : Delivering Cell Val} (reached : Reached debug p) : Reached debug (p.step debug)

/-! ## The steps are those of the reads -/

section Run
variable {debug : Bool} {p : Delivering Cell Val}

theorem run_add (m n : Nat) (p : Delivering Cell Val) : p.run debug (m + n) = (p.run debug m).run debug n := by
  unfold run
  rw [Nat.add_comm, Function.iterate_add_apply]

theorem run_succ (n : Nat) (p : Delivering Cell Val) : p.run debug (n + 1) = (p.step debug).run debug n :=
  Function.iterate_succ_apply _ n p

theorem run_halted (h : p.halt ≠ .running) (n : Nat) : p.run debug n = p := by
  have fixed : p.step debug = p := by
    obtain ⟨seq, users, row, delivered, halt⟩ := p
    cases halt with
    | running => exact absurd rfl h
    | ended => rfl
    | fault f => rfl
  exact Function.iterate_fixed fixed n

theorem run_faulted {f : Fault} (h : p.halt = .fault f) (n : Nat) : p.run debug n = p :=
  run_halted (by rw [h]; exact SQLSequence.Halt.noConfusion) n

/-- The end of a loop from these variables. -/
def loopEnds (users : Nat) (delivered : List (List (Option Val))) :
    EStateM.Result Fault (SQLSequence Cell Val) Unit → Delivering Cell Val → Prop
  | .ok _ s', q => ∃ done, q = ⟨s', users, some (done, []), delivered, .running⟩
  | .error (.error _) s', q => q = ⟨{ s' with conn := s'.conn.close }, users, none, delivered,
      .fault (.error ⟨.sqlInternalError, "SQLSequence:read() ERROR".toList⟩)⟩
  | .error fault s', q => q = ⟨s', users, none, delivered, .fault fault⟩

theorem run_readVars (s : SQLSequence Cell Val) (users : Nat) (delivered : List (List (Option Val)))
    (done rest : List (Variable Cell Val)) :
    loopEnds users delivered (SQLSequence.readVars debug done rest s)
      (run debug rest.length ⟨s, users, some (done, rest), delivered, .running⟩) := by
  induction rest generalizing s done with
  | nil => exact ⟨done, rfl⟩
  | cons v rest ih =>
    rw [List.length_cons, run_succ]
    change loopEnds users delivered _ (run debug rest.length (round debug ⟨s, users, some (done, v :: rest), delivered, .running⟩ done v rest))
    unfold round
    cases projected : v.projected with
    | false =>
      rw [SQLSequence.readVars_skip projected]
      exact ih s (done ++ [v])
    | true =>
      simp only [if_true]
      cases read : v.read debug s.conn with
      | ok v' conn =>
        rw [SQLSequence.readVars_ok projected read]
        exact ih (s.stored conn (done ++ v' :: rest)) (done ++ [v'])
      | error fault conn =>
        rw [SQLSequence.readVars_error projected read]
        cases fault with
        | error e => exact run_faulted rfl _
        | foreign what => exact run_faulted rfl _
        | undefined => exact run_faulted rfl _
        | endless => exact run_faulted rfl _
        | terminated => exact run_faulted rfl _

/-- The steps deliver what the reads deliver, and stop as they do. -/
theorem run_readRows (n : Nat) (s : SQLSequence Cell Val) (users : Nat) (delivered : List (List (Option Val))) :
    ∃ m, (run debug m ⟨s, users, none, delivered, .running⟩).delivered =
        delivered ++ (SQLSequence.readRows debug n s).1.map Prod.fst ∧
      (run debug m ⟨s, users, none, delivered, .running⟩).halt = (SQLSequence.readRows debug n s).2.1 := by
  induction n generalizing s delivered with
  | zero => exact ⟨0, (List.append_nil _).symm, rfl⟩
  | succ n ih =>
    have first : step debug ⟨s, users, none, delivered, .running⟩ = begin ⟨s, users, none, delivered, .running⟩ := rfl
    unfold begin at first
    unfold SQLSequence.readRows
    by_cases go : s.conn.ready = true ∧ s.conn.cursor.notEnd = true
    · rw [if_pos (by simp [go])] at first
      have loop : loopEnds users delivered (SQLSequence.readVars debug [] s.clearRead.vars s.clearRead) _ :=
        run_readVars s.clearRead users delivered [] s.clearRead.vars
      have read : SQLSequence.read debug s.clearRead = _ := SQLSequence.read_here (s := s.clearRead) rfl go.1 go.2
      cases vars : SQLSequence.readVars debug [] s.clearRead.vars s.clearRead with
      | ok _ s' =>
        rw [vars] at loop
        obtain ⟨done, loop⟩ := loop
        obtain ⟨m, rows, halt⟩ := ih s' (delivered ++ [s'.row])
        have later : run debug (s.clearRead.vars.length + 1 + m) (step debug ⟨s, users, none, delivered, .running⟩) =
            run debug m ⟨s', users, none, delivered ++ [s'.row], .running⟩ := by
          rw [first, run_add, run_add, loop]
          rfl
        rw [SQLSequence.read_ok (s := s.clearRead) rfl go.1 go.2 vars]
        refine ⟨s.clearRead.vars.length + 1 + m + 1, ?_, ?_⟩
        · rw [run_succ, later, rows, List.append_assoc]
          rfl
        · rw [run_succ, later, halt]
      | error fault s' =>
        rw [vars] at loop
        have stops : ∃ f t, SQLSequence.read debug s.clearRead = .error f t ∧
            run debug s.clearRead.vars.length ⟨s.clearRead, users, some ([], s.clearRead.vars), delivered, .running⟩ =
              ⟨t, users, none, delivered, .fault f⟩ := by
          rw [read]
          cases fault with
          | error e => exact ⟨_, _, Proc.catchBES_error (Proc.bind_error vars), loop⟩
          | undefined => exact ⟨_, _, Proc.catchBES_undefined (Proc.bind_error vars), loop⟩
          | foreign what => exact ⟨_, _, by rw [Proc.catchBES, Proc.bind_error vars], loop⟩
          | endless => exact ⟨_, _, by rw [Proc.catchBES, Proc.bind_error vars], loop⟩
          | terminated => exact ⟨_, _, by rw [Proc.catchBES, Proc.bind_error vars], loop⟩
        obtain ⟨f, t, fails, ends⟩ := stops
        rw [fails]
        refine ⟨s.clearRead.vars.length + 1, ?_, ?_⟩
        · rw [run_succ, first, ends]
          exact (List.append_nil _).symm
        · rw [run_succ, first, ends]
    · rw [if_neg (by simpa using go)] at first
      have stop : s.conn.ready = false ∨ s.conn.cursor.notEnd = false := by
        by_contra both
        simp only [not_or, Bool.not_eq_false] at both
        exact go both
      rw [SQLSequence.read_end (s := s.clearRead) rfl stop]
      exact ⟨1, by rw [run_succ, first]; exact (List.append_nil _).symm, by rw [run_succ, first]; rfl⟩

end Run

/-! ## A copy that moves nothing -/

section Users
variable {debug : Bool} {p : Delivering Cell Val}

def withUsers (p : Delivering Cell Val) (users : Nat) : Delivering Cell Val := { p with users := users }

/-- The steps do not look at the other instances. -/
theorem step_withUsers (p : Delivering Cell Val) (users : Nat) : (p.withUsers users).step debug = (p.step debug).withUsers users := by
  obtain ⟨seq, u, row, delivered, halt⟩ := p
  cases halt with
  | ended => rfl
  | fault f => rfl
  | running =>
    rcases row with _ | ⟨done, _ | ⟨v, rest⟩⟩
    · change begin _ = withUsers (begin _) users
      unfold begin withUsers
      dsimp only
      split <;> rfl
    · rfl
    · change round debug _ done v rest = withUsers (round debug _ done v rest) users
      unfold round withUsers
      dsimp only
      split
      · cases read : v.read debug seq.conn with
        | ok v' conn => rfl
        | error fault conn => cases fault <;> rfl
      · rfl

theorem run_withUsers (n : Nat) (p : Delivering Cell Val) (users : Nat) :
    (p.withUsers users).run debug n = (p.run debug n).withUsers users := by
  induction n generalizing p with
  | zero => rfl
  | succ n ih => rw [run_succ, run_succ, step_withUsers, ih]

theorem run_users (n : Nat) (p : Delivering Cell Val) : (p.run debug n).users = p.users := by
  have same : (p.withUsers p.users).run debug n = _ := run_withUsers n p p.users
  rw [show p.withUsers p.users = p from rfl] at same
  rw [same]
  rfl

/-- While the original is there, the copy that goes leaves the connector open. -/
theorem destroy_shared (h : 1 < p.users) : p.destroy = p.withUsers (p.users - 1) := by
  unfold destroy
  rw [if_neg (by omega)]
  rfl

/-- When the copy goes does not matter. -/
theorem harmless_iff (users : 0 < p.users) : p.Harmless debug ↔
    ∀ n, (p.copy.run debug n).delivered = (p.run debug n).delivered ∧ (p.copy.run debug n).halt = (p.run debug n).halt := by
  have goes (d n : Nat) : (p.copy.run debug d).destroy.run debug n = (p.copy.run debug (d + n)).withUsers p.users := by
    have count : (p.copy.run debug d).users = p.users + 1 := run_users d p.copy
    rw [destroy_shared (by omega), run_withUsers, ← run_add, count, Nat.add_sub_cancel]
  constructor
  · intro harmless n
    have now := harmless 0 n
    rw [goes, Nat.zero_add] at now
    exact now
  · intro same d n
    rw [goes]
    exact same (d + n)

theorem harmless_of_unmoved (users : 0 < p.users) (h : p.Unmoved) : p.Harmless debug := by
  rw [harmless_iff users]
  intro n
  rcases h with halted | same
  · have halted' : p.copy.halt ≠ .running := halted
    rw [run_halted halted, run_halted halted']
    exact ⟨rfl, rfl⟩
  · have conn : (if p.seq.conn.ready then p.seq.conn.reset else p.seq.conn) = p.seq.conn := by
      split
      · next ready =>
        rcases same with closed | same
        · rw [ready] at closed
          cases closed
        · unfold Odbc.reset
          rw [same]
      · rfl
    have copy : p.copy = p.withUsers (p.users + 1) := by
      unfold copy
      rw [conn]
      rfl
    rw [copy, run_withUsers]
    exact ⟨rfl, rfl⟩

end Users

/-! ## The cells a reading takes -/

/-- Does a variable take cells in every row? -/
def takes (v : Variable Cell Val) : Bool := v.projected && v.fromConnector

/-- The variables that take cells in every row. -/
def takers (p : Delivering Cell Val) : Nat := p.seq.vars.countP takes

/-- The variables of the row that are still to take cells. -/
def waiting (p : Delivering Cell Val) : Nat :=
  match p.row with
  | none => 0
  | some (_, rest) => rest.countP Variable.waits

/-- The rows that were begun. -/
def begun (p : Delivering Cell Val) : Nat := p.delivered.length + if p.row.isSome then 1 else 0

/-- The cells left and those taken by the rows begun. -/
def balance (debug : Bool) (p : Delivering Cell Val) : Int :=
  p.seq.conn.cursor.left + castsPerRead debug * (p.takers * p.begun : Nat) - castsPerRead debug * p.waiting

/-- A reading whose connector stands in its result set. -/
structure Sane (p : Delivering Cell Val) : Prop where
  stands : p.seq.conn.Stands
  split : ∀ done rest, p.row = some (done, rest) → p.seq.vars = done ++ rest
  ended : p.halt = .ended → p.row = none ∧ p.seq.conn.cursor.left = 0
  calm : ∀ f, p.halt ≠ .fault f

theorem takers_of_signature {vars vars' : List (Variable Cell Val)}
    (same : vars'.map Variable.signature = vars.map Variable.signature) : vars'.countP takes = vars.countP takes := by
  have through (vars : List (Variable Cell Val)) :
      vars.countP takes = (vars.map Variable.signature).countP fun x => (x.2.2.1 || x.2.2.2) && x.2.1.connected := by
    rw [List.countP_map]
    rfl
  rw [through, through, same]

theorem waits_of_unread {v : Variable Cell Val} (unread : v.read_p = false) : v.waits = takes v := by
  unfold Variable.waits takes
  rw [unread, Bool.not_false, Bool.and_true]

theorem takes_of_waits {v : Variable Cell Val} (h : v.waits = true) : takes v = true := by
  simp only [Variable.waits, Bool.and_eq_true] at h
  simp [takes, h.1.1, h.2]

/-- How a step of a sane reading ends. -/
inductive Goes (debug : Bool) (p q : Delivering Cell Val) : Prop where
  | on (sane : q.Sane) (balance : q.balance debug = p.balance debug) (takers : q.takers = p.takers)
      (rows : q.seq.conn.cursor.rows = p.seq.conn.cursor.rows) (columns : q.seq.conn.cursor.columns = p.seq.conn.cursor.columns)
  | raised (e : BESError) (halt : q.halt = .fault (.error e)) (begun : q.delivered.length + 1 = p.begun)
      (short : p.seq.conn.cursor.left < castsPerRead debug) (some : 0 < p.waiting)
  | crashed (fault : Fault) (halt : q.halt = .fault fault) (other : ∀ e, fault ≠ .error e)

theorem step_goes (debug : Bool) {p : Delivering Cell Val} (running : p.halt = .running) (sane : p.Sane) :
    Goes debug p (p.step debug) := by
  obtain ⟨seq, users, row, delivered, halt⟩ := p
  obtain rfl : halt = .running := running
  have stands : seq.conn.Stands := sane.stands
  rcases row with _ | ⟨done, _ | ⟨v, rest⟩⟩
  · -- a new row, or the end
    have signature := takers_of_signature seq.clearRead_signature
    change Goes debug _ (begin _)
    unfold begin
    dsimp only
    split
    · have all : seq.clearRead.vars.countP Variable.waits = seq.clearRead.vars.countP takes :=
        List.countP_congr fun v mem => by rw [waits_of_unread (seq.clearRead_unread v mem)]
      refine .on ⟨stands, fun _ _ e => ?_, (fun e => by cases e), (fun _ e => by cases e)⟩ ?_ signature rfl rfl
      · cases e
        exact (List.nil_append _).symm
      · unfold balance waiting begun takers
        simp only [Option.isSome_some, Option.isSome_none, if_true, Bool.false_eq_true, if_false]
        rw [all, signature]
        change (seq.conn.cursor.left : Int) + _ - _ = _
        push_cast
        ring
    · next stop =>
      have ended : seq.conn.cursor.notEnd = false := by
        rw [stands.ready, Bool.true_and] at stop
        simpa using stop
      refine .on ⟨stands, (fun _ _ e => by cases e), fun _ => ⟨rfl, Cursor.left_end ended⟩, (fun _ e => by cases e)⟩ ?_ signature rfl rfl
      unfold balance waiting begun takers
      rw [signature]
      rfl
  · -- the row is complete
    refine .on ⟨stands, (fun _ _ e => by cases e), (fun e => by cases e), (fun _ e => by cases e)⟩ ?_ rfl rfl rfl
    have count : (delivered ++ [seq.row]).length + 0 = delivered.length + 1 := by simp
    change (seq.conn.cursor.left : Int) + castsPerRead debug * (seq.vars.countP takes * ((delivered ++ [seq.row]).length + 0) : Nat) - _ = _
    rw [count]
    rfl
  · have split : seq.vars = done ++ v :: rest := sane.split done (v :: rest) rfl
    have join (v' : Variable Cell Val) : done ++ v' :: rest = (done ++ [v']) ++ rest := by
      rw [List.append_assoc]
      rfl
    change Goes debug _ (round debug _ done v rest)
    unfold round
    cases projected : v.projected with
    | false =>
      simp only [Bool.false_eq_true, if_false]
      have idle : v.waits = false := by rw [Variable.waits, projected]; rfl
      refine .on ⟨stands, fun _ _ e => ?_, (fun e => by cases e), (fun _ e => by cases e)⟩ ?_ rfl rfl rfl
      · cases e
        exact split.trans (join v)
      · unfold balance waiting
        simp only [List.countP_cons, idle]
        rfl
    | true =>
      simp only [if_true]
      cases read : v.read debug seq.conn with
      | ok v' conn =>
        have same : (done ++ v' :: rest).countP takes = seq.vars.countP takes := by
          rw [split, List.countP_append, List.countP_append, List.countP_cons, List.countP_cons]
          have one : [v'].countP takes = [v].countP takes := takers_of_signature (by
            rw [List.map_singleton, List.map_singleton, Variable.read_signature read])
          rw [List.countP_singleton, List.countP_singleton] at one
          rw [one]
        cases waits : v.waits with
        | false =>
          obtain ⟨u, idle, -⟩ := Variable.read_idle debug projected waits seq.conn
          rw [read] at idle
          cases idle
          refine .on ⟨stands, fun _ _ e => ?_, (fun e => by cases e), (fun _ e => by cases e)⟩ ?_ same rfl rfl
          · cases e
            exact join v'
          · unfold balance waiting takers
            change (seq.conn.cursor.left : Int) + _ - _ = _
            simp only [List.countP_cons, waits]
            rw [show (seq.stored seq.conn (done ++ v' :: rest)).vars = done ++ v' :: rest from rfl, same]
            rfl
        | true =>
          obtain ⟨taken, -⟩ := Variable.read_waits debug waits stands
          rw [read] at taken
          obtain ⟨stands', left⟩ := taken
          have sized := Variable.read_sized stands read
          refine .on ⟨stands', fun _ _ e => ?_, (fun e => by cases e), (fun _ e => by cases e)⟩ ?_ same sized.1 sized.2
          · cases e
            exact join v'
          · unfold balance waiting takers
            change (conn.cursor.left : Int) + _ - _ = (seq.conn.cursor.left : Int) + _ - _
            simp only [List.countP_cons, waits, if_true]
            rw [show (seq.stored conn (done ++ v' :: rest)).vars = done ++ v' :: rest from rfl, same, left]
            unfold begun
            push_cast
            simp only [Option.isSome_some, if_true]
            ring
      | error fault conn =>
        have waits : v.waits = true := by
          by_contra idle
          obtain ⟨u, runs, -⟩ := Variable.read_idle debug projected (by simpa using idle) seq.conn
          rw [read] at runs
          cases runs
        obtain ⟨taken, -⟩ := Variable.read_waits debug waits stands
        rw [read] at taken
        cases fault with
        | error e =>
          refine .raised _ rfl rfl taken ?_
          unfold waiting
          simp only [List.countP_cons, waits, if_true]
          omega
        | undefined => exact .crashed .undefined rfl fun _ e => by cases e
        | foreign what => exact taken.elim
        | endless => exact taken.elim
        | terminated => exact taken.elim

section Account
variable {debug : Bool} {p : Delivering Cell Val}

/-- A reading that comes to the end has taken all the cells. -/
theorem balance_of_ended (sane : p.Sane) {n : Nat} (h : (p.run debug n).halt = .ended) :
    p.balance debug = castsPerRead debug * (p.takers * (p.run debug n).delivered.length : Nat) := by
  induction n generalizing p with
  | zero =>
    obtain ⟨row, left⟩ := sane.ended h
    unfold balance waiting begun
    rw [row, left]
    change ((0 : Nat) : Int) + _ - castsPerRead debug * ((0 : Nat) : Int) = castsPerRead debug * (p.takers * p.delivered.length : Nat)
    simp
  | succ n ih =>
    by_cases running : p.halt = .running
    · rw [run_succ] at h ⊢
      cases step_goes debug running sane with
      | on sane' same takers => rw [← same, ih sane' h, takers]
      | raised e halt =>
        rw [run_faulted halt, halt] at h
        cases h
      | crashed f halt =>
        rw [run_faulted halt, halt] at h
        cases h
    · have first := ih sane (show (p.run debug n).halt = .ended by rw [run_halted running] at h ⊢; exact h)
      rw [run_halted running] at first ⊢
      exact first

theorem waiting_le (sane : p.Sane) : p.waiting ≤ p.takers := by
  unfold waiting takers
  split
  · exact Nat.zero_le _
  · next done rest row =>
    rw [sane.split done rest row, List.countP_append]
    have le : rest.countP Variable.waits ≤ rest.countP takes := List.countP_mono_left fun v _ => takes_of_waits
    omega

/-- A reading that throws has not the cells for the row it throws in. -/
theorem balance_of_raised (sane : p.Sane) {n : Nat} {e : BESError} (h : (p.run debug n).halt = .fault (.error e)) :
    (castsPerRead debug * (p.takers * (p.run debug n).delivered.length : Nat) : Int) ≤ p.balance debug ∧
      p.balance debug < castsPerRead debug * (p.takers * ((p.run debug n).delivered.length + 1) : Nat) := by
  induction n generalizing p with
  | zero => exact absurd h (sane.calm _)
  | succ n ih =>
    by_cases running : p.halt = .running
    · rw [run_succ] at h ⊢
      cases step_goes debug running sane with
      | on sane' same takers =>
        have later := ih sane' h
        rw [same, takers] at later
        exact later
      | raised e' halt begun short some =>
        rw [run_faulted halt]
        have most := waiting_le sane
        unfold balance
        rw [← begun, Nat.mul_succ]
        have low : castsPerRead debug * p.waiting ≤ castsPerRead debug * p.takers := Nat.mul_le_mul_left _ most
        have high : castsPerRead debug * 1 ≤ castsPerRead debug * p.waiting := Nat.mul_le_mul_left _ some
        push_cast at *
        rw [mul_add]
        constructor <;> omega
      | crashed f halt other =>
        rw [run_faulted halt, halt] at h
        cases h
        exact absurd rfl (other e)
    · rw [run_halted running] at h
      exact absurd h (sane.calm _)

/-- The copy stands in the same result set, with all of its cells before it. -/
theorem copy_sane (debug : Bool) (sane : p.Sane) (running : p.halt = .running) (some : 0 < p.seq.conn.cursor.columns) :
    p.copy.Sane ∧ p.copy.takers = p.takers ∧
      p.copy.balance debug - p.balance debug = p.seq.conn.cursor.reset.left - p.seq.conn.cursor.left := by
  have stands := sane.stands
  have conn : (if p.seq.conn.ready then p.seq.conn.reset else p.seq.conn) = p.seq.conn.reset := if_pos stands.ready
  unfold copy
  rw [conn]
  refine ⟨⟨⟨stands.ready, Cursor.reset_fits stands.fits.rows_lt stands.fits.columns_lt some, stands.buffers, stands.status⟩,
    sane.split, fun stop => ?_, sane.calm⟩, rfl, ?_⟩
  · change p.halt = .ended at stop
    rw [running] at stop
    cases stop
  · unfold balance
    change ((p.seq.conn.cursor.reset.left : Int) + castsPerRead debug * (p.takers * p.begun : Nat) -
      castsPerRead debug * p.waiting) - _ = _
    ring

/-- A reading stops where it has a defined outcome: at the end, or, looked at between two rows, with an exception. -/
inductive Stops (debug : Bool) (p : Delivering Cell Val) (n : Nat) : Prop where
  | ended (h : (p.run debug n).halt = .ended)
  | raised (e : BESError) (h : (p.run debug n).halt = .fault (.error e)) (between : p.row = none)
      (all : p.balance debug = p.seq.conn.cursor.reset.left)

/-- Of two readings that deliver as many rows, one from the first cell, both are there. -/
theorem unmoved_of_harmless (sane : p.Sane) (some : 0 < p.seq.conn.cursor.columns) (users : 0 < p.users) {n : Nat}
    (stops : p.Stops debug n) (harmless : p.Harmless debug) : p.Unmoved := by
  by_cases running : p.halt = .running
  swap
  · exact .inl running
  obtain ⟨sane', takers, differ⟩ := copy_sane debug sane running some
  obtain ⟨delivered, halt⟩ := (harmless_iff users).1 harmless n
  refine .inr (.inr (Cursor.reset_eq_of_left sane.stands.fits some ?_))
  cases stops with
  | ended stop =>
    have own := balance_of_ended sane stop
    have copied := balance_of_ended sane' (halt.trans stop)
    rw [takers, delivered] at copied
    rw [own, copied] at differ
    omega
  | raised e stop between all =>
    have own := balance_of_raised sane stop
    have copied := balance_of_raised sane' (halt.trans stop)
    rw [takers, delivered] at copied
    -- the rows delivered before lie between the two cursors
    have gone : p.balance debug = p.seq.conn.cursor.left + castsPerRead debug * (p.takers * p.delivered.length : Nat) := by
      unfold balance waiting begun
      rw [between]
      change _ + castsPerRead debug * (p.takers * (p.delivered.length + 0) : Nat) - castsPerRead debug * ((0 : Nat) : Int) = _
      simp
    rw [Nat.mul_succ] at own copied
    have none' : p.delivered.length = 0 := by
      by_contra rows
      have row : ((castsPerRead debug * p.takers : Nat) : Int) ≤ (castsPerRead debug * (p.takers * p.delivered.length) : Nat) :=
        Int.ofNat_le.2 (Nat.mul_le_mul_left _ (Nat.le_mul_of_pos_right _ (Nat.pos_of_ne_zero rows)))
      push_cast at own copied gone row
      rw [mul_add] at own copied
      omega
    rw [none', Nat.mul_zero] at gone
    omega

end Account

/-! ## Every point of a reading -/

section Reached
variable {debug : Bool} {p : Delivering Cell Val}

/-- A reading over a result set none of whose cells can be fetched. -/
inductive Stuck (p : Delivering Cell Val) : Prop where
  | behind (c : Odbc Cell) (a : Odbc.Answer Cell) (conn : p.seq.conn = c.query a) (bad : a.columns = 0 ∨ bufSize < a.columns)
      (here : p.row ≠ none → p.seq.conn.cursor.notEnd = true)

theorem Stuck.crash {c : Odbc Cell} {a : Odbc.Answer Cell} (bad : a.columns = 0 ∨ bufSize < a.columns)
    (here : (c.query a).cursor.notEnd = true) : ∃ d, Odbc.getNext 1 (c.query a) = .error .undefined d := by
  rcases bad with none' | wide
  · exact ⟨_, (Odbc.Run.without_columns none' .query).2 here 1⟩
  · exact ⟨_, Odbc.getNext_undefined rfl here wide Nat.one_pos⟩

theorem Stuck.step (debug : Bool) (running : p.halt = .running) (stuck : p.Stuck) : (p.step debug).Stuck ∨ ∃ f, (p.step debug).halt = .fault f := by
  obtain ⟨c, a, conn, bad, here⟩ := stuck
  obtain ⟨seq, users, row, delivered, halt⟩ := p
  obtain rfl : halt = .running := running
  rcases row with _ | ⟨done, _ | ⟨v, rest⟩⟩
  · change (begin _).Stuck ∨ _
    left
    unfold begin
    dsimp only
    split
    · next go =>
      rw [Bool.and_eq_true] at go
      exact ⟨c, a, conn, bad, fun _ => go.2⟩
    · exact ⟨c, a, conn, bad, fun row => absurd rfl row⟩
  · exact .inl ⟨c, a, conn, bad, fun row => absurd rfl row⟩
  · have here : seq.conn.cursor.notEnd = true := here nofun
    change seq.conn = c.query a at conn
    change (round debug _ done v rest).Stuck ∨ ∃ f, (round debug _ done v rest).halt = .fault f
    unfold round
    cases projected : v.projected with
    | false =>
      simp only [Bool.false_eq_true, if_false]
      exact .inl ⟨c, a, conn, bad, fun _ => here⟩
    | true =>
      simp only [if_true]
      cases waits : v.waits with
      | false =>
        obtain ⟨u, idle, -⟩ := Variable.read_idle debug projected waits seq.conn
        rw [idle]
        exact .inl ⟨c, a, conn, bad, fun _ => here⟩
      | true =>
        simp only [Variable.waits, Bool.and_eq_true, Bool.not_eq_true'] at waits
        obtain ⟨d, crash⟩ := Stuck.crash bad (by rw [← conn]; exact here)
        rw [← conn] at crash
        rw [Variable.read_undefined waits.2 waits.1.2 (by rw [conn]; rfl) crash]
        exact .inr ⟨_, rfl⟩

theorem built_conn {c : Odbc Cell} {a : Odbc.Answer Cell} {vars : List (Variable Cell Val)} {k : Nat} {s : SQLSequence Cell Val}
    (built : SQLSequence.built c a vars k = .ok s) : s.conn = c.query a := by
  rcases Nat.eq_zero_or_pos a.columns with none' | some
  · cases k with
    | zero =>
      cases built
      rfl
    | succ k =>
      have divides : (c.query a).cursor.setNext 1 = .error .undefined := by
        unfold Cursor.setNext
        have columns : (c.query a).cursor.columns = 0 := none'
        rw [columns]
        rfl
      unfold SQLSequence.built Odbc.setNexts at built
      rw [divides] at built
      cases built
  · rw [SQLSequence.built_eq c a some] at built
    cases built
    rfl

/-- What is known of every point of a reading. -/
theorem Reached.known (reached : Reached debug p) : p.users = 1 ∧ ((∃ f, p.halt = .fault f) ∨ p.Stuck ∨
    p.Sane ∧ 0 < p.seq.conn.cursor.columns ∧ p.balance debug = p.seq.conn.cursor.reset.left) := by
  induction reached with
  | @start c a vars k s built =>
    refine ⟨rfl, .inr ?_⟩
    have conn := built_conn built
    by_cases bad : a.columns = 0 ∨ bufSize < a.columns
    · exact .inl ⟨c, a, conn, bad, fun row => absurd rfl row⟩
    · have some : 0 < a.columns := by omega
      have stands := c.query_stands a some (by omega)
      rw [← conn] at stands
      refine .inr ⟨⟨stands, nofun, nofun, nofun⟩, ?_, ?_⟩
      · change 0 < s.conn.cursor.columns
        rw [conn]
        exact some
      · unfold balance waiting begun
        change (s.conn.cursor.left : Int) + castsPerRead debug * (takers _ * 0 : Nat) - castsPerRead debug * ((0 : Nat) : Int) =
          s.conn.cursor.reset.left
        rw [conn]
        simp
        rfl
  | @step p _ ih =>
    obtain ⟨users, known⟩ := ih
    refine ⟨(run_users 1 p).trans users, ?_⟩
    by_cases running : p.halt = .running
    · rcases known with ⟨f, fault⟩ | stuck | ⟨sane, some, all⟩
      · rw [running] at fault
        cases fault
      · rcases stuck.step debug running with stuck | fault
        · exact .inr (.inl stuck)
        · exact .inl fault
      · cases step_goes debug running sane with
        | on sane' same takers rows columns =>
          refine .inr (.inr ⟨sane', by rw [columns]; exact some, ?_⟩)
          have cells : (p.step debug).seq.conn.cursor.reset.left = p.seq.conn.cursor.reset.left := by
            unfold Cursor.reset Cursor.left
            dsimp only
            rw [rows, columns]
          rw [same, all, cells]
        | raised e halt => exact .inl ⟨_, halt⟩
        | crashed f halt => exact .inl ⟨_, halt⟩
    · have fixed : p.step debug = p := run_halted running 1
      rw [fixed]
      exact known

/-- At every point of a reading, a copy is harmless if `reset` leaves the cursor where it is; and where
the reading goes on to the end, or to an exception from between two rows, only then. -/
theorem copy_harmless (reached : Reached debug p) : (p.Unmoved → p.Harmless debug) ∧
    ((∃ n, (p.run debug n).halt = .ended ∨ p.row = none ∧ ∃ e, (p.run debug n).halt = .fault (.error e)) →
      p.Harmless debug → p.Unmoved) := by
  obtain ⟨users, known⟩ := reached.known
  have one : 0 < p.users := by omega
  refine ⟨harmless_of_unmoved one, ?_⟩
  rintro ⟨n, stops⟩ harmless
  rcases known with ⟨f, fault⟩ | stuck | ⟨sane, some, all⟩
  · refine .inl ?_
    rw [fault]
    exact SQLSequence.Halt.noConfusion
  · obtain ⟨c, a, conn, -, -⟩ := stuck
    refine .inr (.inr ?_)
    rw [conn]
    rfl
  · refine unmoved_of_harmless (n := n) sane some one ?_ harmless
    rcases stops with ended | ⟨between, e, raised⟩
    · exact .ended ended
    · exact .raised e raised between all

end Reached

/-- The two rows `7` and `8` of one number, before they are read. -/
def unread : Delivering Nat Nat :=
  .start ⟨(Odbc.new (fun _ => 0) fun _ => false).query (SQLSequence.twoRows.answer fun _ => 0), SQLSequence.numbers, false⟩

theorem unread_reached : Reached false unread :=
  .start (SQLSequence.built_eq _ _ (by decide) SQLSequence.numbers 1)

/-- Behind the first row. -/
def firstRead : Delivering Nat Nat := unread.run false 3

theorem firstRead_reached : Reached false firstRead := .step (.step (.step unread_reached))

theorem early_copy_harmless : unread.Harmless false ∧ (firstRead.Harmless false → firstRead.Unmoved) :=
  ⟨(copy_harmless unread_reached).1 (.inr (.inr rfl)), (copy_harmless firstRead_reached).2 ⟨4, .inl rfl⟩⟩

/-- A copy made behind the first row has the second delivered twice. -/
theorem late_copy_repeats : Reached false firstRead ∧
    (firstRead.run false 7).delivered = [[some 7], [some 8]] ∧ (firstRead.run false 7).halt = .ended ∧
    (firstRead.copy.destroy.run false 7).delivered = [[some 7], [some 8], [some 8]] ∧
    (firstRead.copy.destroy.run false 7).halt = .ended ∧ ¬ firstRead.Harmless false := by
  refine ⟨firstRead_reached, rfl, rfl, rfl, rfl, fun harmless => ?_⟩
  have same := (harmless 0 7).1
  cases same

end Delivering

end SqlHandler
