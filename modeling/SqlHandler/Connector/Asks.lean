import SqlHandler.Connector.Driver
import SqlHandler.Stl.Runs

/-!
# The order of the calls

The calls a connector makes go through the phases of a connection one after the other, and none is
made twice: a property of the columns is asked for where its array is not there, and from then on it
is (`Upto`).
-/

namespace SqlHandler
open Posix Leaving

/-- The place of a call in the life of a connection. -/
def DriverRequest.phase : DriverRequest → Nat
  | .allocEnv => 1
  | .setVersion => 2
  | .allocConn => 3
  | .connect .. => 4
  | .allocCount => 5
  | .execCount _ => 6
  | .fetchCount => 7
  | .dataCount => 8
  | .freeCount => 9
  | .allocStmt => 10
  | .exec _ => 11
  | .numResultCols => 12
  | .colAttribute .. | .bindCol .. => 13
  | .closeCursor => 14
  | .freeStmt => 15
  | .disconnect => 16
  | .freeConn => 17
  | .endTran => 18
  | .freeEnv => 19

/-- The column a call binds, if it binds one. -/
def DriverRequest.binds : DriverRequest → Option Nat
  | .bindCol column _ _ => some column
  | _ => none

/-- Calls, the latest first: none is made twice and no column is bound twice, to whatever type and size;
each is in a later phase than the calls before it, but for those on the columns. -/
structure InOrder (calls : List DriverRequest) : Prop where
  once : calls.Nodup
  bindings : (calls.filterMap DriverRequest.binds).Nodup
  order : calls.Pairwise fun later earlier => earlier.phase < later.phase ∨ earlier.phase = 13 ∧ later.phase = 13

namespace ODBCConnector

/-- A connector in phase `n`, the first `b` columns of which may be bound. -/
structure Upto (n b : Nat) (c : ODBCConnector) : Prop where
  inOrder : InOrder c.calls
  phase : ∀ r ∈ c.calls, r.phase ≤ n
  unasked : ∀ p, c.arrays p = none → ∀ k, .colAttribute k p.field ∉ c.calls
  bound : ∀ k type size, .bindCol k type size ∈ c.calls → k ≤ b

/-- A connector that has not been closed. -/
def Open (c : ODBCConnector) : Prop := ∃ b, Upto 13 b c

/-- What is said of the calls and of the arrays only. -/
def Blind (I : ODBCConnector → Prop) : Prop := ∀ c c', c'.calls = c.calls → c'.arrays = c.arrays → I c → I c'

variable {active : CheckPoint → Bool} {D : Driver} {I : ODBCConnector → Prop} {n m b b' : Nat} {c c' : ODBCConnector}
  {p : Property} {r : DriverRequest} {α : Type}

theorem Upto.blind : Blind (Upto n b) := by
  intro c c' calls arrays h
  exact ⟨by rw [calls]; exact h.inOrder, by rw [calls]; exact h.phase, by rw [calls, arrays]; exact h.unasked,
    by rw [calls]; exact h.bound⟩

theorem Upto.mono (h : Upto n b c) (le : n ≤ m) : Upto m b c :=
  ⟨h.inOrder, fun r mem => (h.phase r mem).trans le, h.unasked, h.bound⟩

theorem Upto.open (h : Upto n b c) (le : n ≤ 13) : Open c := ⟨b, h.mono le⟩

theorem Open.blind : Blind Open := by
  intro c c' calls arrays h
  obtain ⟨b, h⟩ := h
  exact ⟨b, Upto.blind c c' calls arrays h⟩

theorem Open.inOrder (h : Open c) : InOrder c.calls := h.choose_spec.inOrder

theorem mem_binds {calls : List DriverRequest} {k : Nat} :
    k ∈ calls.filterMap DriverRequest.binds ↔ ∃ type size, .bindCol k type size ∈ calls := by
  rw [List.mem_filterMap]
  constructor
  · rintro ⟨r, mem, same⟩
    cases r with
    | bindCol column type size =>
      cases same
      exact ⟨type, size, mem⟩
    | _ => cases same
  · rintro ⟨type, size, mem⟩
    exact ⟨_, mem, rfl⟩

/-- A column bound next was not bound before. -/
theorem nodup_binds (h : Upto n b c) (bound : ∀ k type size, r = .bindCol k type size → b < k ∧ k ≤ b') :
    ((r :: c.calls).filterMap DriverRequest.binds).Nodup := by
  rw [List.filterMap_cons]
  cases binds : r.binds with
  | none => exact h.inOrder.bindings
  | some k =>
    refine List.nodup_cons.2 ⟨fun mem => ?_, h.inOrder.bindings⟩
    obtain ⟨type, size, mem⟩ := mem_binds.1 mem
    have le := h.bound k type size mem
    cases r with
    | bindCol column type' size' =>
      cases binds
      have lt := (bound k type' size' rfl).1
      omega
    | _ => cases binds

/-- A call that has not been made, in a phase not before the one reached. -/
theorem Upto.call (h : Upto n b c) (reply : Reply) (new : r ∉ c.calls) (later : n < r.phase ∨ n = 13 ∧ r.phase = 13)
    (asked : ∀ p k, r = .colAttribute k p.field → c.arrays p ≠ none) (le : b ≤ b')
    (bound : ∀ k type size, r = .bindCol k type size → b < k ∧ k ≤ b') : Upto r.phase b' (c.afterCall r reply) where
  inOrder := by
    refine ⟨List.nodup_cons.2 ⟨new, h.inOrder.once⟩, ?_, List.pairwise_cons.2 ⟨fun r' mem => ?_, h.inOrder.order⟩⟩
    · exact nodup_binds h bound
    · have le := h.phase r' mem
      omega
  phase r' mem := by
    rcases List.mem_cons.1 mem with rfl | mem
    · exact Nat.le_refl _
    · have le := h.phase r' mem
      omega
  unasked p none' k mem := by
    rcases List.mem_cons.1 mem with same | mem
    · exact asked p k same.symm none'
    · exact h.unasked p none' k mem
  bound k type size mem := by
    rcases List.mem_cons.1 mem with same | mem
    · exact (bound k type size same.symm).2
    · exact (h.bound k type size mem).trans le

/-- The first call of a phase with one call only. -/
theorem Upto.next (h : Upto n b c) (reply : Reply) (later : n < r.phase) (other : r.phase ≠ 13) :
    Upto r.phase b (c.afterCall r reply) := by
  refine h.call reply (fun mem => ?_) (.inl later) (fun p k same => ?_) (Nat.le_refl b) fun k type size same => ?_
  · exact Nat.not_lt.2 (h.phase r mem) later
  · rw [same] at other
    exact absurd rfl other
  · rw [same] at other
    exact absurd rfl other

/-! ## Single calls -/

theorem ask_runs {E : ODBCConnector → Prop} (later : n < r.phase) (other : r.phase ≠ 13) :
    Runs (Upto n b) (ask D r) (Upto r.phase b) E :=
  Runs.of_run (fun _ => rfl) fun _ h => h.next _ later other

theorem askRc_runs {E : ODBCConnector → Prop} (later : n < r.phase) (other : r.phase ≠ 13) :
    Runs (Upto n b) (askRc D r) (Upto r.phase b) E :=
  Runs.of_run (fun _ => rfl) fun c h => Upto.blind (c.afterCall r (D.answer r)) _ rfl rfl (h.next _ later other)

theorem checked_runs {P Q : ODBCConnector → Prop} (message : Str) (asks : Runs P (askRc D r) Q Q) :
    Runs P (require D r message) Q Q := by
  unfold require
  refine asks.bind fun reply => ?_
  cases reply.rc.succeeded with
  | true => exact Runs.pure fun _ h => h
  | false => exact Runs.throw _ fun _ h => h

theorem require_runs (message : Str) (later : n < r.phase) (other : r.phase ≠ 13) :
    Runs (Upto n b) (require D r message) (Upto r.phase b) (Upto r.phase b) :=
  checked_runs message (askRc_runs later other)

theorem given_keeps (o : Except Fault α) : Keeps I (SQLActionFactory.given o : Proc ODBCConnector α) := by
  cases o with
  | ok a => exact Runs.pure fun _ h => h
  | error fault => exact Runs.throw _ fun _ h => h

theorem reported_calls (c : ODBCConnector) : c.reported.calls = c.calls ∧ c.reported.arrays = c.arrays := by
  unfold reported
  split
  · exact ⟨rfl, rfl⟩
  · exact ⟨rfl, rfl⟩

/-- A check makes no call of its own. -/
theorem trigger_state (active : CheckPoint → Bool) (check : CheckPoint) (c : ODBCConnector) :
    trigger active check c = .ok () c ∨ trigger active check c = .ok () c.resetSeq ∨
      ∃ fault, trigger active check c = .error fault c.reported := by
  by_cases on : Checked active check
  · cases failed : c.rc.failed with
    | true => exact .inr (.inr ⟨_, trigger_failed on failed⟩)
    | false => exact .inr (.inl (trigger_passed on failed))
  · exact .inl (trigger_unchecked on)

theorem trigger_keeps (blind : Blind I) (active : CheckPoint → Bool) (check : CheckPoint) :
    Keeps I (trigger active check) where
  ok c u t h run := by
    rcases trigger_state active check c with same | same | ⟨fault, same⟩ <;> rw [same] at run <;> cases run
    · exact h
    · exact blind c _ rfl rfl h
  error c fault t h run := by
    rcases trigger_state active check c with same | same | ⟨fault, same⟩ <;> rw [same] at run <;> cases run
    exact blind _ _ (reported_calls c).1 (reported_calls c).2 h

theorem trigger_ready (active : CheckPoint → Bool) (check : CheckPoint) (ready : Bool) :
    Keeps (fun c => c.ready = ready) (trigger active check) where
  ok c u t h run := by
    rcases trigger_state active check c with same | same | ⟨fault, same⟩ <;> rw [same] at run <;> cases run
    · exact h
    · exact h
  error c fault t h run := by
    rcases trigger_state active check c with same | same | ⟨fault, same⟩ <;> rw [same] at run <;> cases run
    unfold reported
    split <;> exact h

theorem element_keeps (blind : Blind I) (active : CheckPoint → Bool) (p : Property) (reply : Reply) :
    Keeps I (element active p reply) where
  ok c a t h run := by
    unfold element at run
    cases checked : trigger active p.point c with
    | ok u c' =>
      rw [checked] at run
      cases run
      exact (trigger_keeps blind active p.point).ok c u _ h checked
    | error fault c' =>
      have kept := (trigger_keeps blind active p.point).error c fault c' h checked
      rw [checked] at run
      split at run
      · cases ‹EStateM.Result.error fault c' = _›
      · rename_i same
        cases same
        split at run <;> cases run
        exact kept
      · cases run
  error c fault t h run := by
    unfold element at run
    cases checked : trigger active p.point c with
    | ok u c' =>
      rw [checked] at run
      cases run
    | error fault' c' =>
      have kept := (trigger_keeps blind active p.point).error c fault' c' h checked
      rw [checked] at run
      split at run
      · cases run
      · rename_i same
        cases same
        split at run <;> cases run
        exact kept
      · rename_i same
        cases same
        cases run
        exact kept

/-! ## Filling an array -/

theorem field_injective {p q : Property} (same : p.field = q.field) : p = q := by
  cases p <;> cases q <;> first | rfl | cases same

/-- A connector in the loop that fills the array of `p`, before column `col`. -/
structure Round (p : Property) (col b : Nat) (c : ODBCConnector) : Prop where
  upto : Upto 13 b c
  array : c.arrays p ≠ none
  before : ∀ k, .colAttribute k p.field ∈ c.calls → k ≤ col

theorem Round.blind {col : Nat} : Blind (Round p col b) := by
  intro c c' calls arrays h
  exact ⟨Upto.blind c c' calls arrays h.upto, by rw [arrays]; exact h.array, by rw [calls]; exact h.before⟩

theorem Round.asked {col : Nat} (h : Round p col b c) (reply : Reply) :
    Round p (col + 1) b (c.afterCall (.colAttribute (col + 1) p.field) reply) where
  upto := by
    refine h.upto.call (r := .colAttribute (col + 1) p.field) reply (fun mem => ?_) (.inr ⟨rfl, rfl⟩) (fun q k same => ?_)
      (Nat.le_refl b) fun k type size same => ?_
    · have le := h.before _ mem
      omega
    · rw [← field_injective (DriverRequest.colAttribute.inj same).2]
      exact h.array
    · cases same
  array := h.array
  before k mem := by
    rcases List.mem_cons.1 mem with same | mem
    · cases same
      exact Nat.le_refl _
    · exact Nat.le_succ_of_le (h.before k mem)

/-- An element stored leaves the arrays that are there. -/
theorem store_arrays (p : Property) (col : Nat) (value : p.Elem) (c : ODBCConnector) (q : Property) :
    (store p col value c).arrays q = none ↔ c.arrays q = none := by
  by_cases same : q = p
  · subst same
    change Function.update c.arrays q _ q = none ↔ _
    rw [Function.update_self, Option.map_eq_none_iff]
  · change Function.update c.arrays p _ q = none ↔ _
    rw [Function.update_of_ne same]

theorem Round.store {col : Nat} (h : Round p col b c) (k : Nat) (value : p.Elem) : Round p col b (store p k value c) where
  upto := ⟨h.upto.inOrder, h.upto.phase, fun q none' => h.upto.unasked q ((store_arrays p k value c q).1 none'),
    h.upto.bound⟩
  array none' := h.array ((store_arrays p k value c p).1 none')
  before := h.before

theorem fillColumn_runs (active : CheckPoint → Bool) (D : Driver) (p : Property) (col b : Nat) :
    Runs (Round p col b) (fillColumn active D p col) (Round p (col + 1) b) (Round p (col + 1) b) := by
  have asks : Runs (Round p col b) (askRc D (.colAttribute (col + 1) p.field)) (Round p (col + 1) b) (Round p (col + 1) b) :=
    Runs.of_run (fun _ => rfl) fun c h =>
      Round.blind (c.afterCall _ (D.answer (.colAttribute (col + 1) p.field))) _ rfl rfl (h.asked _)
  unfold fillColumn
  refine asks.bind fun reply => (element_keeps Round.blind active p reply).bind fun value => ?_
  exact Runs.modify fun c h => h.store col value

theorem fill_runs (active : CheckPoint → Bool) (D : Driver) (p : Property) (col b left : Nat) :
    Runs (Round p col b) (fill active D p col left) (Upto 13 b) (Upto 13 b) := by
  induction left generalizing col with
  | zero => exact Runs.pure fun _ h => h.upto
  | succ left ih =>
    unfold fill
    exact ((fillColumn_runs active D p col b).throwing fun _ h => h.upto).bind fun _ => ih (col + 1)

theorem allocate_round (h : Upto 13 b c) (none' : c.arrays p = none) : Round p 0 b (allocate p c) where
  upto := by
    refine ⟨h.inOrder, h.phase, fun q still k mem => ?_, h.bound⟩
    by_cases same : q = p
    · subst same
      exact h.unasked q none' k mem
    · change Function.update c.arrays p _ q = none at still
      rw [Function.update_of_ne same] at still
      exact h.unasked q still k mem
  array gone := by
    change Function.update c.arrays p _ p = none at gone
    rw [Function.update_self] at gone
    cases gone
  before k mem := absurd mem (h.unasked p none' k)

theorem make_runs (active : CheckPoint → Bool) (D : Driver) (p : Property) (b : Nat) :
    Runs (fun c => Upto 13 b c ∧ c.arrays p = none) (make active D p) (Upto 13 b) (Upto 13 b) := by
  unfold make
  refine Runs.get fun c h => ?_
  by_cases some' : 0 < c.cursor.columns
  · rw [if_pos some']
    refine Runs.bind (Q := Round p 0 b) (Runs.modify fun s same => ?_) fun _ => fill_runs active D p 0 b _
    rw [same]
    exact allocate_round h.1 h.2
  · rw [if_neg some']
    exact Runs.throw _ fun s same => by rw [same]; exact h.1

theorem stored_state (p : Property) (column : Nat) (c : ODBCConnector) :
    (∃ value, stored p column c = .ok value c) ∨ ∃ fault, stored p column c = .error fault c := by
  unfold stored lookup
  split
  · split
    · split
      · exact .inl ⟨_, rfl⟩
      · exact .inr ⟨_, rfl⟩
    · split
      · exact .inl ⟨_, rfl⟩
      · exact .inr ⟨_, rfl⟩
  · exact .inr ⟨_, rfl⟩

theorem stored_keeps (p : Property) (column : Nat) : Keeps I (stored p column) where
  ok c a t h run := by
    rcases stored_state p column c with ⟨value, same⟩ | ⟨fault, same⟩ <;> rw [same] at run <;> cases run
    exact h
  error c e t h run := by
    rcases stored_state p column c with ⟨value, same⟩ | ⟨fault, same⟩ <;> rw [same] at run <;> cases run
    exact h

theorem getProperty_keeps (active : CheckPoint → Bool) (D : Driver) (p : Property) (column b : Nat) :
    Keeps (Upto 13 b) (getProperty active D p column) := by
  refine Runs.of_state fun c h => ?_
  cases array : c.arrays p with
  | some l =>
    refine Runs.at_state (y := stored p column) ?_ ((stored_keeps p column).start h)
    unfold getProperty
    rw [array]
  | none =>
    have runs := (make_runs active D p b).bind fun _ => stored_keeps (I := Upto 13 b) p column
    refine Runs.at_state (y := do make active D p; stored p column) ?_ (runs.start ⟨h, array⟩)
    unfold getProperty
    rw [array]

/-! ## A query -/

theorem measure_keeps (active : CheckPoint → Bool) (D : Driver) (b col left : Nat) :
    Keeps (Upto 13 b) (measure active D col left) := by
  induction left generalizing col with
  | zero => exact Runs.pure fun _ h => h
  | succ left ih =>
    unfold measure
    exact (getProperty_keeps active D .sizes col b).bind fun _ => ih (col + 1)

theorem bindCol_upto {i : Nat} (h : Upto 13 i c) (type : Option CType) (size : Int) (reply : Reply) :
    Upto 13 (i + 1) (c.afterCall (.bindCol (i + 1) type size) reply) := by
  refine h.call (r := .bindCol (i + 1) type size) reply (fun mem => ?_) (.inr ⟨rfl, rfl⟩) (fun p k same => by cases same)
    (Nat.le_succ i) fun k type' size' same => ?_
  · have le := h.bound _ _ _ mem
    omega
  · cases same
    exact ⟨Nat.lt_succ_self i, Nat.le_refl _⟩

theorem bindCols_runs (active : CheckPoint → Bool) (D : Driver) (i left : Nat) :
    Runs (Upto 13 i) (bindCols active D i left) Open Open := by
  have opened (b : Nat) : ∀ c, Upto 13 b c → Open c := fun c h => h.open (Nat.le_refl 13)
  induction left generalizing i with
  | zero => exact Runs.pure (opened i)
  | succ left ih =>
    unfold bindCols
    have type := (getProperty_keeps active D .types i i).throwing (opened i)
    have size := (getProperty_keeps active D .sizes i i).throwing (opened i)
    refine type.bind fun type => size.bind fun size => ?_
    have binds (message : Str) : Runs (Upto 13 i) (require D (.bindCol (i + 1) type size) message)
        (Upto 13 (i + 1)) (Upto 13 (i + 1)) :=
      checked_runs message (Runs.of_run (fun _ => rfl) fun c h =>
        Upto.blind (c.afterCall _ (D.answer (.bindCol (i + 1) type size))) _ rfl rfl (bindCol_upto h type size _))
    exact ((binds _).throwing (opened (i + 1))).bind fun _ => ih (i + 1)

theorem getRowCount_runs (D : Driver) (sql : Except Fault Str) (b : Nat) :
    Runs (Upto 4 b) (getRowCount D sql) (Upto 9 b) (Upto 9 b) := by
  have until' {n : Nat} (le : n ≤ 9) : ∀ c, Upto n b c → Upto 9 b c := fun c h => h.mono le
  unfold getRowCount
  refine (ask_runs (r := .allocCount) (by decide) (by decide)).bind fun _ => ?_
  refine ((given_keeps sql).throwing (until' (n := 5) (by decide))).bind fun sql => ?_
  refine ((require_runs (r := .execCount sql) _ (show 5 < 6 by decide) (show 6 ≠ 13 by decide)).throwing
    (until' (n := 6) (by decide))).bind fun _ => ?_
  refine ((require_runs (n := 6) (r := .fetchCount) _ (by decide) (by decide)).throwing
    (until' (by decide))).bind fun _ => ?_
  refine ((require_runs (r := .dataCount) _ (by decide) (by decide)).throwing (until' (by decide))).bind fun count => ?_
  cases count.isNull with
  | true => exact Runs.throw _ (until' (n := 8) (by decide))
  | false => exact (ask_runs (r := .freeCount) (by decide) (by decide)).bind fun _ => Runs.pure fun _ h => h

/-- `query` on a connector that is not ready. -/
theorem query_runs (active : CheckPoint → Bool) (D : Driver) (s : Statements) :
    Runs (fun c => Upto 4 0 c ∧ c.ready = false) (query active D s) Open Open := by
  have opened {n : Nat} (le : n ≤ 13) : ∀ c, Upto n 0 c → Open c := fun c h => h.open le
  unfold query
  refine Runs.get fun c h => ?_
  rw [h.2]
  change Runs _ (getRowCount D s.count >>= _) _ _
  refine (((getRowCount_runs D s.count 0).start h.1).throwing (opened (by decide))).bind fun rows => ?_
  refine Runs.bind (Q := Upto 9 0) (Runs.modify fun c h => Upto.blind c _ rfl rfl h) fun _ => ?_
  refine (ask_runs (r := .allocStmt) (by decide) (by decide)).bind fun _ => ?_
  refine ((given_keeps s.data).throwing (opened (n := 10) (by decide))).bind fun sql => ?_
  refine ((require_runs (r := .exec sql) _ (show 10 < 11 by decide) (show 11 ≠ 13 by decide)).throwing
    (opened (n := 11) (by decide))).bind fun _ => ?_
  refine ((require_runs (n := 11) (r := .numResultCols) _ (by decide) (by decide)).throwing
    (opened (by decide))).bind fun cols => ?_
  refine Runs.bind (Q := Upto 13 0) (Runs.modify fun c h => Upto.blind c _ rfl rfl (h.mono (by decide))) fun _ => ?_
  refine ((measure_keeps active D 0 0 _).throwing (opened (by decide))).bind fun _ => ?_
  refine (bindCols_runs active D 0 _).bind fun _ => (trigger_keeps Open.blind active .onAlways).bind fun _ => ?_
  exact Runs.bind (Q := Open) (Runs.modify fun c h => Open.blind c _ rfl rfl h) fun _ => Runs.pure fun _ h => h

/-! ## Connections -/

theorem close_runs {E : ODBCConnector → Prop} (D : Driver) : Runs Open (close D) (fun c => InOrder c.calls) E := by
  refine Runs.of_exists fun b => ?_
  unfold close
  refine (ask_runs (r := .closeCursor) (by decide) (by decide)).bind fun _ => ?_
  refine (ask_runs (r := .freeStmt) (by decide) (by decide)).bind fun _ => ?_
  refine (ask_runs (r := .disconnect) (by decide) (by decide)).bind fun _ => ?_
  refine (ask_runs (r := .freeConn) (by decide) (by decide)).bind fun _ => ?_
  refine (ask_runs (r := .endTran) (by decide) (by decide)).bind fun _ => ?_
  refine (ask_runs (r := .freeEnv) (by decide) (by decide)).bind fun _ => ?_
  exact Runs.bind (Q := fun c => InOrder c.calls) (Runs.modify fun c h => h.inOrder) fun _ => Runs.pure fun _ h => h

/-- A new connector that is connected. -/
theorem connect_runs {E : ODBCConnector → Prop} (D : Driver) (server user pass strState : Str) :
    Runs (· = new strState) (connect D server user pass) (fun c => Upto 4 0 c ∧ c.ready = false) E := by
  have first : Upto 0 0 (new strState) :=
    ⟨⟨List.nodup_nil, List.nodup_nil, List.Pairwise.nil⟩, fun _ mem => absurd mem List.not_mem_nil, fun _ _ _ => List.not_mem_nil,
      fun _ _ _ mem => absurd mem List.not_mem_nil⟩
  have asks {n : Nat} {r : DriverRequest} (later : n < r.phase) (other : r.phase ≠ 13) :
      Runs (fun c => Upto n 0 c ∧ c.ready = false) (askRc D r) (fun c => Upto r.phase 0 c ∧ c.ready = false) E :=
    Runs.of_run (fun _ => rfl) fun c h => ⟨Upto.blind (c.afterCall r (D.answer r)) _ rfl rfl (h.1.next _ later other), h.2⟩
  unfold connect
  refine Runs.get fun c same => ?_
  subst same
  change Runs _ (askRc D .allocEnv >>= _) _ _
  refine Runs.bind (Q := fun c => Upto 1 0 c ∧ c.ready = false) ((asks (n := 0) (r := .allocEnv) (by decide) (by decide)).start
    ⟨first, rfl⟩) fun _ => ?_
  refine (asks (r := .setVersion) (by decide) (by decide)).bind fun _ => ?_
  refine (asks (r := .allocConn) (by decide) (by decide)).bind fun _ => ?_
  refine (asks (r := .connect server user pass) (show 3 < 4 by decide) (show 4 ≠ 13 by decide)).bind fun _ => ?_
  exact Runs.pure fun _ h => h

end ODBCConnector

end SqlHandler
