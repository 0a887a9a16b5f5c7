import SqlHandler.Handler.Columns
import SqlHandler.Handler.Runner

/-!
# The builders of the plugin

A command on a driver does what it does on the backend the driver presents (`build_presented`), and
what it delivers are the columns of the driver (`build_lists`). No type action of the plugin gives
NULL, so that the place-holders of the builders are never used.
-/

namespace SqlHandler
open Posix Lockstep

namespace OdbcJob
open ODBCConnector
variable {ρ α : Type} {o : OdbcCall} {now : ρ}

/-! ## The builders -/

/-- A query has put the cursor at its start, so that `reset` finds nothing to do. -/
theorem reset_together (o : OdbcCall) : Together (fun s j => Agree now s j ∧ Queried o.driver o.statements s.connector)
    (reset : Proc (OdbcJob ρ) Unit) Job.reset (fun _ _ => At o 0 now) fun _ s j => Ended s j := by
  intro s j h
  obtain ⟨agree, queried⟩ := h
  have stays : ODBCConnector.reset s.connector = .ok () s.connector := by
    change EStateM.Result.ok () { s.connector with cursor := s.connector.cursor.reset } = _
    rw [queried.start]
  have left : reset s = .ok () s := call_ok stays
  have right : Job.reset j = .ok () { j with cursor := j.cursor.reset } := rfl
  rw [left, right]
  refine .ok ⟨⟨?_, agree.closed, agree.left, agree.right⟩, queried.settled, queried.columns, fun _ => ?_,
    fun more => (queried.full more).1, fun _ => ⟨queried.names, queried.descs, queried.passed⟩,
    fun later => absurd later (Nat.lt_irrefl 0)⟩
  · exact (congrArg Cursor.reset agree.cursor).trans queried.start
  · rw [← queried.start]
    rfl

theorem closeAction_together (o : OdbcCall) : Together (At o o.columns now) (closeAction o : Proc (OdbcJob ρ) Unit)
    (Job.closeAction o.presented) (fun _ _ s j => Ended s j ∧ s.closed = true ∧ s.response = now) fun _ s j => Ended s j := by
  refine catch_together (E := fun _ s j => Ended s j) ?_ (fun fault => Together.throw _ fun _ _ h => h) fun _ _ _ h => h
  intro s j h
  obtain ⟨agree, walk⟩ := h
  have closed := close_run o.driver s.connector
  have rc := closedBy_rc o.driver s.connector
  have stmt := closedBy_stmt o.driver s.connector
  have settled := closedBy_settled o.driver s.connector
  generalize closedBy o.driver s.connector = c' at closed rc stmt settled
  have left : close o s = .ok () ⟨c', true, s.response⟩ := Proc.bind_ok (call_ok closed)
  have right : (Job.close : Proc (Job ρ) Unit) j = .ok () { j with closed := true } := rfl
  rw [Proc.bind_ok left, Proc.bind_ok right]
  refine (check_together (P := fun s' j' => s' = ⟨c', true, s.response⟩ ∧ j' = { j with closed := true })
    (r := o.checking .onClose 0) (fun _ _ h => ?_) (fun _ _ h => ?_) _ _ ⟨rfl, rfl⟩).weaken (fun _ _ _ _ h => h)
    fun _ _ _ h => h.1
  · rw [h.1, h.2]
    exact ⟨rfl, agree.response⟩
  · rw [h.1, h.2]
    have checked := settled.trigger o.active .onClose
    rw [rc, stmt] at checked
    have ended : Ended (⟨c', true, s.response⟩ : OdbcJob ρ) { j with closed := true } := ⟨rfl, agree.response⟩
    have kept : Ended (⟨c', true, s.response⟩ : OdbcJob ρ) { j with closed := true } ∧ true = true ∧ s.response = now :=
      ⟨ended, rfl, agree.left⟩
    rcases Nat.eq_zero_or_pos o.columns with none' | some'
    · have good : ¬ (Checked o.active .onClose ∧ c'.rc.failed = true) := fun bad => by
        rw [rc, (walk.first none').2.2] at bad
        exact Bool.false_ne_true bad.2
      have passes : o.checking .onClose 0 = .ok () := if_pos none'
      rw [passes, settled.trigger_good good]
      exact .ok kept
    · have described := (walk.later some').2.2
      have same : o.checking .onClose 0 = judge o.active .onClose s.connector.rc
          (blame (o.driver.answer .freeConn).records (o.driver.answer .freeStmt).records (o.driver.answer .freeEnv).records) := by
        rw [described.rc]
        exact if_neg (Nat.ne_of_gt some')
      rw [same]
      exact checked.weaken fun _ c'' _ same => by rw [same]; exact kept

/-- The columns the loops are given are those of the statement. -/
theorem At.columns {i : Nat} {s : OdbcJob ρ} {j : Job ρ} (h : At o i now s j) : s.connector.cursor.columns = o.columns ∧
    j.cursor.columns = o.columns :=
  ⟨h.2.columns, by rw [h.1.cursor, h.2.columns]⟩

theorem requireResponse_together (o : OdbcCall) (misfit : Str) {P : OdbcJob ρ → Job ρ → Prop}
    (ended : ∀ s j, P s j → Ended s j) : Together P (requireResponse o misfit) (Job.requireResponse o.presented misfit)
      (fun _ _ => P) fun _ s j => Ended s j := by
  unfold requireResponse Job.requireResponse
  have fits : o.presented.responseFits = o.responseFits := rfl
  rw [fits]
  cases o.responseFits with
  | true => exact Together.pure fun _ _ h => h
  | false => exact Together.throw _ ended

end OdbcJob

/-- A DDS with one sequence more, of these variables, their attributes appended one after the other. -/
def OdbcCall.ListsSequence (L : Libdap) (o : OdbcCall) (vs : List BaseType) (before after : L.DDS) : Prop :=
  ∃ r, appendAll L.appendDds (vs.map o.ddsEntry) before = .ok r ∧
    after = L.setDatasetName (BuilderCalls.baseName o.realName) (L.addVar o.server (vs.map .column) r)

/-- The variables `vs` in the response of a command: one call of `append_attr` for each, and in a DDS
the sequence of them. -/
def OdbcCall.Lists (L : Libdap) (o : OdbcCall) (vs : List BaseType) :
    (command : Command) → (before after : command.Response L) → Prop
  | .das, before, after => appendAll (L.appendDas o.server) (vs.map o.dasEntry) (L.openTable o.server before) = .ok after
  | .dds, before, after => o.ListsSequence L vs before after
  | .data, before, after => o.ListsSequence L vs before after

namespace OdbcJob
open ODBCConnector
variable {ρ α : Type} {L : Libdap} {o : OdbcCall}

theorem sqlBuildDas_together (o : OdbcCall) {now : L.DAS} : Together (Fresh now) (BuilderCalls.sqlBuildDas L (calls o))
    (BuilderCalls.sqlBuildDas L (Job.calls o.presented))
    (fun b b' s j => (b' = b ∧ Ended s j) ∧ s.closed = true ∧ ∃ vs, (List.range o.columns).mapM o.column = .ok vs ∧
      appendAll (L.appendDas o.server) (vs.map o.dasEntry) (L.openTable o.server now) = .ok s.response)
      fun _ s j => Ended s j := by
  unfold BuilderCalls.sqlBuildDas
  refine (requireResponse_together o _ fun _ _ h => h.1.ended).bind fun _ _ => ?_
  refine (connect_together o).bind fun _ _ => (query_together o).bind fun _ _ => ?_
  refine Together.bind (Q := fun _ _ s j => Agree (L.openTable o.server now) s j ∧ Queried o.driver o.statements s.connector)
    (fun s j h => ?_) fun _ _ => ?_
  · obtain ⟨agree, queried⟩ := h
    exact .ok ⟨⟨agree.cursor, agree.closed, congrArg (L.openTable o.server) agree.left,
      congrArg (L.openTable o.server) agree.right⟩, queried⟩
  · refine (reset_together o).bind fun _ _ => Together.get fun s j between => ?_
    change Ends _ _ ((BuilderCalls.dasColumns L (calls o) 0 s.connector.cursor.columns >>= fun _ => _) s)
      ((BuilderCalls.dasColumns L (Job.calls o.presented) 0 j.cursor.columns >>= fun _ => _) j)
    rw [between.columns.1, between.columns.2]
    refine (dasColumns_together o (Nat.zero_add _) s j between).bind fun _ _ s j listed => ?_
    obtain ⟨vs, next, columns, appended, between⟩ := listed
    refine (closeAction_together o s j between).bind fun _ _ s j done => ?_
    obtain ⟨ended, closed, kept⟩ := done
    rw [← List.range_eq_range'] at columns
    exact .ok ⟨⟨rfl, ended⟩, closed, vs, columns, by rw [kept]; exact appended⟩

theorem buildSequence_together (o : OdbcCall) (misfit dummy : Str) {now : L.DDS} :
    Together (Fresh now) (BuilderCalls.buildSequence L misfit dummy (calls o))
      (BuilderCalls.buildSequence L misfit dummy (Job.calls o.presented))
      (fun b b' s j => (b' = b ∧ Ended s j) ∧ ∃ vs, (List.range o.columns).mapM o.column = .ok vs ∧
        o.ListsSequence L vs now s.response) fun _ s j => Ended s j := by
  unfold BuilderCalls.buildSequence
  refine (connect_together o).bind fun _ _ => (query_together o).bind fun _ _ => ?_
  refine (requireResponse_together o _ fun _ _ h => h.1.ended).bind fun _ _ => ?_
  refine (reset_together o).bind fun _ _ => Together.get fun s j between => ?_
  change Ends _ _ ((BuilderCalls.ddsColumns L (calls o) dummy 0 s.connector.cursor.columns [] >>= fun _ => _) s)
    ((BuilderCalls.ddsColumns L (Job.calls o.presented) dummy 0 j.cursor.columns [] >>= fun _ => _) j)
  rw [between.columns.1, between.columns.2]
  refine (ddsColumns_together o dummy (Nat.zero_add _) [] s j between).bind fun seq seq' s j listed => ?_
  obtain ⟨rfl, vs, next, columns, rfl, appended, agree, -⟩ := listed
  have same := congrArg (fun r : L.DDS =>
    L.setDatasetName (BuilderCalls.baseName o.realName) (L.addVar o.server (vs.map SeqVar.column) r)) agree.response
  have left := congrArg (fun r : L.DDS =>
    L.setDatasetName (BuilderCalls.baseName o.realName) (L.addVar o.server (vs.map SeqVar.column) r)) agree.left
  rw [← List.range_eq_range'] at columns
  exact .ok ⟨⟨rfl, agree.closed, same⟩, vs, columns, next, appended, left⟩

/-! ## What a caller sees -/

/-- `ODBCPlugin::build_das`, `build_dds` and `build_data` on a connector. -/
def build (L : Libdap) (o : OdbcCall) (command : Command) : Proc (OdbcJob (command.Response L)) Bool :=
  command.sqlBuild L (calls o)

/-- What a builder call leaves: its value or its fault, whether the connector is closed, and the response. -/
def seen : EStateM.Result Fault (OdbcJob ρ) α → Except Fault α × Bool × ρ
  | .ok a s => (.ok a, s.closed, s.response)
  | .error fault s => (.error fault, s.closed, s.response)

end OdbcJob

/-- The same of a builder call on a backend. -/
def Job.seen {ρ α : Type} : EStateM.Result Fault (Job ρ) α → Except Fault α × Bool × ρ
  | .ok a j => (.ok a, j.closed, j.response)
  | .error fault j => (.error fault, j.closed, j.response)

namespace OdbcJob
open ODBCConnector
variable {ρ α : Type} {L : Libdap}

theorem build_together (o : OdbcCall) (command : Command) (now : command.Response L) :
    Together (Fresh now) (build L o command) (command.build L o.presented)
      (fun b b' s j => (b' = b ∧ Ended s j) ∧ ∃ vs, (List.range o.columns).mapM o.column = .ok vs ∧
        o.Lists L vs command now s.response) fun _ s j => Ended s j := by
  cases command with
  | das => exact (sqlBuildDas_together o).weaken (fun _ _ h => h) (fun _ _ _ _ h => ⟨h.1, h.2.2⟩) fun _ _ _ h => h
  | dds => exact buildSequence_together o _ _
  | data => exact buildSequence_together o _ _

theorem fresh_new (strState : Str) (closed : Bool) (response : ρ) :
    Fresh response ⟨.new strState, closed, response⟩ ⟨⟨0, 0, 0, 0, true⟩, closed, response⟩ :=
  ⟨⟨rfl, rfl, rfl, rfl⟩, strState, rfl⟩

theorem seen_of_ends {r : EStateM.Result Fault (OdbcJob ρ) α} {r' : EStateM.Result Fault (Job ρ) α}
    (h : Ends (fun a a' s j => a' = a ∧ Ended s j) (fun _ s j => Ended s j) r r') : seen r = Job.seen r' := by
  cases h with
  | @ok a a' s j h =>
    obtain ⟨rfl, ended⟩ := h
    change (Except.ok a', s.closed, s.response) = (Except.ok a', j.closed, j.response)
    rw [ended.closed, ended.response]
  | @error fault s j ended =>
    change (Except.error fault, s.closed, s.response) = (Except.error fault, j.closed, j.response)
    rw [ended.closed, ended.response]

/-- A command on the connector of the plugin is the command on what its driver presents: it returns or throws
the same, closes its connector where the other does and leaves the same response, for every libdap. -/
theorem build_presented (L : Libdap) (o : OdbcCall) (command : Command) (strState : Str) (closed : Bool)
    (response : command.Response L) :
    seen (build L o command ⟨.new strState, closed, response⟩) =
      Job.seen (command.build L o.presented ⟨⟨0, 0, 0, 0, true⟩, closed, response⟩) := by
  have run := build_together o command response _ _ (fresh_new strState closed response)
  exact seen_of_ends (run.weaken (fun _ _ _ _ h => h.1) fun _ _ _ ended => ended)

/-- A command that returns has listed the columns of the driver, each under its own name and type: one call of
`append_attr` for each in their order and, in a DDS, the sequence of their variables. What libdap makes of two
attributes of one name is left to it. -/
theorem build_lists (L : Libdap) (o : OdbcCall) (command : Command) (strState : Str) (closed : Bool)
    (response : command.Response L) {ret : Bool} {s : OdbcJob (command.Response L)}
    (run : build L o command ⟨.new strState, closed, response⟩ = .ok ret s) :
    ∃ vs, (List.range o.columns).mapM o.column = .ok vs ∧ o.Lists L vs command response s.response := by
  have both := build_together o command response _ _ (fresh_new strState closed response)
  rw [run] at both
  obtain ⟨ret', j, -, -, listed⟩ := both.of_ok
  exact listed

/-- Two columns, three rows. -/
def buoys : Driver where
  answer
    | .dataCount => ⟨.SQL_SUCCESS, [], 3, [], false⟩
    | .numResultCols => ⟨.SQL_SUCCESS, [], 2, [], false⟩
    | .colAttribute 1 .conciseType => ⟨.SQL_SUCCESS, [], 12, [], false⟩
    | .colAttribute 1 .name => ⟨.SQL_SUCCESS, [], 0, "station".toList, false⟩
    | .colAttribute 2 .conciseType => ⟨.SQL_SUCCESS, [], 8, [], false⟩
    | .colAttribute 2 .name => ⟨.SQL_SUCCESS, [], 0, "temp".toList, false⟩
    | _ => ⟨.SQL_SUCCESS, [], 15, [], false⟩
  columns_nonneg := by decide
  columns_lt := by decide

def buoysCall : OdbcCall where
  driver := buoys
  active _ := true
  server := "db".toList
  user := []
  pass := []
  realName := "/data/buoys.sql".toList
  statements := ⟨.ok "SELECT COUNT(*) FROM buoys".toList, .ok "SELECT station,temp FROM buoys".toList⟩
  besErrorIsException := true
  responseFits := true

theorem returned {r : EStateM.Result Fault (OdbcJob ρ) Bool} (h : (seen r).1.toOption = some true) : ∃ s, r = .ok true s := by
  cases r with
  | ok ret s =>
    cases h
    exact ⟨s, rfl⟩
  | error fault s => cases h

/-- Both columns in the sequence. -/
theorem buoys_listed : ∃ s vs, build Lists.libdap buoysCall .dds ⟨.new [], true, (⟨[], [], []⟩ : Lists.DDS)⟩ = .ok true s ∧
    (List.range 2).mapM buoysCall.column = .ok vs ∧
    buoysCall.Lists Lists.libdap vs .dds (⟨[], [], []⟩ : Lists.DDS) s.response := by
  have run : ∃ s, build Lists.libdap buoysCall .dds ⟨.new [], true, (⟨[], [], []⟩ : Lists.DDS)⟩ = .ok true s :=
    returned (by decide +kernel)
  obtain ⟨s, run⟩ := run
  obtain ⟨vs, columns, listed⟩ := build_lists Lists.libdap buoysCall .dds [] true (⟨[], [], []⟩ : Lists.DDS) run
  exact ⟨s, vs, run, columns, listed⟩

end OdbcJob

end SqlHandler
