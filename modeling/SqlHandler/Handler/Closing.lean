import SqlHandler.Handler.Attempts

/-!
# Connections that stay open

The wrappers of `connect`, `query`, `nextType` and `close` close the connector before they
throw, the last `catch` of `query` apart. What a builder calls between them does not: the
cast of the response, the description of a column and `append_attr`. `closed_iff` says that
nothing else lets an exception leave an open connector.
-/

namespace SqlHandler
open Posix

namespace Job
variable {ρ α β : Type}

/-- An exception that leaves a call while the connector is open. -/
def Leaks (r : EStateM.Result Fault (Job ρ) α) : Prop :=
  ∃ fault j', r = .error fault j' ∧ Thrown fault ∧ j'.closed = false

@[simp] theorem leaks_ok (a : α) (j : Job ρ) : ¬ Leaks (.ok a j) := nofun

@[simp] theorem leaks_error (fault : Fault) (j : Job ρ) :
    Leaks (α := α) (.error fault j) ↔ Thrown fault ∧ j.closed = false := by
  constructor
  · rintro ⟨fault', j', same, thrown, opened⟩
    cases same
    exact ⟨thrown, opened⟩
  · intro ⟨thrown, opened⟩
    exact ⟨fault, j, rfl, thrown, opened⟩

theorem leaks_bind {x : Proc (Job ρ) α} {f : α → Proc (Job ρ) β} {j : Job ρ} :
    Leaks ((x >>= f) j) ↔ Leaks (x j) ∨ ∃ a j', x j = .ok a j' ∧ Leaks (f a j') := by
  cases run : x j with
  | ok a j' =>
    rw [Proc.bind_ok run]
    simp
  | error fault j' =>
    rw [Proc.bind_error run]
    simp

/-! ## The calls of a builder -/

section Calls
variable {b : Backend} {j : Job ρ}

theorem leaks_throw {fault : Fault} : Leaks ((throw fault : Proc (Job ρ) α) j) ↔ Thrown fault ∧ j.closed = false :=
  leaks_error fault j

theorem leaks_close_throw {fault : Fault} : ¬ Leaks ((do close; throw fault : Proc (Job ρ) α) j) := by
  change ¬ Leaks (α := α) (.error fault { j with closed := true })
  simp

theorem checked_error {at' : CheckPoint} {ret : Bool} {message : Str} {fault : Fault} {j' : Job ρ}
    (h : checked b at' ret message j = .error fault j') : j' = j := by
  unfold checked at h
  cases factory : b.errorFactory with
  | some trigger =>
    rw [factory] at h
    change answer (trigger at' 0) j = _ at h
    cases check : trigger at' 0 with
    | ok u =>
      rw [check] at h
      cases h
    | error fault' =>
      rw [check] at h
      cases h
      rfl
  | none =>
    rw [factory] at h
    cases ret <;> cases h
    rfl

/-- Behind the `catch` clauses only what the handler lets out leaks. -/
theorem leaks_catchFault {x : Proc (Job ρ) α} {handle : Fault → Proc (Job ρ) α} :
    Leaks (catchFault x handle j) ↔ ∃ fault j', x j = .error fault j' ∧ Thrown fault ∧ Leaks (handle fault j') := by
  unfold catchFault
  cases run : x j with
  | ok a j' => simp
  | error fault j' => cases fault <;> simp [Thrown]

theorem leaks_connect : ¬ Leaks (connect b j) := by
  rw [connect, leaks_catchFault]
  rintro ⟨fault, j', -, -, fault', j'', run, -, opened⟩
  cases run
  cases opened

theorem leaks_closeAction : ¬ Leaks (closeAction b j) := by
  rw [closeAction, leaks_catchFault]
  rintro ⟨fault, j', tried, -, fault', j'', run, -, opened⟩
  have first : (close : Proc (Job ρ) Unit) j = .ok () { j with closed := true } := rfl
  rw [Proc.bind_ok first] at tried
  rw [checked_error tried] at run
  cases run
  cases opened

/-- The faults the last `catch` of `query` takes. -/
def Unguarded (b : Backend) (fault : Fault) : Prop :=
  fault = .foreign none ∨ ∃ e : BESError, fault = .error e ∧ e.kind ≠ .sqlInternalError ∧
    e.kind ≠ .sqlInternalFatalError ∧ b.besErrorIsException = false

/-- What the connector's `query` or the error factory behind it throws. -/
def QueryThrows (b : Backend) (fault : Fault) : Prop :=
  b.query = .error fault ∨ ∃ answered trigger, b.query = .ok answered ∧ b.errorFactory = some trigger ∧
    trigger .onQuery 0 = .error fault

theorem leaks_queryCatch {fault : Fault} (opened : j.closed = false) (thrown : Thrown fault) :
    Leaks (queryCatch b fault j) ↔ Unguarded b fault := by
  unfold queryCatch Unguarded
  cases fault with
  | error e =>
    obtain ⟨kind, message⟩ := e
    cases kind <;> cases b.besErrorIsException <;> simp [leaks_throw, leaks_close_throw, Thrown, opened]
  | foreign what => cases what <;> simp [leaks_throw, leaks_close_throw, Thrown, opened]
  | undefined => exact thrown.elim
  | endless => exact thrown.elim
  | terminated => exact thrown.elim

theorem Unguarded.thrown {fault : Fault} (h : Unguarded b fault) : Thrown fault := by
  rcases h with rfl | ⟨e, rfl, -⟩ <;> trivial

/-- The error of a `query` that answers `false` is a guarded one. -/
theorem checked_throws {at' : CheckPoint} {ret : Bool} {message : Str} {fault : Fault}
    (h : checked b at' ret message j = .error fault j) :
    (∃ trigger, b.errorFactory = some trigger ∧ trigger at' 0 = .error fault) ∨ ¬ Unguarded b fault := by
  unfold checked at h
  cases factory : b.errorFactory with
  | some trigger =>
    rw [factory] at h
    change answer (trigger at' 0) j = _ at h
    cases check : trigger at' 0 with
    | ok u =>
      rw [check] at h
      cases h
    | error fault' =>
      rw [check] at h
      cases h
      exact .inl ⟨trigger, rfl, check⟩
  | none =>
    rw [factory] at h
    cases ret <;> cases h
    right
    rintro (unguarded | ⟨e, same, -, guarded, -⟩)
    · cases unguarded
    · cases same
      exact guarded rfl

theorem checked_triggers {at' : CheckPoint} {trigger : ErrorFactory} {fault : Fault} (factory : b.errorFactory = some trigger)
    (throws : trigger at' 0 = .error fault) (ret : Bool) (message : Str) :
    checked b at' ret message j = .error fault j := by
  unfold checked
  rw [factory]
  change answer (trigger at' 0) j = _
  rw [throws]
  rfl

theorem leaks_query (opened : j.closed = false) :
    Leaks (query b j) ↔ ∃ fault, QueryThrows b fault ∧ Unguarded b fault := by
  rw [query, leaks_catchFault]
  cases answered : b.query with
  | error fault =>
    have run : (answer (.error fault) : Proc (Job ρ) (Bool × Nat × Nat)) j = .error fault j := rfl
    rw [Proc.bind_error run]
    constructor
    · rintro ⟨fault', j', same, thrown, leaks⟩
      cases same
      exact ⟨fault, .inl answered, (leaks_queryCatch opened thrown).1 leaks⟩
    · rintro ⟨fault', threw | ⟨found, trigger, other, -⟩, unguarded⟩
      · rw [answered] at threw
        cases threw
        exact ⟨fault, j, rfl, unguarded.thrown, (leaks_queryCatch opened unguarded.thrown).2 unguarded⟩
      · rw [answered] at other
        cases other
  | ok found =>
    obtain ⟨ret, rows, columns⟩ := found
    have run : (answer (.ok (ret, rows, columns)) : Proc (Job ρ) (Bool × Nat × Nat)) j = .ok (ret, rows, columns) j := rfl
    rw [Proc.bind_ok run]
    simp only
    rw [Proc.bind_ok (Proc.modify_run _ j)]
    have still : ({ j with cursor := { j.cursor with rows, columns }.reset } : Job ρ).closed = false := opened
    constructor
    · rintro ⟨fault, j', threw, thrown, leaks⟩
      obtain rfl := checked_error threw
      have unguarded := (leaks_queryCatch still thrown).1 leaks
      rcases checked_throws threw with ⟨trigger, factory, throws⟩ | guarded
      · exact ⟨fault, .inr ⟨_, trigger, answered, factory, throws⟩, unguarded⟩
      · exact absurd unguarded guarded
    · rintro ⟨fault, threw | ⟨found, trigger, -, factory, throws⟩, unguarded⟩
      · rw [answered] at threw
        cases threw
      · exact ⟨fault, _, checked_triggers factory throws ret _, unguarded.thrown,
          (leaks_queryCatch still unguarded.thrown).2 unguarded⟩

end Calls

/-! ## The columns -/

/-- A demand that throws outside `nextType`: `getColDesc` does, or `append_attr`. -/
def Throws (append : Append ρ) (r : ρ) : Demand → Prop
  | .entry e => ∃ fault, append e.name e.type e.value r = .error fault ∧ Thrown fault
  | .undescribed fault => Thrown fault
  | .fatal => False

/-- Of the columns, those before one that throws outside `nextType` have attributes that the response takes. -/
def ColumnThrows (append : Append ρ) (ds : List Demand) (r : ρ) : Prop :=
  ∃ before d behind r', ds = before ++ d :: behind ∧ Met append before r r' ∧ Throws append r' d

section Columns
variable {append : Append ρ} {ds : List Demand} {d : Demand} {r : ρ}

theorem Throws.unmet (throws : Throws append r d) (r' : ρ) : ¬ Met append [d] r r' := by
  intro met
  obtain ⟨e, r₁, rfl, taken, -⟩ := met_cons.1 met
  obtain ⟨fault, refused, -⟩ := throws
  cases taken.symm.trans refused

/-- The exits of a loop that do not close the connector. -/
theorem Meets.leaks {a : α} {j : Job ρ} {res : EStateM.Result Fault (Job ρ) α} (h : Meets append ds a j res)
    (opened : j.closed = false) : Leaks res ↔ ColumnThrows append ds j.response := by
  cases h with
  | all met =>
    refine ⟨fun leaks => absurd leaks (leaks_ok _ _), ?_⟩
    rintro ⟨before, d, behind, r', rfl, met', throws⟩
    obtain ⟨r₁, those, these⟩ := met_append.1 met
    obtain rfl := those.unique met'
    obtain ⟨e, r₂, rfl, taken, -⟩ := met_cons.1 these
    exact absurd (met_cons.2 ⟨e, r₂, rfl, taken, .nil⟩) (throws.unmet r₂)
  | @first before behind d r c fault closed split met ends =>
    have same : Leaks (.error fault ⟨c, closed, r⟩ : EStateM.Result Fault (Job ρ) α) ↔ Throws append r d := by
      rw [leaks_error]
      cases d with
      | entry e =>
        obtain ⟨refused, rfl⟩ := ends
        constructor
        · exact fun ⟨thrown, _⟩ => ⟨fault, refused, thrown⟩
        · rintro ⟨fault', refused', thrown⟩
          cases refused.symm.trans refused'
          exact ⟨thrown, opened⟩
      | undescribed thrown =>
        obtain ⟨rfl, rfl⟩ := ends
        exact ⟨fun leaks => leaks.1, fun thrown => ⟨thrown, opened⟩⟩
      | fatal =>
        refine ⟨fun ⟨thrown, stays⟩ => ?_, False.elim⟩
        rw [ends thrown] at stays
        cases stays
    rw [same]
    constructor
    · exact fun throws => ⟨before, d, behind, r, split, met, throws⟩
    · rintro ⟨before', d', behind', r', split', met', throws⟩
      obtain ⟨rfl, rfl⟩ := first_unmet (split.symm.trans split') met met' (fun _ => ends.unmet) throws.unmet
      exact throws

end Columns

/-! ## Whole builder calls -/

def Connects (b : Backend) : Prop := ∃ ret, b.connect = .ok ret ∧ Passes b .onConnect ret

def Queries (b : Backend) (rows columns : Nat) : Prop := ∃ ret, b.query = .ok (ret, rows, columns) ∧ Passes b .onQuery ret

/-- `query` throws what only its last `catch` takes. -/
def QueryLeaks (b : Backend) : Prop := ∃ fault, QueryThrows b fault ∧ Unguarded b fault

theorem Queries.sizes {b : Backend} {rows columns : Nat} (queries : Queries b rows columns) : Sizes rows columns := by
  obtain ⟨ret, queried, -⟩ := queries
  exact b.sizes ret rows columns queried

/-- What comes before the response of the DDS and DATA builders. -/
theorem leaks_opening {b : Backend} {f : Proc (Job ρ) α} {j : Job ρ} :
    Leaks ((do connect b; query b; f : Proc (Job ρ) α) j) ↔
      Connects b ∧ (QueryLeaks b ∨ ∃ rows columns, Queries b rows columns ∧
        Leaks (f ⟨start rows columns, false, j.response⟩)) := by
  have ask : ∀ j₁ : Job ρ, j₁.closed = false → (Leaks ((do query b; f : Proc (Job ρ) α) j₁) ↔
      QueryLeaks b ∨ ∃ rows columns, Queries b rows columns ∧ Leaks (f { j₁ with cursor := start rows columns })) := by
    intro j₁ opened
    rw [leaks_bind, leaks_query opened]
    constructor
    · rintro (leaks | ⟨u, j₂, asked, leaks⟩)
      · exact .inl leaks
      · obtain ⟨rows, columns, rfl, queries⟩ := query_ok asked
        exact .inr ⟨rows, columns, queries, leaks⟩
    · rintro (leaks | ⟨rows, columns, queries, leaks⟩)
      · exact .inl leaks
      · exact .inr ⟨(), _, query_run queries j₁, leaks⟩
  rw [leaks_bind]
  constructor
  · rintro (leaks | ⟨u, j₁, connected, leaks⟩)
    · exact absurd leaks leaks_connect
    · obtain ⟨rfl, connects⟩ := connect_ok connected
      exact ⟨connects, (ask _ rfl).1 leaks⟩
  · rintro ⟨connects, leaks⟩
    exact .inr ⟨(), _, connect_run connects j, (ask _ rfl).2 leaks⟩

section Builders
variable {L : Libdap}

theorem leaks_bind_pure {x : Proc (Job ρ) α} {f : α → Proc (Job ρ) β} {j : Job ρ} (sealed : ∀ a j', ¬ Leaks (f a j')) :
    Leaks ((x >>= f) j) ↔ Leaks (x j) := by
  rw [leaks_bind]
  exact ⟨fun either => either.resolve_right fun ⟨a, j', _, leaks⟩ => sealed a j' leaks, .inl⟩

theorem leaks_buildSequence (misfit dummy : Str) (b : Backend) (j : Job L.DDS) :
    Leaks (BuilderCalls.buildSequence L misfit dummy (calls b) j) ↔ Connects b ∧ (QueryLeaks b ∨ ∃ rows columns,
      Queries b rows columns ∧
        (b.responseFits = false ∨ ColumnThrows L.appendDds (ddsDemands b rows columns) j.response)) := by
  refine leaks_opening.trans (and_congr_right' (or_congr_right (exists_congr fun rows => exists_congr fun columns =>
    and_congr_right fun queries => ?_)))
  change Leaks ((requireResponse b misfit >>= fun _ => _) ⟨start rows columns, false, j.response⟩) ↔ _
  unfold requireResponse
  cases fits : b.responseFits with
  | false =>
    have misfits : (Proc.raise .besInternalFatalError misfit : Proc (Job L.DDS) Unit) ⟨start rows columns, false, j.response⟩ =
        .error (.error ⟨.besInternalFatalError, misfit⟩) ⟨start rows columns, false, j.response⟩ := rfl
    simp only [Bool.false_eq_true, if_false, true_or, iff_true]
    rw [Proc.bind_error misfits]
    simp [Thrown]
  | true =>
    simp only [if_true, Bool.true_eq_false, false_or]
    have loop := (ddsLoop_meets (L := L) (b := b) queries.sizes dummy false j.response).leaks rfl
    rw [← loop]
    exact leaks_bind_pure (f := endSequence L b) fun seq j' => leaks_ok _ _

theorem leaks_sqlBuildDas (b : Backend) {j : Job L.DAS} (shut : j.closed = true) :
    Leaks (BuilderCalls.sqlBuildDas L (calls b) j) ↔ b.responseFits = true ∧ Connects b ∧ (QueryLeaks b ∨
      ∃ rows columns, Queries b rows columns ∧
        ColumnThrows (L.appendDas b.server) (dasDemands b rows columns) (L.openTable b.server j.response)) := by
  unfold BuilderCalls.sqlBuildDas
  change Leaks ((requireResponse b _ >>= fun _ => _) j) ↔ _
  unfold requireResponse
  cases fits : b.responseFits with
  | false =>
    have misfits : (Proc.raise .besInternalFatalError "Unable to get DASResponse object".toList : Proc (Job L.DAS) Unit) j =
        .error (.error ⟨.besInternalFatalError, "Unable to get DASResponse object".toList⟩) j := rfl
    simp only [Bool.false_eq_true, if_false, false_and, iff_false]
    rw [Proc.bind_error misfits]
    simp [shut]
  | true =>
    simp only [if_true, true_and]
    refine leaks_opening.trans (and_congr_right' (or_congr_right (exists_congr fun rows => exists_congr fun columns =>
      and_congr_right fun queries => ?_)))
    have loop := (dasLoop_meets (L := L) (b := b) queries.sizes false (L.openTable b.server j.response)).leaks rfl
    rw [← loop]
    refine leaks_bind_pure (f := fun _ => (do closeAction b; return true : Proc (Job L.DAS) Bool)) fun u j' leaks => ?_
    exact leaks_closeAction ((leaks_bind_pure fun _ _ => leaks_ok _ _).1 leaks)

end Builders

end Job

namespace Command
variable (L : Libdap)

/-- The exits of a builder that do not close its connector. -/
def LeavesOpen : (command : Command) → Backend → command.Response L → Prop
  | .das, b, r => b.responseFits = true ∧ Job.Connects b ∧ (Job.QueryLeaks b ∨ ∃ rows columns,
      Job.Queries b rows columns ∧
        Job.ColumnThrows (L.appendDas b.server) (Job.dasDemands b rows columns) (L.openTable b.server r))
  | .dds, b, r => Job.Connects b ∧ (Job.QueryLeaks b ∨ ∃ rows columns, Job.Queries b rows columns ∧
      (b.responseFits = false ∨ Job.ColumnThrows L.appendDds (Job.ddsDemands b rows columns) r))
  | .data, b, r => Job.Connects b ∧ (Job.QueryLeaks b ∨ ∃ rows columns, Job.Queries b rows columns ∧
      (b.responseFits = false ∨ Job.ColumnThrows L.appendDds (Job.ddsDemands b rows columns) r))

/-- Every exception that leaves a builder finds the connector closed, but for the last `catch` of `query`,
the cast of the response behind a query and the columns: a description that throws, or an attribute that libdap
refuses, with those of the columns before it taken. -/
theorem closed_iff (command : Command) (b : Backend) (r : command.Response L) :
    (∀ fault j', command.build L b ⟨⟨0, 0, 0, 0, true⟩, true, r⟩ = .error fault j' → Job.Thrown fault → j'.closed = true) ↔
      ¬ command.LeavesOpen L b r := by
  have leaks : Job.Leaks (command.build L b ⟨⟨0, 0, 0, 0, true⟩, true, r⟩) ↔ command.LeavesOpen L b r := by
    cases command with
    | das => exact Job.leaks_sqlBuildDas b rfl
    | dds => exact Job.leaks_buildSequence _ _ b _
    | data => exact Job.leaks_buildSequence _ _ b _
  rw [← leaks]
  constructor
  · rintro closes ⟨fault, j', run, thrown, opened⟩
    rw [closes fault j' run thrown] at opened
    cases opened
  · intro sealed fault j' run thrown
    by_contra opened
    exact sealed ⟨fault, j', run, thrown, by simpa using opened⟩

/-- A result of one row and one column that cannot be described. -/
def undescribed : Backend where
  server := "server".toList
  realName := "data.sql".toList
  connect := .ok true
  query := .ok (true, 1, 1)
  types _ := [.ok ⟨.ok [.ok (some "Int32".toList)], false⟩]
  getColName _ := "a".toList
  getColDesc _ := .error (.error ⟨.sqlInternalFatalError, "Unable to get the description".toList⟩)
  close := true
  errorFactory := none
  besErrorIsException := true
  responseFits := true
  sizes _ _ _ answered := by
    cases answered
    exact ⟨by decide, by decide⟩

theorem undescribed_open : ¬ ∀ fault j', Command.build Lists.libdap .dds undescribed
    ⟨⟨0, 0, 0, 0, true⟩, true, (⟨[], [], []⟩ : Lists.DDS)⟩ = .error fault j' → Job.Thrown fault → j'.closed = true := by
  intro closes
  have opened := closes _ _ rfl trivial
  cases opened

end Command

end SqlHandler
