import SqlHandler.Handler.Demands
import SqlHandler.Handler.Runner

/-!
# What a builder leaves in the response

Everything before the loop of a builder keeps the response; the DAS builder then opens the table of its
server, and every column whose attribute libdap takes adds a value. So a builder call that fails leaves the
response as it was exactly if it never got past its first column, but for that table.
-/

namespace SqlHandler
open Posix

namespace Job
variable {ρ α β : Type}

/-- The response a call leaves, returning or not. -/
def left (r : EStateM.Result Fault (Job ρ) α) : ρ :=
  match r with
  | .ok _ j => j.response
  | .error _ j => j.response

/-- A call that does not write the response. -/
def Keeps (x : Proc (Job ρ) α) : Prop := ∀ j, left (x j) = j.response

theorem Keeps.bind {x : Proc (Job ρ) α} {f : α → Proc (Job ρ) β} (first : Keeps x) (second : ∀ a, Keeps (f a)) :
    Keeps (x >>= f) := by
  intro j
  have here := first j
  cases run : x j with
  | ok a j' =>
    rw [run] at here
    rw [Proc.bind_ok run, second a j']
    exact here
  | error fault j' =>
    rw [run] at here
    rw [Proc.bind_error run]
    exact here

theorem Keeps.catchFault {x : Proc (Job ρ) α} {handle : Fault → Proc (Job ρ) α} (tried : Keeps x)
    (handler : ∀ fault, Keeps (handle fault)) : Keeps (catchFault x handle) := by
  intro j
  have here := tried j
  unfold Job.catchFault
  cases run : x j with
  | ok a j' =>
    rw [run] at here
    exact here
  | error fault j' =>
    rw [run] at here
    cases fault with
    | error e => exact (handler _ j').trans here
    | foreign what => exact (handler _ j').trans here
    | undefined => exact here
    | endless => exact here
    | terminated => exact here

theorem keeps_answer (x : Except Fault α) : Keeps (answer x : Proc (Job ρ) α) := by
  intro j
  cases x <;> rfl

theorem keeps_throw (fault : Fault) : Keeps (throw fault : Proc (Job ρ) α) := fun _ => rfl

theorem keeps_close_throw (fault : Fault) : Keeps (do close; throw fault : Proc (Job ρ) α) := fun _ => rfl

theorem keeps_checked (b : Backend) (at' : CheckPoint) (ret : Bool) (message : Str) :
    Keeps (checked b at' ret message : Proc (Job ρ) Unit) := by
  intro j
  unfold checked
  cases b.errorFactory with
  | some trigger => exact keeps_answer (trigger at' 0) j
  | none => cases ret <;> rfl

theorem keeps_connect (b : Backend) : Keeps (connect b : Proc (Job ρ) Unit) := by
  refine Keeps.catchFault (Keeps.bind (fun _ => rfl) fun _ => ?_) fun _ => keeps_close_throw _
  exact (keeps_answer _).bind fun ret => keeps_checked _ _ _ _

theorem keeps_query (b : Backend) : Keeps (query b : Proc (Job ρ) Unit) := by
  refine Keeps.catchFault ((keeps_answer _).bind fun answered => ?_) fun fault => ?_
  · exact Keeps.bind (fun _ => rfl) fun _ => keeps_checked _ _ _ _
  · unfold queryCatch
    split
    · exact keeps_close_throw _
    · exact keeps_close_throw _
    · split
      · exact keeps_close_throw _
      · exact keeps_throw _
    · exact keeps_close_throw _
    · exact keeps_throw _

theorem keeps_requireResponse (b : Backend) (misfit : Str) :
    Keeps (requireResponse b misfit : Proc (Job ρ) Unit) := by
  intro j
  unfold requireResponse
  cases b.responseFits <;> rfl

section Front
variable {L : Libdap}

/-- A part of a builder that keeps the response, and what comes behind it. -/
theorem Keeps.or {x : Proc (Job ρ) α} {f : α → Proc (Job ρ) β} {j : Job ρ} {P : Prop} (keeps : Keeps x)
    (rest : ∀ a j', x j = .ok a j' → P ∨ ∃ fault j'', f a j' = .error fault j'' ∧ j''.response = j'.response) :
    P ∨ ∃ fault j', (x >>= f) j = .error fault j' ∧ j'.response = j.response := by
  have kept := keeps j
  cases run : x j with
  | ok a j' =>
    rw [run] at kept
    rw [Proc.bind_ok run]
    exact (rest a j' run).imp_right fun ⟨fault, j'', stops, same⟩ => ⟨fault, j'', stops, same.trans kept⟩
  | error fault j' =>
    rw [run] at kept
    exact .inr ⟨fault, j', Proc.bind_error run, kept⟩

/-- A builder that does not get to its columns throws and keeps the response. -/
theorem buildSequence_starts_or (misfit dummy : Str) (b : Backend) (j : Job L.DDS) :
    (∃ rows columns, Starts b rows columns) ∨
      ∃ fault j', BuilderCalls.buildSequence L misfit dummy (calls b) j = .error fault j' ∧ j'.response = j.response := by
  unfold BuilderCalls.buildSequence
  refine (keeps_connect b).or fun u j₁ connected => ?_
  refine (keeps_query b).or fun u j₂ queried => ?_
  refine (keeps_requireResponse b misfit).or fun u j₃ required => .inl ?_
  obtain ⟨-, connects⟩ := connect_ok connected
  obtain ⟨rows, columns, -, queries⟩ := query_ok queried
  exact ⟨rows, columns, (requireResponse_ok required).2, connects, queries⟩

/-- A builder that does not get to its columns throws and keeps the response. -/
theorem sqlBuildDas_starts_or (b : Backend) (j : Job L.DAS) :
    (∃ rows columns, Starts b rows columns) ∨
      ∃ fault j', BuilderCalls.sqlBuildDas L (calls b) j = .error fault j' ∧ j'.response = j.response := by
  unfold BuilderCalls.sqlBuildDas
  refine (keeps_requireResponse b _).or fun u j₁ required => ?_
  refine (keeps_connect b).or fun u j₂ connected => ?_
  refine (keeps_query b).or fun u j₃ queried => .inl ?_
  obtain ⟨-, connects⟩ := connect_ok connected
  obtain ⟨rows, columns, -, queries⟩ := query_ok queried
  exact ⟨rows, columns, (requireResponse_ok required).2, connects, queries⟩

/-- The table `sql_build_das` adds may have been there. -/
theorem Starts.sqlBuildDas_opened {b : Backend} {rows columns : Nat} (starts : Starts b rows columns) (j : Job L.DAS) :
    BuilderCalls.sqlBuildDas L (calls b) { j with response := L.openTable b.server j.response } =
      BuilderCalls.sqlBuildDas L (calls b) j := by
  rw [starts.sqlBuildDas_run, starts.sqlBuildDas_run]
  dsimp only
  rw [Libdap.openTable_twice]

end Front

end Job

/-! ## The response of a command -/

namespace Command
variable (L : Libdap)

/-- `append_attr` as the builder of a command on that server calls it. -/
def append (server : Str) : (command : Command) → Append (command.Response L)
  | das => L.appendDas server
  | dds => L.appendDds
  | data => L.appendDds

/-- The response once the builder has come to its columns. -/
def opened (server : Str) : (command : Command) → command.Response L → command.Response L
  | das, r => L.openTable server r
  | dds, r => r
  | data, r => r

/-- The demands of the builder's loop. -/
def demands (b : Backend) (rows columns : Nat) : Command → List Demand
  | das => Job.dasDemands b rows columns
  | dds => Job.ddsDemands b rows columns
  | data => Job.ddsDemands b rows columns

/-- What the builder does to the response behind its loop. -/
def finish (b : Backend) (rows columns : Nat) : (command : Command) → command.Response L → command.Response L
  | das => id
  | dds => Job.withSequence L b (Job.ddsVars b defaultDasVal rows columns)
  | data => Job.withSequence L b (Job.ddsVars b defaultDasName rows columns)

/-- The attribute table that a builder on that server writes, a new one where the DAS has none. -/
def table (server : Str) : (command : Command) → command.Response L → L.AttrTable
  | das, r => L.tableOf r server
  | dds, r => L.getAttrTable r
  | data, r => L.getAttrTable r

/-- A builder on that server finds its table. -/
def Known (server : Str) : (command : Command) → command.Response L → Prop
  | das, r => (L.getTable r server).isSome
  | dds, _ => True
  | data, _ => True

/-- The values of an attribute in the table of that server. -/
def num (command : Command) (r : command.Response L) (server name : Str) : Nat :=
  L.getAttrNum (command.table L server r) name

/-- A builder on `server` writes the table of `other`. -/
def shares (server other : Str) : Command → Bool
  | das => other == server
  | dds => true
  | data => true

/-- A builder comes to the columns of this backend. -/
def Opens (b : Backend) : Prop := ∃ rows columns, Job.Starts b rows columns

/-- A builder has an attribute for the first column of this backend, and libdap takes it. -/
def Writes (command : Command) (b : Backend) (r : command.Response L) : Prop :=
  ∃ rows columns, Job.Starts b rows columns ∧ ∃ e behind, command.demands b rows columns = .entry e :: behind ∧
    ∃ t, L.appendAttr e.name e.type e.value (command.table L b.server r) = .ok t

variable {L} {command : Command}

theorem opened_known {server : Str} {r : command.Response L} (known : command.Known L server r) :
    command.opened L server r = r := by
  cases command with
  | das => exact Libdap.openTable_known known
  | dds => rfl
  | data => rfl

theorem opened_table (added server : Str) (r : command.Response L) :
    command.table L server (command.opened L added r) = command.table L server r := by
  cases command with
  | das => exact Libdap.tableOf_open added server r
  | dds => rfl
  | data => rfl

theorem opened_num (added : Str) (r : command.Response L) : command.num L (command.opened L added r) = command.num L r := by
  funext server name
  unfold num
  rw [opened_table]

theorem known_opened {added server : Str} {r : command.Response L} :
    command.Known L server (command.opened L added r) ↔ command.Known L server r ∨ server = added := by
  cases command with
  | das => exact Libdap.known_open
  | dds => exact ⟨fun _ => .inl trivial, fun _ => trivial⟩
  | data => exact ⟨fun _ => .inl trivial, fun _ => trivial⟩

theorem writes_opened {b : Backend} {added : Str} {r : command.Response L} :
    command.Writes L b (command.opened L added r) ↔ command.Writes L b r := by
  unfold Writes
  rw [opened_table]

/-- Behind `add_table` a call of `append_attr` is one on the table. -/
theorem append_opened {server : Str} {r : command.Response L} {e : Entry} :
    (∃ r', command.append L server e.name e.type e.value (command.opened L server r) = .ok r') ↔
      ∃ t, L.appendAttr e.name e.type e.value (command.table L server r) = .ok t := by
  rw [← opened_table server server r]
  cases command with
  | das => exact Libdap.appendDas_iff (Libdap.known_open.2 (.inr rfl))
  | dds => exact Libdap.appendDds_iff
  | data => exact Libdap.appendDds_iff

/-- Every entry appended counts for its name, in the table of its server. -/
theorem num_appendAll {server : Str} {entries : List Entry} {r r' : command.Response L}
    (run : appendAll (command.append L server) entries r = .ok r') (other name : Str) :
    command.num L r' other name =
      command.num L r other name + if command.shares server other then (entries.map Entry.name).count name else 0 := by
  cases command with
  | das =>
    have counts := Libdap.num_appendAll_das run name other
    simp only [shares, beq_iff_eq]
    exact counts
  | dds => exact Libdap.num_appendAll_dds run name
  | data => exact Libdap.num_appendAll_dds run name

theorem known_appendAll {server other : Str} {entries : List Entry} {r r' : command.Response L}
    (run : appendAll (command.append L server) entries r = .ok r') : command.Known L other r' ↔ command.Known L other r := by
  cases command with
  | das => exact Bool.eq_iff_iff.1 (Libdap.known_appendAll_das run other)
  | dds => exact Iff.rfl
  | data => exact Iff.rfl

theorem withSequence_attrTable (b : Backend) (seq : List SeqVar) (r : L.DDS) :
    L.getAttrTable (Job.withSequence L b seq r) = L.getAttrTable r := by
  unfold Job.withSequence
  rw [L.attrTable_name, L.attrTable_add]

theorem finish_num (b : Backend) (rows columns : Nat) (r : command.Response L) :
    command.num L (command.finish L b rows columns r) = command.num L r := by
  funext server name
  cases command with
  | das => rfl
  | dds => exact congrArg (L.getAttrNum · name) (withSequence_attrTable b _ r)
  | data => exact congrArg (L.getAttrNum · name) (withSequence_attrTable b _ r)

theorem finish_known (b : Backend) (rows columns : Nat) (r : command.Response L) (server : Str) :
    command.Known L server (command.finish L b rows columns r) ↔ command.Known L server r := by
  cases command with
  | das => exact Iff.rfl
  | dds => exact Iff.rfl
  | data => exact Iff.rfl

/-! ## Builder calls -/

section Build
variable {b : Backend} {rows columns : Nat} {j j' : Job (command.Response L)}

/-- How a builder that comes to its columns ends. -/
theorem build_built (starts : Job.Starts b rows columns) (command : Command) (j : Job (command.Response L)) :
    Job.Built (command.append L b.server) (command.demands b rows columns) (command.finish L b rows columns)
      (command.opened L b.server j.response) (command.build L b j) := by
  cases command with
  | das => exact Job.sqlBuildDas_built starts j
  | dds => exact Job.buildSequence_built starts _ _ j
  | data => exact Job.buildSequence_built starts _ _ j

/-- A builder that does not come to its columns throws and keeps the response. -/
theorem build_opens_or (command : Command) (b : Backend) (j : Job (command.Response L)) :
    Opens b ∨ ∃ fault j', command.build L b j = .error fault j' ∧ j'.response = j.response := by
  cases command with
  | das => exact Job.sqlBuildDas_starts_or b j
  | dds => exact Job.buildSequence_starts_or _ _ b j
  | data => exact Job.buildSequence_starts_or _ _ b j

/-- What a builder that returned has done. -/
theorem build_ok {ret : Bool} (h : command.build L b j = .ok ret j') :
    ret = true ∧ ∃ rows columns r, Job.Starts b rows columns ∧
      Job.Met (command.append L b.server) (command.demands b rows columns) (command.opened L b.server j.response) r ∧
      j'.response = command.finish L b rows columns r := by
  rcases build_opens_or command b j with ⟨rows, columns, starts⟩ | ⟨fault, j₁, run, -⟩
  · have built := build_built starts command j
    rw [h] at built
    cases built with
    | all met response => exact ⟨rfl, rows, columns, _, starts, met, response⟩
  · cases h.symm.trans run

/-- A builder that has met demands has written, or there was none to meet. -/
theorem met_writes (starts : Job.Starts b rows columns) {before behind : List Demand} {r r' : command.Response L}
    (split : command.demands b rows columns = before ++ behind)
    (met : Job.Met (command.append L b.server) before (command.opened L b.server r) r') :
    r' = command.opened L b.server r ∨ command.Writes L b r := by
  cases before with
  | nil => exact .inl (met.unique .nil)
  | cons d before =>
    obtain ⟨e, r₁, rfl, taken, -⟩ := Job.met_cons.1 met
    exact .inr ⟨rows, columns, starts, e, before ++ behind, split, append_opened.1 ⟨r₁, taken⟩⟩

/-- A builder call takes neither attribute nor table away, and what it has written counts. -/
structure Grows (L : Libdap) (command : Command) (b : Backend) (r r' : command.Response L) : Prop where
  num : ∀ server name, command.num L r server name ≤ command.num L r' server name
  writes : command.Writes L b r → ∃ server name, command.num L r server name < command.num L r' server name
  known : ∀ server, command.Known L server r → command.Known L server r'
  table : Opens b → command.Known L b.server r'

theorem shares_self (command : Command) (server : Str) : command.shares server server = true := by
  cases command with
  | das => exact beq_self_eq_true server
  | dds => rfl
  | data => rfl

/-- The demands that were met, with the first that was not, account for what was appended. -/
theorem grows_met (starts : Job.Starts b rows columns) {before behind : List Demand} {r r' : command.Response L}
    (split : command.demands b rows columns = before ++ behind)
    (met : Job.Met (command.append L b.server) before (command.opened L b.server r) r')
    (stops : ∀ d rest, behind = d :: rest → ∀ r₁, ¬ Job.Met (command.append L b.server) [d] r' r₁) :
    command.Grows L b r r' := by
  obtain ⟨entries, rfl, run⟩ := met
  have counts := num_appendAll run
  rw [opened_num] at counts
  refine ⟨fun server name => by rw [counts]; exact Nat.le_add_right _ _, ?_,
    fun server old => (known_appendAll run).2 (known_opened.2 (.inl old)),
    fun _ => (known_appendAll run).2 (known_opened.2 (.inr rfl))⟩
  rintro ⟨rows', columns', starts', e, rest, first, taken⟩
  obtain ⟨rfl, rfl⟩ := starts.unique starts'
  rw [split] at first
  cases entries with
  | nil =>
    obtain ⟨r₁, appended⟩ := append_opened.2 taken
    cases run
    exact absurd (Job.met_cons.2 ⟨e, r₁, rfl, appended, .nil⟩) (stops _ _ first r₁)
  | cons e' entries =>
    refine ⟨b.server, e'.name, ?_⟩
    rw [counts, if_pos (shares_self command b.server), List.map_cons, List.count_cons_self]
    omega

theorem build_shut (shut : ¬ Opens b) (command : Command) (j : Job (command.Response L)) :
    ∃ fault j', command.build L b j = .error fault j' ∧ j'.response = j.response :=
  (build_opens_or command b j).resolve_left shut

theorem build_grows (command : Command) (b : Backend) (j : Job (command.Response L)) :
    command.Grows L b j.response (Job.left (command.build L b j)) := by
  by_cases opens : Opens b
  · obtain ⟨rows, columns, starts⟩ := opens
    have built := build_built starts command j
    generalize command.build L b j = res at built
    cases built with
    | @all r j' met response =>
      have grows := grows_met starts (List.append_nil _).symm met nofun
      change command.Grows L b j.response j'.response
      rw [response]
      exact ⟨by rw [finish_num]; exact grows.num, by rw [finish_num]; exact grows.writes,
        fun server old => (finish_known ..).2 (grows.known server old), fun opens => (finish_known ..).2 (grows.table opens)⟩
    | @first before behind d fault j' split met ends =>
      change command.Grows L b j.response j'.response
      refine grows_met starts split met fun d' rest same r₁ => ?_
      obtain ⟨rfl, -⟩ := List.cons.inj same
      exact ends.unmet
    | unclosed met => exact grows_met starts (List.append_nil _).symm met nofun
  · obtain ⟨fault, j', run, same⟩ := build_shut opens command j
    rw [run]
    change command.Grows L b j.response j'.response
    rw [same]
    exact ⟨fun _ _ => Nat.le_refl _, fun ⟨rows, columns, starts, _⟩ => absurd ⟨rows, columns, starts⟩ opens,
      fun _ old => old, fun starts => absurd starts opens⟩

/-- What a builder call that fails leaves. -/
theorem build_fails {fault : Fault} (fails : command.build L b j = .error fault j') :
    (¬ Opens b → j'.response = j.response) ∧
      (Opens b → ¬ command.Writes L b j.response → j'.response = command.opened L b.server j.response) := by
  constructor
  · intro shut
    obtain ⟨fault', j₁, run, same⟩ := build_shut shut command j
    cases fails.symm.trans run
    exact same
  · rintro ⟨rows, columns, starts⟩ silent
    have built := build_built starts command j
    rw [fails] at built
    cases built with
    | first split met ends => exact (met_writes starts split met).resolve_right silent
    | unclosed met => exact (met_writes starts (List.append_nil _).symm met).resolve_right silent

/-- Beyond its table a builder call does not depend on whether the table was there. -/
theorem build_opened (opens : Opens b) (j : Job (command.Response L)) :
    command.build L b { j with response := command.opened L b.server j.response } = command.build L b j := by
  cases command with
  | das =>
    obtain ⟨rows, columns, starts⟩ := opens
    exact starts.sqlBuildDas_opened j
  | dds => rfl
  | data => rfl

end Build

end Command

end SqlHandler
