import SqlHandler.Handler.Attempts

/-!
# What failed sections leave behind

The response a section answers with is the one it would have answered with alone exactly
if no section tried before it had its first column appended, nor, for a DAS, left a table
of its own. Attribute values are only ever added and tables never taken away, so what one
failed section left shows in the end.
-/

namespace SqlHandler
open Posix

namespace SQLRequestHandler
open Command
variable {L : Libdap} {command : Command} {b : Backend} {r r' : command.Response L}

theorem attempt_eq (function : Backend → Proc (Job (command.Response L)) Bool) :
    attempt L command function b r = match function b ⟨⟨0, 0, 0, 0, true⟩, true, r⟩ with
      | .ok ret j => .ok ret j.response
      | .error fault j => .error fault j.response := by
  unfold attempt Proc.zoom
  cases function b ⟨⟨0, 0, 0, 0, true⟩, true, r⟩ <;> rfl

/-! ## Failing attempts -/

/-- Attempts on backends one after the other, all of which fail with an exception. -/
inductive AllFail (L : Libdap) (command : Command) : List Backend → command.Response L → command.Response L → Prop where
  | nil (r : command.Response L) : AllFail L command [] r r
  | cons {b : Backend} {rest : List Backend} {fault : Fault} {r r₁ r' : command.Response L}
      (first : attempt L command (command.build L) b r = .error fault r₁) (later : AllFail L command rest r₁ r') :
      AllFail L command (b :: rest) r r'

/-- A failing attempt leaves nothing that the attempt on the answering backend would not. -/
structure LeavesNothing (L : Libdap) (command : Command) (answering b : Backend) (r : command.Response L) : Prop where
  attributes : ¬ command.Writes L b r
  table : Opens b → command.Known L b.server r ∨ b.server = answering.server

/-- The response is still that of a fresh request, up to the table the answering section opens itself. -/
def Clean (L : Libdap) (command : Command) (answering : Backend) (r₀ r : command.Response L) : Prop :=
  r = r₀ ∨ r = command.opened L answering.server r₀

/-- The response shows that it is not that of a fresh request. -/
def Dirty (L : Libdap) (command : Command) (answering : Backend) (r₀ r : command.Response L) : Prop :=
  (∃ server name, command.num L r₀ server name < command.num L r server name) ∨
    ∃ server, command.Known L server r ∧ ¬ command.Known L server r₀ ∧ server ≠ answering.server

theorem attempt_grows {fault : Fault} (fails : attempt L command (command.build L) b r = .error fault r') :
    command.Grows L b r r' := by
  have grows := build_grows command b (⟨⟨0, 0, 0, 0, true⟩, true, r⟩ : Job (command.Response L))
  rw [attempt_eq] at fails
  cases run : command.build L b ⟨⟨0, 0, 0, 0, true⟩, true, r⟩ with
  | ok ret j =>
    rw [run] at fails
    cases fails
  | error fault' j =>
    rw [run] at fails grows
    cases fails
    exact grows

theorem attempt_fails {fault : Fault} (fails : attempt L command (command.build L) b r = .error fault r') :
    (¬ Opens b → r' = r) ∧ (Opens b → ¬ command.Writes L b r → r' = command.opened L b.server r) := by
  rw [attempt_eq] at fails
  cases run : command.build L b ⟨⟨0, 0, 0, 0, true⟩, true, r⟩ with
  | ok ret j =>
    rw [run] at fails
    cases fails
  | error fault' j =>
    rw [run] at fails
    cases fails
    exact build_fails run

section Trace
variable {answering : Backend} {r₀ : command.Response L}

theorem Clean.writes (clean : Clean L command answering r₀ r) : command.Writes L b r ↔ command.Writes L b r₀ := by
  rcases clean with rfl | rfl
  · exact Iff.rfl
  · exact writes_opened

/-- An attempt that leaves nothing keeps the response clean. -/
theorem Clean.step {fault : Fault} (clean : Clean L command answering r₀ r)
    (nothing : LeavesNothing L command answering b r₀)
    (fails : attempt L command (command.build L) b r = .error fault r') : Clean L command answering r₀ r' := by
  obtain ⟨shut, opened⟩ := attempt_fails fails
  by_cases opens : Opens b
  · have same := opened opens fun writes => nothing.attributes (clean.writes.1 writes)
    rcases nothing.table opens with known | own
    · have there : command.Known L b.server r := by
        rcases clean with rfl | rfl
        · exact known
        · exact known_opened.2 (.inl known)
      rw [same, opened_known there]
      exact clean
    · rw [same, own]
      rcases clean with rfl | rfl
      · exact .inr rfl
      · exact .inr (opened_known (known_opened.2 (.inr rfl)))
  · rw [shut opens]
    exact clean

theorem Clean.num (clean : Clean L command answering r₀ r) : command.num L r = command.num L r₀ := by
  rcases clean with rfl | rfl
  · rfl
  · exact opened_num _ _

/-- An attempt that leaves something makes a clean response dirty. -/
theorem Clean.spoil {fault : Fault} (clean : Clean L command answering r₀ r)
    (something : ¬ LeavesNothing L command answering b r₀)
    (fails : attempt L command (command.build L) b r = .error fault r') : Dirty L command answering r₀ r' := by
  have grows := attempt_grows fails
  by_cases writes : command.Writes L b r₀
  · obtain ⟨server, name, more⟩ := grows.writes (clean.writes.2 writes)
    rw [clean.num] at more
    exact .inl ⟨server, name, more⟩
  · obtain ⟨opens, unknown, other⟩ : Opens b ∧ ¬ command.Known L b.server r₀ ∧ b.server ≠ answering.server := by
      by_contra none
      refine something ⟨writes, fun opens => ?_⟩
      by_contra neither
      exact none ⟨opens, fun known => neither (.inl known), fun own => neither (.inr own)⟩
    exact .inr ⟨b.server, grows.table opens, unknown, other⟩

/-- Nothing a failing attempt does makes a dirty response clean. -/
theorem Dirty.step {fault : Fault} (dirty : Dirty L command answering r₀ r)
    (fails : attempt L command (command.build L) b r = .error fault r') : Dirty L command answering r₀ r' := by
  have grows := attempt_grows fails
  rcases dirty with ⟨server, name, more⟩ | ⟨server, known, unknown, other⟩
  · exact .inl ⟨server, name, more.trans_le (grows.num server name)⟩
  · exact .inr ⟨server, grows.known server known, unknown, other⟩

theorem Dirty.run {failed : List Backend} (dirty : Dirty L command answering r₀ r)
    (fails : AllFail L command failed r r') : Dirty L command answering r₀ r' := by
  induction fails with
  | nil => exact dirty
  | cons first later ih => exact ih (dirty.step first)

/-- After a run of failing attempts the response is clean or dirty as the attempts left nothing or something. -/
theorem Clean.run {failed : List Backend} (clean : Clean L command answering r₀ r)
    (fails : AllFail L command failed r r') :
    ((∀ b ∈ failed, LeavesNothing L command answering b r₀) → Clean L command answering r₀ r') ∧
      (¬ (∀ b ∈ failed, LeavesNothing L command answering b r₀) → Dirty L command answering r₀ r') := by
  induction fails with
  | nil => exact ⟨fun _ => clean, fun some => absurd (fun b mem => absurd mem List.not_mem_nil) some⟩
  | @cons b rest fault r r₁ r' first later ih =>
    by_cases nothing : LeavesNothing L command answering b r₀
    · obtain ⟨all, some⟩ := ih (clean.step nothing first)
      refine ⟨fun whole => all fun b mem => whole b (List.mem_cons_of_mem _ mem), fun broken => some fun whole => broken ?_⟩
      exact List.forall_mem_cons.2 ⟨nothing, whole⟩
    · exact ⟨fun whole => absurd (whole b List.mem_cons_self) nothing,
        fun _ => (clean.spoil nothing first).run later⟩

end Trace

/-! ## The rounds of the runner -/

section Rounds
variable (findSqlHandler : Str → Option SQLPlugin) (command : Command)

/-- The plugin `find_sql_plugin` stops at a section for. -/
def pluginOf (s : Section) : Option SQLPlugin := if s.api = sqlName then none else findSqlHandler s.api

/-- The backends of the sections on which a builder is run. -/
def attempted (sections : List Section) : List Backend :=
  sections.filterMap fun s =>
    match pluginOf findSqlHandler s with
    | some plugin => if command ∈ plugin.handlers then some s.backend else none
    | none => none

theorem lastChanceRunner_nil : lastChanceRunner findSqlHandler L command [] = throw noSection := by
  rw [lastChanceRunner_eq]
  rfl

/-- What happens to the section the cursor is on. -/
theorem lastChanceRunner_cons (s : Section) (rest : List Section) (named : s.api ≠ []) :
    lastChanceRunner findSqlHandler L command (s :: rest) =
      match pluginOf findSqlHandler s with
      | none => lastChanceRunner findSqlHandler L command rest
      | some plugin => (do
        let res ← tryPlugin L command plugin s
        if res then return true else lastChanceRunner findSqlHandler L command rest) := by
  have skip : findSqlPlugin findSqlHandler (s :: rest) = findSqlPlugin findSqlHandler rest →
      lastChanceRunner findSqlHandler L command (s :: rest) = lastChanceRunner findSqlHandler L command rest := by
    intro same
    rw [lastChanceRunner_eq, lastChanceRunner_eq, same]
  unfold pluginOf
  by_cases sql : s.api = sqlName
  · rw [if_pos sql]
    refine skip ?_
    rw [findSqlPlugin, if_neg named, if_pos sql]
  · rw [if_neg sql]
    cases found : findSqlHandler s.api with
    | none =>
      refine skip ?_
      rw [findSqlPlugin, if_neg named, if_neg sql, found]
    | some plugin =>
      have stops : findSqlPlugin findSqlHandler (s :: rest) = .ok (some (plugin, s, rest)) := by
        rw [findSqlPlugin, if_neg named, if_neg sql, found]
      rw [lastChanceRunner_eq, stops]

/-- A section without an api ends the whole run. -/
theorem lastChanceRunner_unnamed (s : Section) (rest : List Section) (unnamed : s.api = [])
    (r : command.Response L) :
    lastChanceRunner findSqlHandler L command (s :: rest) r = .error noApi r := by
  have stops : findSqlPlugin findSqlHandler (s :: rest) = .error noApi := by
    rw [findSqlPlugin, if_pos unnamed]
  rw [lastChanceRunner_eq, stops]
  rfl

end Rounds

variable {findSqlHandler : Str → Option SQLPlugin}

/-- How a round ends. -/
theorem tryPlugin_eq (plugin : SQLPlugin) (s : Section) (r : command.Response L) :
    tryPlugin L command plugin s r =
      if command ∈ plugin.handlers then
        match attempt L command (command.build L) s.backend r with
        | .error (.error _) r' => .ok false r'
        | .error (.foreign _) r' => .ok false r'
        | answer => answer
      else .ok false r := by
  unfold tryPlugin SQLPlugin.findHandler
  by_cases registered : command ∈ plugin.handlers
  · cases run : attempt L command (command.build L) s.backend r with
    | ok ret r' => simp only [if_pos registered, run]
    | error fault r' => cases fault <;> simp only [if_pos registered, run]
  · simp only [if_neg registered]

theorem attempt_ok {ret : Bool} (h : attempt L command (command.build L) b r = .ok ret r') :
    ret = true ∧ ∃ rows columns r₁, Job.Starts b rows columns ∧
      Job.Met (command.append L b.server) (command.demands b rows columns) (command.opened L b.server r) r₁ ∧
      r' = command.finish L b rows columns r₁ := by
  rw [attempt_eq] at h
  cases run : command.build L b ⟨⟨0, 0, 0, 0, true⟩, true, r⟩ with
  | ok ret' j =>
    rw [run] at h
    cases h
    exact build_ok run
  | error fault j =>
    rw [run] at h
    cases h

/-- A round that does not end the run was no attempt or an attempt that failed with an exception. -/
theorem tryPlugin_false {plugin : SQLPlugin} {s : Section} (h : tryPlugin L command plugin s r = .ok false r') :
    if command ∈ plugin.handlers then ∃ fault, attempt L command (command.build L) s.backend r = .error fault r'
    else r' = r := by
  rw [tryPlugin_eq] at h
  by_cases registered : command ∈ plugin.handlers
  · rw [if_pos registered] at h ⊢
    cases run : attempt L command (command.build L) s.backend r with
    | ok ret r₁ =>
      rw [run] at h
      obtain ⟨rfl, -⟩ := attempt_ok run
      cases h
    | error fault r₁ =>
      rw [run] at h
      refine ⟨fault, ?_⟩
      cases fault with
      | error e =>
        cases h
        rfl
      | foreign what =>
        cases h
        rfl
      | undefined => cases h
      | endless => cases h
      | terminated => cases h
  · rw [if_neg registered] at h ⊢
    cases h
    rfl

/-- The error that ends a run without a working section comes from no round. -/
theorem tryPlugin_ne_noSection {plugin : SQLPlugin} {s : Section} :
    tryPlugin L command plugin s r ≠ .error noSection r' := by
  rw [tryPlugin_eq]
  split
  · split
    · exact nofun
    · exact nofun
    · rename_i caught uncaught
      intro h
      exact caught _ _ h
  · exact nofun

/-- Sections none of which works hand the response on to those behind them. -/
theorem noSection_run {before : List Section} (rest : List Section)
    (fails : lastChanceRunner findSqlHandler L command before r = .error noSection r') :
    AllFail L command (attempted findSqlHandler command before) r r' ∧
      lastChanceRunner findSqlHandler L command (before ++ rest) r = lastChanceRunner findSqlHandler L command rest r' := by
  induction before generalizing r with
  | nil =>
    rw [lastChanceRunner_nil] at fails
    cases fails
    exact ⟨.nil _, rfl⟩
  | cons s more ih =>
    by_cases named : s.api = []
    · rw [lastChanceRunner_unnamed _ _ _ _ named] at fails
      exact absurd (EStateM.Result.error.inj fails).1 noApi_ne_noSection
    · rw [lastChanceRunner_cons _ _ _ _ named] at fails
      rw [List.cons_append, lastChanceRunner_cons _ _ _ _ named]
      unfold attempted
      rw [List.filterMap_cons]
      cases found : pluginOf findSqlHandler s with
      | none =>
        rw [found] at fails
        exact ih fails
      | some plugin =>
        rw [found] at fails
        dsimp only at fails ⊢
        cases round : tryPlugin L command plugin s r with
        | error fault r₁ =>
          rw [Proc.bind_error round] at fails
          cases fails
          exact absurd round tryPlugin_ne_noSection
        | ok res r₁ =>
          rw [Proc.bind_ok round] at fails ⊢
          cases res with
          | true => cases fails
          | false =>
            obtain ⟨later, goes⟩ := ih fails
            refine ⟨?_, goes⟩
            have failed := tryPlugin_false round
            by_cases registered : command ∈ plugin.handlers
            · rw [if_pos registered] at failed ⊢
              obtain ⟨fault, failed⟩ := failed
              exact .cons failed later
            · rw [if_neg registered] at failed ⊢
              rw [← failed]
              exact later

/-- A section that answers by itself answers wherever its attempt returns. -/
theorem section_answers {s : Section} (h : lastChanceRunner findSqlHandler L command [s] r = .ok true r') :
    attempt L command (command.build L) s.backend r = .ok true r' ∧
      ∀ (after : List Section) (r₁ r₁' : command.Response L),
        attempt L command (command.build L) s.backend r₁ = .ok true r₁' →
          lastChanceRunner findSqlHandler L command (s :: after) r₁ = .ok true r₁' := by
  by_cases named : s.api = []
  · rw [lastChanceRunner_unnamed _ _ _ _ named] at h
    cases h
  rw [lastChanceRunner_cons _ _ _ _ named, lastChanceRunner_nil] at h
  cases found : pluginOf findSqlHandler s with
  | none =>
    rw [found] at h
    cases h
  | some plugin =>
    rw [found] at h
    dsimp only at h
    obtain ⟨res, r₂, round, rest⟩ := Proc.of_bind_ok h
    cases res with
    | false => cases rest
    | true =>
      cases rest
      rw [tryPlugin_eq] at round
      by_cases registered : command ∈ plugin.handlers
      · rw [if_pos registered] at round
        cases run : attempt L command (command.build L) s.backend r with
        | error fault r₂ =>
          rw [run] at round
          cases fault <;> cases round
        | ok ret r₂ =>
          rw [run] at round
          cases round
          refine ⟨rfl, fun after r₁ r₁' alone => ?_⟩
          rw [lastChanceRunner_cons _ _ _ _ named, found]
          have here : tryPlugin L command plugin s r₁ = .ok true r₁' := by
            rw [tryPlugin_eq, if_pos registered, alone]
          exact Proc.bind_ok here
      · rw [if_neg registered] at round
        cases round

/-- An attempt that returns adds as many values to a name, whatever the response held, and opens its own table. -/
theorem attempt_adds {answering : Backend} (answers : attempt L command (command.build L) answering r = .ok true r') :
    ∃ added : Str → Str → Nat, ∀ r₁, attempt L command (command.build L) answering r₁ = .ok true r' →
      (∀ server name, command.num L r' server name = command.num L r₁ server name + added server name) ∧
      ∀ server, command.Known L server r' ↔ command.Known L server r₁ ∨ server = answering.server := by
  obtain ⟨-, rows, columns, r₂, starts, ⟨entries, asked, -⟩, -⟩ := attempt_ok answers
  refine ⟨fun server name => if command.shares answering.server server then (entries.map Entry.name).count name else 0,
    fun r₁ again => ?_⟩
  obtain ⟨-, rows', columns', r₃, starts', ⟨entries', asked', run⟩, rfl⟩ := attempt_ok again
  obtain ⟨rfl, rfl⟩ := starts.unique starts'
  obtain rfl := (List.map_inj_right fun _ _ e => Demand.entry.inj e).1 (asked.symm.trans asked')
  refine ⟨fun server name => ?_, fun server => ?_⟩
  · rw [finish_num, num_appendAll run, opened_num]
  · rw [finish_known, known_appendAll run, known_opened]

/-- A response no failed section can be told from is the one the section gives alone, and no other is. -/
theorem alone_iff {answering : Backend} {r₀ : command.Response L} {failed : List Backend}
    (fails : AllFail L command failed r₀ r) (answers : attempt L command (command.build L) answering r = .ok true r') :
    attempt L command (command.build L) answering r₀ = .ok true r' ↔
      ∀ b ∈ failed, LeavesNothing L command answering b r₀ := by
  have fresh : Clean L command answering r₀ r₀ := .inl rfl
  obtain ⟨clean, dirty⟩ := fresh.run fails
  constructor
  · intro alone
    obtain ⟨added, adds⟩ := attempt_adds answers
    obtain ⟨num, known⟩ := adds r answers
    obtain ⟨num₀, known₀⟩ := adds r₀ alone
    by_contra some
    rcases dirty some with ⟨server, name, more⟩ | ⟨server, new, old, other⟩
    · have same := (num server name).symm.trans (num₀ server name)
      omega
    · rcases (known₀ server).1 ((known server).2 (.inl new)) with there | own
      · exact old there
      · exact other own
  · intro all
    rcases clean all with rfl | rfl
    · exact answers
    · obtain ⟨-, rows, columns, -, starts, -⟩ := attempt_ok answers
      rw [attempt_eq] at answers ⊢
      rwa [← build_opened ⟨rows, columns, starts⟩]

/-- The sections that failed leave no trace exactly if each failed before its first column
was appended and left no table but one that was there or that the answering section opens. -/
theorem no_trace_iff {before : List Section} {s : Section} (after : List Section) {r₀ : command.Response L}
    (fails : lastChanceRunner findSqlHandler L command before r₀ = .error noSection r)
    (succeeds : lastChanceRunner findSqlHandler L command (before ++ [s]) r₀ = .ok true r') :
    lastChanceRunner findSqlHandler L command (before ++ s :: after) r₀ = .ok true r' ∧
      (lastChanceRunner findSqlHandler L command [s] r₀ = .ok true r' ↔
        ∀ b ∈ attempted findSqlHandler command before, LeavesNothing L command s.backend b r₀) := by
  obtain ⟨failed, last⟩ := noSection_run [s] fails
  obtain ⟨-, goes⟩ := noSection_run (s :: after) fails
  rw [last] at succeeds
  obtain ⟨answers, alone⟩ := section_answers succeeds
  refine ⟨goes.trans (alone after _ _ answers), ?_⟩
  rw [← alone_iff failed answers]
  exact ⟨fun single => (section_answers single).1, fun single => alone [] _ _ single⟩

/-! ## Two sections -/

/-- A section of one row and two columns, of which the second may end the builder. -/
def twoColumns (connects good : Bool) : Section where
  api := "odbc".toList
  backend :=
    { server := "db".toList
      realName := "/data/test.sql".toList
      connect := .ok connects
      query := .ok (true, 1, 2)
      types := fun column =>
        if good ∨ column = 0 then [.ok ⟨.ok [.ok (some "Int32".toList)], true⟩]
        else [.error (.error ⟨.sqlInternalFatalError, "no such type".toList⟩)]
      getColName := fun column => List.replicate (column + 1) 'c'
      getColDesc := fun _ => .ok "a column".toList
      close := true
      errorFactory := none
      besErrorIsException := true
      responseFits := true
      sizes := fun _ _ _ answered => by
        cases answered
        exact ⟨by decide, by decide⟩ }

/-- Every api has a plugin, for every command. -/
def everyPlugin (_ : Str) : Option SQLPlugin := some ⟨[.das, .dds, .data]⟩

def emptyDDS : Command.Response Lists.libdap .dds := (⟨[], [], []⟩ : Lists.DDS)

theorem everyPlugin_run (command : Command) (connects good : Bool) (rest : List Section) (r : command.Response L) :
    lastChanceRunner everyPlugin L command (twoColumns connects good :: rest) r =
      (do
        let res ← tryPlugin L command ⟨[.das, .dds, .data]⟩ (twoColumns connects good)
        if res then return true else lastChanceRunner everyPlugin L command rest) r := by
  rw [lastChanceRunner_cons _ _ _ _ (show "odbc".toList ≠ [] by decide)]
  rfl

/-- A section whose connect failed leaves no trace. -/
theorem failed_connect_no_trace : ∃ r',
    lastChanceRunner everyPlugin Lists.libdap .dds ([twoColumns false true] ++ twoColumns true true :: []) emptyDDS =
        .ok true r' ∧
      lastChanceRunner everyPlugin Lists.libdap .dds [twoColumns true true] emptyDDS = .ok true r' := by
  have fails : lastChanceRunner everyPlugin Lists.libdap .dds [twoColumns false true] emptyDDS =
      .error noSection emptyDDS := by
    refine (everyPlugin_run _ _ _ _ _).trans ?_
    rw [lastChanceRunner_nil]
    rfl
  have round : tryPlugin Lists.libdap .dds ⟨[.das, .dds, .data]⟩ (twoColumns false true) emptyDDS = .ok false emptyDDS := rfl
  obtain ⟨r', succeeds⟩ : ∃ r', lastChanceRunner everyPlugin Lists.libdap .dds
      ([twoColumns false true] ++ [twoColumns true true]) emptyDDS = .ok true r' :=
    ⟨_, (everyPlugin_run .dds false true [twoColumns true true] emptyDDS).trans <|
      (Proc.bind_ok round).trans (everyPlugin_run _ _ _ _ _)⟩
  obtain ⟨whole, alone⟩ := no_trace_iff [] fails succeeds
  refine ⟨r', whole, alone.2 fun b mem => ?_⟩
  obtain rfl : b = (twoColumns false true).backend := List.mem_singleton.1 mem
  exact ⟨fun ⟨rows, columns, starts, _⟩ => (by
    obtain ⟨ret, connected, passes⟩ := starts.connects
    cases connected
    cases passes), fun _ => .inl trivial⟩

/-- A section that failed on its second column shows in the response of the next one. -/
theorem second_column_trace : ∃ r r',
    lastChanceRunner everyPlugin Lists.libdap .dds [twoColumns true false] emptyDDS = .error noSection r ∧
      lastChanceRunner everyPlugin Lists.libdap .dds ([twoColumns true false] ++ twoColumns true true :: []) emptyDDS =
        .ok true r' ∧
      lastChanceRunner everyPlugin Lists.libdap .dds [twoColumns true true] emptyDDS ≠ .ok true r' := by
  obtain ⟨r, round⟩ : ∃ r, tryPlugin Lists.libdap .dds ⟨[.das, .dds, .data]⟩ (twoColumns true false) emptyDDS = .ok false r :=
    ⟨_, rfl⟩
  have fails : lastChanceRunner everyPlugin Lists.libdap .dds [twoColumns true false] emptyDDS = .error noSection r := by
    refine (everyPlugin_run _ _ _ _ _).trans ((Proc.bind_ok round).trans ?_)
    rw [lastChanceRunner_nil]
    rfl
  obtain ⟨failed, last⟩ := noSection_run [twoColumns true true] fails
  obtain ⟨r', again⟩ : ∃ r', tryPlugin Lists.libdap .dds ⟨[.das, .dds, .data]⟩ (twoColumns true true) r = .ok true r' := by
    cases round
    exact ⟨_, rfl⟩
  have succeeds : lastChanceRunner everyPlugin Lists.libdap .dds [twoColumns true true] r = .ok true r' :=
    (everyPlugin_run _ _ _ _ _).trans (Proc.bind_ok again)
  refine ⟨r, r', fails, last.trans succeeds, fun single => ?_⟩
  have nothing := (alone_iff failed (section_answers succeeds).1).1 (section_answers single).1
    (twoColumns true false).backend List.mem_cons_self
  exact nothing.attributes ⟨1, 2, ⟨rfl, ⟨true, rfl, rfl⟩, ⟨true, rfl, rfl⟩⟩,
    ⟨"c".toList, "Int32".toList, "a column".toList⟩, [.fatal], by decide +kernel, _, rfl⟩

end SQLRequestHandler

end SqlHandler
