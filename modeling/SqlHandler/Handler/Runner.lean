import SqlHandler.Handler.Builders

/-!
# The last chance runner

`SQLRequestHandler::lastChanceRunner` takes the sections of a dataset one after the
other and runs the function a plugin registered for the command, until one returns
`true`. Every builder call works on a connector of its own and on the one response.
-/

namespace SqlHandler
open Posix

/-- `ODBCPlugin::build_das`, `build_dds` and `build_data` -/
def Command.build (L : Libdap) (command : Command) (b : Backend) : Proc (Job (command.Response L)) Bool :=
  command.sqlBuild L (Job.calls b)

/-- A plugin, by the commands `add_handler` registered a builder for. -/
structure SQLPlugin where
  handlers : List Command

/-- `SQLPlugin::find_handler` -/
def SQLPlugin.findHandler (L : Libdap) (plugin : SQLPlugin) (command : Command) :
    Option (Backend → Proc (Job (command.Response L)) Bool) :=
  if command ∈ plugin.handlers then some (command.build L) else none

/-- A section of the dataset: its api and what a builder meets on it. -/
structure Section where
  api : Str
  backend : Backend

/-- `SQL_NAME` -/
def sqlName : Str := "sql".toList

namespace SQLRequestHandler

/-- The error of a section without an api. -/
def noApi : Fault := .error ⟨.besInternalError, "SQLRequestHandler: 'api' string can't be empty".toList⟩

variable (findSqlHandler : Str → Option SQLPlugin)

/-- `find_sql_plugin`, from the section the cursor is on: the plugin, its section and those behind. -/
def findSqlPlugin : List Section → Except Fault (Option (SQLPlugin × Section × List Section))
  | [] => .ok none
  | s :: rest =>
    if s.api = [] then .error noApi
    else if s.api = sqlName then findSqlPlugin rest
    else
      match findSqlHandler s.api with
      | some plugin => .ok (some (plugin, s, rest))
      | none => findSqlPlugin rest

theorem findSqlPlugin_behind {sections : List Section} {plugin : SQLPlugin} {s : Section} {rest : List Section}
    (h : findSqlPlugin findSqlHandler sections = .ok (some (plugin, s, rest))) :
    rest.length < sections.length := by
  induction sections with
  | nil => cases h
  | cons first more ih =>
    unfold findSqlPlugin at h
    split at h
    · cases h
    · split at h
      · exact (ih h).trans (Nat.lt_succ_self _)
      · split at h
        · cases h
          exact Nat.lt_succ_self _
        · exact (ih h).trans (Nat.lt_succ_self _)

/-- The error of a dataset no section of which works. -/
def noSection : Fault := .error ⟨.besInternalError,
  ("SQLRequestHandler: Error occurred, bad constraints specified or no active database server for " ++
    "this dataset. Please, try a less restrictive constraint or contact the administrator.").toList⟩

theorem errors_ne {kind : ErrorKind} {a b : String} (texts : a ≠ b) :
    Fault.error ⟨kind, a.toList⟩ ≠ Fault.error ⟨kind, b.toList⟩ := by
  intro same
  simp only [Fault.error.injEq, BESError.mk.injEq, true_and] at same
  exact texts (String.toList_inj.1 same)

theorem noApi_ne_noSection : noApi ≠ noSection := errors_ne (by decide)

variable (L : Libdap) (command : Command)

/-- A builder call on a connector of its own. -/
def attempt (function : Backend → Proc (Job (command.Response L)) Bool) (b : Backend) : Proc (command.Response L) Bool :=
  Proc.zoom (fun response => ⟨⟨0, 0, 0, 0, true⟩, true, response⟩) (fun _ j => j.response) (function b)

/-- The `try` block of a round. `catch (BESError &)` and `catch (...)` leave `res` false. -/
def tryPlugin (plugin : SQLPlugin) (s : Section) : Proc (command.Response L) Bool := fun response =>
  match plugin.findHandler L command with
  | none => .ok false response
  | some function =>
    match attempt L command function s.backend response with
    | .error (.error _) response' => .ok false response'
    | .error (.foreign _) response' => .ok false response'
    | r => r

/-- `lastChanceRunner`, from the section the cursor is on. -/
def lastChanceRunner (sections : List Section) : Proc (command.Response L) Bool :=
  match _found : findSqlPlugin findSqlHandler sections with
  | .error fault => throw fault
  | .ok none => throw noSection
  | .ok (some (plugin, s, rest)) => do
    let res ← tryPlugin L command plugin s
    if res then return true else lastChanceRunner rest
termination_by sections.length
decreasing_by exact findSqlPlugin_behind findSqlHandler _found

/-- A round of the loop. -/
theorem lastChanceRunner_eq (sections : List Section) :
    lastChanceRunner findSqlHandler L command sections = match findSqlPlugin findSqlHandler sections with
      | .error fault => throw fault
      | .ok none => throw noSection
      | .ok (some (plugin, s, rest)) => (do
        let res ← tryPlugin L command plugin s
        if res then return true else lastChanceRunner findSqlHandler L command rest) := by
  rw [lastChanceRunner]
  split <;> simp only [*]

end SQLRequestHandler

end SqlHandler
