import SqlHandler.Outcome
import SqlHandler.Stl.Counts

/-!
# The list of plugins and the wrapper methods

A plugin registers its commands while it is constructed, before the list knows it: for
each `add_sql_wrapper` counts a use and installs a wrapper. `add_sql_handler` may still
refuse the plugin, and then no one takes the uses back. `remove_sql_handler` takes them
back command by command and removes a method whose count falls to zero.

A registered plugin is known by its name. Its functions are left out of its handler map,
which keeps the commands.
-/

namespace SqlHandler
open Posix

/-- The methods of `SQLRequestHandler` that reach its table. -/
inductive Method where
  | version
  | help
  | wrapper
  deriving DecidableEq, Repr

/-- The table of methods of `BESRequestHandler`. -/
structure BESRequestHandler (T : Type) where
  empty : T
  findMethod : T → Str → Option Method
  addMethod : T → Str → Method → T
  removeMethod : T → Str → T
  find_empty : ∀ c, findMethod empty c = none
  find_add : ∀ t c m d, findMethod (addMethod t c m) d = if d = c then some ((findMethod t c).getD m) else findMethod t d
  find_remove : ∀ t c d, findMethod (removeMethod t c) d = if d = c then none else findMethod t d

/-- The names the BES gives to the responses. -/
structure ResponseNames where
  das : Str
  dds : Str
  data : Str
  help : Str
  vers : Str
  differ : vers ≠ help

/-- An `SQLPlugin`: its name and the commands of its `_handler_list`. -/
structure Plugin where
  name : Str
  handlerList : List Str
  deriving DecidableEq, Repr

/-- What `SQLRequestHandler` keeps of its plugins, and its table of methods. -/
structure Registry (T : Type) where
  theList : List Plugin
  theWrapCount : Stl.Counts Str
  methods : T

namespace Registry
variable {T : Type} (H : BESRequestHandler T)

/-- The constructor of `SQLRequestHandler`. -/
def create (names : ResponseNames) : Registry T :=
  ⟨[], fun _ => none, H.addMethod (H.addMethod H.empty names.vers .version) names.help .help⟩

/-- `SQLRequestHandler::find_sql_handler` -/
def findSqlHandler (name : Str) (r : Registry T) : Option Plugin := r.theList.find? (fun p => p.name = name)

/-- An entry of `theWrapCount` written or erased. -/
def setCount (name : Str) (n : Option ℕ+) (r : Registry T) : Registry T :=
  { r with theWrapCount := Function.update r.theWrapCount name n }

/-- `SQLRequestHandler::update_wrap_count` -/
def updateWrapCount (name : Str) (add : Bool) : Proc (Registry T) Bool := do
  match (← get).theWrapCount name, add with
  | some n, true =>
    modify (setCount name (some (n + 1)))
    return false
  | some n, false =>
    match n.natPred with
    | 0 =>
      modify (setCount name none)
      return true
    | left + 1 =>
      modify (setCount name (some left.succPNat))
      return false
  | none, true =>
    modify (setCount name (some 1))
    return false
  | none, false => Proc.raise .besInternalFatalError "This handler seams to be not correctly wrapped!".toList

/-- `SQLRequestHandler::add_sql_wrapper` -/
def addSqlWrapper (command : Str) : Proc (Registry T) Bool := do
  -- the command is looked up among the names of the plugins
  match (← get).findSqlHandler command with
  | some _ => return false
  | none =>
    let _ ← updateWrapCount command true
    modify fun r => { r with methods := H.addMethod r.methods command .wrapper }
    return true

/-- `SQLRequestHandler::remove_sql_wrapper` -/
def removeSqlWrapper (command : Str) : Proc (Registry T) Bool := do
  match H.findMethod (← get).methods command with
  | none => return false
  | some _ =>
    let last ← updateWrapCount command false
    if last then modify fun r => { r with methods := H.removeMethod r.methods command }
    return true

/-- `SQLPlugin::add_handler`, on the commands the plugin has so far. -/
def addHandler (command : Str) (handlerList : List Str) : Proc (Registry T) (List Str) := do
  if command ∈ handlerList then
    return handlerList
  else
    let wrapped ← addSqlWrapper H command
    if wrapped then
      return handlerList ++ [command]
    else
      Proc.raise .besInternalFatalError "Cannot wrap correctly this command!".toList

/-- The constructor of a plugin that adds the commands one by one. -/
def construct : List Str → List Str → Proc (Registry T) (List Str)
  | [], handlerList => return handlerList
  | command :: more, handlerList => do
    let handlerList' ← addHandler H command handlerList
    construct more handlerList'

/-- `_handler_list.erase(i)` of a registered plugin. -/
def eraseHandler (name command : Str) (r : Registry T) : Registry T :=
  { r with theList := r.theList.map fun p =>
    if p.name = name then { p with handlerList := p.handlerList.erase command } else p }

/-- `SQLPlugin::remove_handler` of a registered plugin. -/
def removeHandler (name command : Str) : Proc (Registry T) Bool := do
  match (← get).findSqlHandler name with
  | none => return false
  | some plugin =>
    if command ∈ plugin.handlerList then
      let _ ← removeSqlWrapper H command
      modify (eraseHandler name command)
      return true
    else
      return false

/-- The loop of `SQLPlugin::remove_handlers`. -/
def removeHandlers (name : Str) : List Str → Proc (Registry T) Unit
  | [] => return
  | command :: more => do
    let _ ← removeHandler H name command
    removeHandlers name more

/-- `SQLRequestHandler::add_sql_handler` -/
def addSqlHandler (plugin : Plugin) : Proc (Registry T) Bool := do
  match (← get).findSqlHandler plugin.name with
  | some _ => return false
  | none =>
    modify fun r => { r with theList := r.theList ++ [plugin] }
    return true

/-- `theList().erase(i)` -/
def erase (name : Str) (r : Registry T) : Registry T :=
  { r with theList := r.theList.eraseP (fun p => p.name = name) }

/-- `SQLRequestHandler::remove_sql_handler` -/
def removeSqlHandler (name : Str) : Proc (Registry T) Bool := do
  match (← get).findSqlHandler name with
  | none => return false
  | some plugin =>
    removeHandlers H name plugin.handlerList
    modify (erase name)
    return true

/-- `SQLRequestHandler::remove_sql_handlers` -/
def removeSqlHandlers : Proc (Registry T) Unit := do
  match (← get).theList with
  | [] => return
  | plugin :: _ =>
    removeHandlers H plugin.name plugin.handlerList
    modify (erase plugin.name)
    -- `i++` on the iterator just erased
    throw .undefined

def loadRefused : BESError :=
  ⟨.besInternalError, "Unable to load the ODBCPlugin into the SQLRequestHandler list".toList⟩

def unloadRefused : BESError :=
  ⟨.besInternalError, "Unable to un-load the ODBCPlugin from the SQLRequestHandler list".toList⟩

/-- `initialize` of a plugin's loader, where `commands` are those the plugin's constructor adds. -/
def initializeModule (modname : Str) (commands : List Str) : Proc (Registry T) Unit := do
  let handlerList ← construct H commands []
  let added ← addSqlHandler ⟨modname, handlerList⟩
  unless added do
    throw (.error loadRefused)

/-- `terminate` of a plugin's loader. -/
def terminateModule (modname : Str) : Proc (Registry T) Unit := do
  let removed ← removeSqlHandler H modname
  unless removed do
    throw (.error unloadRefused)

/-- A call of a plugin's loader. -/
inductive LoaderCall where
  | initializeModule (modname : Str) (commands : List Str)
  | terminateModule (modname : Str)

/-- `ODBCPluginLoader::initialize`, by the commands of the constructor of `ODBCPlugin`. -/
def LoaderCall.odbc (names : ResponseNames) (modname : Str) : LoaderCall :=
  .initializeModule modname [names.das, names.dds, names.data, names.help, names.vers]

def load : LoaderCall → Proc (Registry T) Unit
  | .initializeModule modname commands => Registry.initializeModule H modname commands
  | .terminateModule modname => Registry.terminateModule H modname

/-- The state a call leaves, by its return or by an exception. -/
def after (call : Proc (Registry T) Unit) (r : Registry T) : Option (Registry T) :=
  match call r with
  | .ok _ r' => some r'
  | .error (.error _) r' => some r'
  | .error (.foreign _) r' => some r'
  | .error .undefined _ => none
  | .error .endless _ => none
  | .error .terminated _ => none

theorem after_ok {call : Proc (Registry T) Unit} {r r' : Registry T} (h : call r = .ok () r') :
    after call r = some r' := by
  rw [after, h]

theorem after_error {call : Proc (Registry T) Unit} {r r' : Registry T} {e : BESError} (h : call r = .error (.error e) r') :
    after call r = some r' := by
  rw [after, h]

/-- The uses the handler counts of a command. -/
def uses (r : Registry T) (command : Str) : Nat := r.theWrapCount.count command

/-- The plugins of the list whose handler map holds a command. -/
def holders (r : Registry T) (command : Str) : Nat := r.theList.countP (fun p => command ∈ p.handlerList)

end Registry

end SqlHandler
