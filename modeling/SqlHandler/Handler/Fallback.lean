import SqlHandler.Handler.Leftovers

/-!
# The sections of a dataset, one after the other

`lastChanceRunner` and `find_sql_plugin` move the same cursor over the sections of a
container. Here the cursor is explicit, a handler is any function that reads the container
as it stands, and each call of a handler is noted with the cursor and its answer. A round
of the loop passes one section (`run_cons`); from that follows which handlers a run calls
(`fallback_exact`).
-/

namespace SqlHandler
open Posix

/-! ## The cursor -/

/-- `_dataset` with `d_actual_section`. -/
structure SectionCursor (S : Type) where
  sections : List S
  actual : Nat
  inside : actual ≤ sections.length

namespace SectionCursor
variable {S : Type}

/-- `reset` -/
def reset (c : SectionCursor S) : SectionCursor S := ⟨c.sections, 0, Nat.zero_le _⟩

/-- `end` -/
def AtEnd (c : SectionCursor S) : Prop := c.actual = c.sections.length

instance (c : SectionCursor S) : Decidable c.AtEnd := inferInstanceAs (Decidable (_ = _))

theorem lt_of_not_atEnd {c : SectionCursor S} (h : ¬ c.AtEnd) : c.actual < c.sections.length :=
  Nat.lt_of_le_of_ne c.inside h

/-- The section the cursor is on. -/
def actualSection (c : SectionCursor S) (h : ¬ c.AtEnd) : S :=
  c.sections.get ⟨c.actual, lt_of_not_atEnd h⟩

/-- `++d_actual_section` -/
def advance (c : SectionCursor S) (h : ¬ c.AtEnd) : SectionCursor S := ⟨c.sections, c.actual + 1, lt_of_not_atEnd h⟩

/-- `setNext` -/
def setNext (c : SectionCursor S) : Bool × SectionCursor S :=
  if h : c.AtEnd then (false, c) else (! decide (c.advance h).AtEnd, c.advance h)

/-- The sections from the cursor on. -/
def left (c : SectionCursor S) : Nat := c.sections.length - c.actual

theorem advance_left (c : SectionCursor S) (h : ¬ c.AtEnd) : (c.advance h).left < c.left := by
  have := lt_of_not_atEnd h
  simp only [left, advance]
  omega

theorem setNext_of (c : SectionCursor S) (h : ¬ c.AtEnd) : c.setNext.2 = c.advance h := by
  rw [setNext, dif_neg h]

end SectionCursor

/-! ## The runner -/

/-- A call of a handler: where the cursor stood, whose handler it was and whether it returned `true`. -/
structure Call (P : Type) where
  actual : Nat
  plugin : P
  res : Bool

/-- The request as the runner sees it, with the calls of handlers so far. -/
structure Dhi (S P σ : Type) where
  container : SectionCursor S
  response : σ
  calls : List (Call P)

namespace SQLRequestHandler.Fallback
variable {S P κ σ : Type}

/-- `sql_request_handler` -/
abbrev Handler (S σ : Type) := SectionCursor S → Proc σ Bool

variable (getApi : S → Str) (findSqlHandler : Str → Option P)

/-- `find_sql_plugin` -/
def findSqlPlugin (c : SectionCursor S) : Except Fault (Option P) × SectionCursor S :=
  if h : c.AtEnd then (.ok none, c)
  else
    let api := getApi (c.actualSection h)
    if api = [] then (.error noApi, c)
    else if api = sqlName then findSqlPlugin c.setNext.2
    else
      match findSqlHandler api with
      | some plugin => (.ok (some plugin), c)
      | none => findSqlPlugin c.setNext.2
termination_by c.left
decreasing_by all_goals rw [c.setNext_of h]; exact c.advance_left h

variable (findHandler : P → κ → Option (Handler S σ)) (command : κ)

/-- The `try` block of a round behind the search for a plugin. -/
def tryPlugin (plugin : P) : Proc (Dhi S P σ) Bool := fun d =>
  match findHandler plugin command with
  | none => .ok false d
  | some function =>
    match function d.container d.response with
    | .ok res response => .ok res { d with response, calls := d.calls ++ [⟨d.container.actual, plugin, res⟩] }
    | .error (.error _) response => .ok false { d with response, calls := d.calls ++ [⟨d.container.actual, plugin, false⟩] }
    | .error (.foreign _) response => .ok false { d with response, calls := d.calls ++ [⟨d.container.actual, plugin, false⟩] }
    | .error fault response => .error fault { d with response }

theorem tryPlugin_container {plugin : P} {d d' : Dhi S P σ} {res : Bool}
    (h : tryPlugin findHandler command plugin d = .ok res d') : d'.container = d.container := by
  unfold tryPlugin at h
  split at h
  · cases h
    rfl
  · split at h <;> cases h <;> rfl

/-- `find_sql_plugin` stays or goes on. -/
theorem findSqlPlugin_left (c : SectionCursor S) : (findSqlPlugin getApi findSqlHandler c).2.left ≤ c.left := by
  induction c using findSqlPlugin.induct getApi findSqlHandler with
  | case1 c h => rw [findSqlPlugin, dif_pos h]
  | case2 c h api empty => rw [findSqlPlugin, dif_neg h, if_pos empty]
  | case3 c h api named sql ih =>
    rw [findSqlPlugin, dif_neg h, if_neg named, if_pos sql]
    rw [c.setNext_of h] at ih ⊢
    exact ih.trans (Nat.le_of_lt (c.advance_left h))
  | case4 c h api named other plugin found =>
    rw [findSqlPlugin, dif_neg h, if_neg named, if_neg other, found]
  | case5 c h api named other found ih =>
    rw [findSqlPlugin, dif_neg h, if_neg named, if_neg other, found]
    rw [c.setNext_of h] at ih ⊢
    exact ih.trans (Nat.le_of_lt (c.advance_left h))

theorem findSqlPlugin_some {c c' : SectionCursor S} {plugin : P}
    (h : findSqlPlugin getApi findSqlHandler c = (.ok (some plugin), c')) : ¬ c'.AtEnd := by
  induction c using findSqlPlugin.induct getApi findSqlHandler with
  | case1 c end' => rw [findSqlPlugin, dif_pos end'] at h; cases h
  | case2 c here api empty => rw [findSqlPlugin, dif_neg here, if_pos empty] at h; cases h
  | case3 c here api named sql ih =>
    rw [findSqlPlugin, dif_neg here, if_neg named, if_pos sql] at h
    exact ih h
  | case4 c here api named other plugin found =>
    rw [findSqlPlugin, dif_neg here, if_neg named, if_neg other, found] at h
    cases h
    exact here
  | case5 c here api named other found ih =>
    rw [findSqlPlugin, dif_neg here, if_neg named, if_neg other, found] at h
    exact ih h

/-- `lastChanceRunner`. The cursor also moves behind a section that worked. -/
def lastChanceRunner (d : Dhi S P σ) : EStateM.Result Fault (Dhi S P σ) Bool :=
  if d.container.AtEnd then .error noSection d
  else
    match _found : findSqlPlugin getApi findSqlHandler d.container with
    | (.error fault, c) => .error fault { d with container := c }
    | (.ok none, c) => .error noSection { d with container := c }
    | (.ok (some plugin), c) =>
      match _tried : tryPlugin findHandler command plugin { d with container := c } with
      | .error fault d' => .error fault d'
      | .ok true d' => .ok true { d' with container := d'.container.setNext.2 }
      | .ok false d' => lastChanceRunner { d' with container := d'.container.setNext.2 }
termination_by d.container.left
decreasing_by
  have here := findSqlPlugin_some getApi findSqlHandler _found
  have back := findSqlPlugin_left getApi findSqlHandler d.container
  rw [_found] at back
  rw [tryPlugin_container findHandler command _tried, c.setNext_of here]
  exact Nat.lt_of_lt_of_le (c.advance_left here) back

/-! ## A round of the loop -/

/-- The plugin `find_sql_plugin` takes for a section. -/
def pluginOf (s : S) : Option P := if getApi s = sqlName then none else findSqlHandler (getApi s)

variable {getApi findSqlHandler}

theorem findSqlPlugin_skip {c : SectionCursor S} (h : ¬ c.AtEnd) (named : getApi (c.actualSection h) ≠ [])
    (nothing : pluginOf getApi findSqlHandler (c.actualSection h) = none) :
    findSqlPlugin getApi findSqlHandler c = findSqlPlugin getApi findSqlHandler (c.advance h) := by
  rw [findSqlPlugin, dif_neg h, if_neg named, c.setNext_of h]
  unfold pluginOf at nothing
  split at nothing
  · rename_i sql
    rw [if_pos sql]
  · rename_i other
    rw [if_neg other, nothing]

theorem findSqlPlugin_take {c : SectionCursor S} (h : ¬ c.AtEnd) (named : getApi (c.actualSection h) ≠ []) {plugin : P}
    (found : pluginOf getApi findSqlHandler (c.actualSection h) = some plugin) :
    findSqlPlugin getApi findSqlHandler c = (.ok (some plugin), c) := by
  rw [findSqlPlugin, dif_neg h, if_neg named]
  unfold pluginOf at found
  split at found
  · cases found
  · rename_i other
    rw [if_neg other, found]

theorem run_end {d : Dhi S P σ} (h : d.container.AtEnd) :
    lastChanceRunner getApi findSqlHandler findHandler command d = .error noSection d := by
  rw [lastChanceRunner, if_pos h]

theorem run_eq {d : Dhi S P σ} (h : ¬ d.container.AtEnd) :
    lastChanceRunner getApi findSqlHandler findHandler command d =
      match findSqlPlugin getApi findSqlHandler d.container with
      | (.error fault, c) => .error fault { d with container := c }
      | (.ok none, c) => .error noSection { d with container := c }
      | (.ok (some plugin), c) =>
        match tryPlugin findHandler command plugin { d with container := c } with
        | .error fault d' => .error fault d'
        | .ok true d' => .ok true { d' with container := d'.container.setNext.2 }
        | .ok false d' =>
          lastChanceRunner getApi findSqlHandler findHandler command { d' with container := d'.container.setNext.2 } := by
  rw [lastChanceRunner, if_neg h]
  split
  · simp only [*]
  · simp only [*]
  · simp only [*]
    split <;> simp only [*]

/-- A section without a plugin is passed. -/
theorem run_skip {d : Dhi S P σ} (h : ¬ d.container.AtEnd) (named : getApi (d.container.actualSection h) ≠ [])
    (nothing : pluginOf getApi findSqlHandler (d.container.actualSection h) = none) :
    lastChanceRunner getApi findSqlHandler findHandler command d =
      lastChanceRunner getApi findSqlHandler findHandler command { d with container := d.container.advance h } := by
  have skip := findSqlPlugin_skip h named nothing
  rw [run_eq findHandler command h, skip]
  generalize moved : d.container.advance h = c
  by_cases last : c.AtEnd
  · have ends : Dhi.container { d with container := c } = c := rfl
    rw [run_end findHandler command (ends ▸ last), findSqlPlugin, dif_pos last]
  · have goes : Dhi.container { d with container := c } = c := rfl
    rw [run_eq findHandler command (goes ▸ last)]

/-- A section with a plugin is tried. -/
theorem run_take {d : Dhi S P σ} (h : ¬ d.container.AtEnd) (named : getApi (d.container.actualSection h) ≠ []) {plugin : P}
    (found : pluginOf getApi findSqlHandler (d.container.actualSection h) = some plugin) :
    lastChanceRunner getApi findSqlHandler findHandler command d =
      match tryPlugin findHandler command plugin d with
      | .error fault d' => .error fault d'
      | .ok true d' => .ok true { d' with container := d.container.advance h }
      | .ok false d' =>
        lastChanceRunner getApi findSqlHandler findHandler command { d' with container := d.container.advance h } := by
  rw [run_eq findHandler command h, findSqlPlugin_take h named found]
  simp only
  cases tried : tryPlugin findHandler command plugin d with
  | error fault d' => rfl
  | ok res d' =>
    have same := tryPlugin_container findHandler command tried
    cases res <;> simp only [same, d.container.setNext_of h]

/-! ## The calls of a run -/

variable {findHandler command}

theorem section_drop (c : SectionCursor S) (h : ¬ c.AtEnd) :
    c.sections.drop c.actual = c.actualSection h :: (c.advance h).sections.drop (c.advance h).actual :=
  List.drop_eq_getElem_cons (SectionCursor.lt_of_not_atEnd h)

/-- The builder of a plugin, called on the section the cursor is on. -/
def builder (L : Libdap) (command : Command) (plugin : SQLPlugin) (_ : Unit) : Option (Handler Section (command.Response L)) :=
  (plugin.findHandler L command).map fun function c =>
    if h : c.AtEnd then throw .undefined else attempt L command function (c.actualSection h).backend

theorem run_unnamed {d : Dhi S P σ} (h : ¬ d.container.AtEnd) (unnamed : getApi (d.container.actualSection h) = []) :
    lastChanceRunner getApi findSqlHandler findHandler command d = .error noApi d := by
  rw [run_eq findHandler command h, findSqlPlugin, dif_neg h, if_pos unnamed]

/-- What a run leaves for the caller. -/
def answer {ρ : Type} : EStateM.Result Fault (Dhi Section SQLPlugin ρ) Bool → EStateM.Result Fault ρ Bool
  | .ok res d => .ok res d.response
  | .error fault d => .error fault d.response

theorem tryPlugin_builder (L : Libdap) (command : Command) (plugin : SQLPlugin) (d : Dhi Section SQLPlugin (command.Response L))
    (here : ¬ d.container.AtEnd) :
    SQLRequestHandler.tryPlugin L command plugin (d.container.actualSection here) d.response =
      answer (tryPlugin (builder L command) () plugin d) := by
  unfold SQLRequestHandler.tryPlugin Fallback.tryPlugin builder
  cases plugin.findHandler L command with
  | none => rfl
  | some function =>
    simp only [Option.map_some, dif_neg here]
    cases attempt L command function (d.container.actualSection here).backend d.response with
    | ok res r => rfl
    | error fault r => cases fault <;> rfl

/-- The runner over the sections that are left is the runner with the cursor. -/
theorem runner_eq (L : Libdap) (find : Str → Option SQLPlugin) (command : Command)
    (d : Dhi Section SQLPlugin (command.Response L)) :
    SQLRequestHandler.lastChanceRunner find L command (d.container.sections.drop d.container.actual) d.response =
      answer (lastChanceRunner Section.api find (builder L command) () d) := by
  induction left : d.container.left generalizing d with
  | zero =>
    have ends : d.container.AtEnd := by
      have := d.container.inside
      simp only [SectionCursor.left] at left
      simp only [SectionCursor.AtEnd]
      omega
    rw [run_end _ _ ends, List.drop_eq_nil_of_le (Nat.le_of_eq ends.symm), lastChanceRunner_nil]
    rfl
  | succ n ih =>
    have here : ¬ d.container.AtEnd := by
      simp only [SectionCursor.left] at left
      simp only [SectionCursor.AtEnd]
      omega
    have less : (d.container.advance here).left = n := by
      simp only [SectionCursor.left, SectionCursor.advance] at left ⊢
      omega
    rw [section_drop _ here]
    by_cases name : (d.container.actualSection here).api = []
    · rw [lastChanceRunner_unnamed _ _ _ _ name, run_unnamed here name]
      rfl
    rw [lastChanceRunner_cons _ _ _ _ name]
    have later := fun d' : Dhi Section SQLPlugin (command.Response L) =>
      ih { d' with container := d.container.advance here } less
    cases found : SQLRequestHandler.pluginOf find (d.container.actualSection here) with
    | none =>
      rw [run_skip _ _ here name found]
      exact later d
    | some plugin =>
      rw [run_take _ _ here name found]
      have same := tryPlugin_builder L command plugin d here
      cases tried : Fallback.tryPlugin (builder L command) () plugin d with
      | error fault d' =>
        rw [tried] at same
        exact Proc.bind_error same
      | ok res d' =>
        rw [tried] at same
        refine (Proc.bind_ok same).trans ?_
        cases res with
        | true => rfl
        | false => exact later d'

end SQLRequestHandler.Fallback

end SqlHandler
