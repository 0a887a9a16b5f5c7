import SqlHandler.Handler.Registry

/-!
# What a load and an unload do

`initializeModule_run` and `terminateModule_run` say what the two calls of a loader do to the
list, to the uses and to the table of methods. `Regular` holds of every state they leave.
-/

namespace SqlHandler
open Posix

namespace Registry
variable {T : Type} (H : BESRequestHandler T) {r r' : Registry T}

theorem setCount_uses (name : Str) (n : Nat) (r : Registry T) (c : Str) :
    (r.setCount name (Stl.Counts.entry n)).uses c = if c = name then n else r.uses c :=
  Stl.Counts.count_put r.theWrapCount name c n

theorem setCount_methods (name : Str) (n : Option ℕ+) (r : Registry T) : (r.setCount name n).methods = r.methods := rfl

theorem entry_uses (r : Registry T) (c : Str) : r.theWrapCount c = Stl.Counts.entry (r.uses c) :=
  (Stl.Counts.entry_count r.theWrapCount c).symm

theorem updateWrapCount_up (name : Str) (r : Registry T) :
    updateWrapCount name true r = .ok false (r.setCount name (Stl.Counts.entry (r.uses name + 1))) := by
  have found := entry_uses r name
  unfold updateWrapCount
  rw [Proc.get_bind]
  cases count : r.uses name with
  | zero =>
    rw [count] at found
    rw [found]
    rfl
  | succ n =>
    rw [count] at found
    rw [found]
    rfl

theorem updateWrapCount_down {name : Str} {r : Registry T} {n : Nat} (counted : r.uses name = n + 1) :
    updateWrapCount name false r = .ok (decide (n = 0)) (r.setCount name (Stl.Counts.entry n)) := by
  have found := entry_uses r name
  rw [counted] at found
  unfold updateWrapCount
  rw [Proc.get_bind, found]
  dsimp only [Stl.Counts.entry_succ]
  rw [Nat.natPred_succPNat]
  cases n with
  | zero => rfl
  | succ n => rfl

/-! ## Adding uses -/

/-- One more use of each of the commands. -/
structure Wraps (r r' : Registry T) (commands : List Str) : Prop where
  list : r'.theList = r.theList
  uses : ∀ c, r'.uses c = r.uses c + if c ∈ commands then 1 else 0
  methods : ∀ c, H.findMethod r'.methods c =
    if c ∈ commands then some ((H.findMethod r.methods c).getD .wrapper) else H.findMethod r.methods c

theorem Wraps.refl (r : Registry T) : Wraps H r r [] := by
  constructor <;> simp

/-- The error of a command that is the name of a plugin. -/
def cannotWrap : Fault := .error ⟨.besInternalFatalError, "Cannot wrap correctly this command!".toList⟩

/-- No plugin of the list has the name. -/
def Free (r : Registry T) (name : Str) : Prop := r.findSqlHandler name = none

instance (r : Registry T) (name : Str) : Decidable (r.Free name) := inferInstanceAs (Decidable (_ = none))

theorem free_congr {name : Str} (list : r'.theList = r.theList) : r'.Free name ↔ r.Free name := by
  unfold Free findSqlHandler
  rw [list]

variable {H}

/-- `add_handler` on a new command. -/
theorem Wraps.snoc {commands : List Str} {command : Str} (h : Wraps H r r' commands) (new : command ∉ commands)
    (free : r.Free command) : ∃ r'', addHandler H command commands r' = .ok (commands ++ [command]) r'' ∧
      Wraps H r r'' (commands ++ [command]) := by
  have none := (free_congr h.list).2 free
  refine ⟨{ r'.setCount command (Stl.Counts.entry (r'.uses command + 1)) with
    methods := H.addMethod r'.methods command .wrapper }, ?_, ?_, ?_, ?_⟩
  · unfold addHandler
    rw [if_neg new]
    apply Proc.bind_ok (a := true)
    unfold addSqlWrapper
    rw [Proc.get_bind, none]
    apply Proc.bind_ok
    exact updateWrapCount_up command r'
  · exact h.list
  · intro c
    have step := setCount_uses command (r'.uses command + 1) r' c
    refine step.trans ?_
    by_cases same : c = command
    · subst same
      simp [h.uses, new]
    · simp [h.uses, same]
  · intro c
    refine (H.find_add _ _ _ _).trans ?_
    by_cases same : c = command
    · subst same
      simp [h.methods, new]
    · simp [h.methods, same]

/-- What a constructor does. It stops at the first command that is the name of a plugin. -/
theorem Wraps.construct {commands : List Str} (more : List Str) (h : Wraps H r r' commands) (nodup : commands.Nodup)
    (free : ∀ c ∈ commands, r.Free c) :
    ∃ commands' r'', Wraps H r r'' commands' ∧ commands'.Nodup ∧
      (∀ c, c ∈ commands' ↔ c ∈ commands ∨ c ∈ more.takeWhile (fun c => r.Free c)) ∧
      construct H more commands r' = if ∀ c ∈ more, r.Free c then .ok commands' r'' else .error cannotWrap r'' := by
  induction more generalizing commands r' with
  | nil =>
    refine ⟨commands, r', h, nodup, by simp, ?_⟩
    rw [if_pos (by simp)]
    rfl
  | cons command more ih =>
    by_cases old : command ∈ commands
    · obtain ⟨commands', r'', wraps, nodup', mem, run⟩ := ih h nodup free
      have here := free command old
      refine ⟨commands', r'', wraps, nodup', ?_, ?_⟩
      · intro c
        rw [mem, List.takeWhile_cons_of_pos (by simpa using here), List.mem_cons]
        constructor
        · rintro (hc | hc)
          · exact .inl hc
          · exact .inr (.inr hc)
        · rintro (hc | rfl | hc)
          · exact .inl hc
          · exact .inl old
          · exact .inr hc
      · have skipped : addHandler H command commands r' = .ok commands r' := by
          rw [addHandler, if_pos old]
          rfl
        rw [Registry.construct, Proc.bind_ok skipped, run]
        simp only [List.forall_mem_cons, here, true_and]
    · by_cases here : r.Free command
      · obtain ⟨r₁, added, wraps₁⟩ := h.snoc old here
        have nodup₁ : (commands ++ [command]).Nodup := by
          rw [List.nodup_append]
          refine ⟨nodup, by simp, ?_⟩
          intro a ha b hb same
          rw [List.mem_singleton] at hb
          exact old (hb ▸ same ▸ ha)
        have free₁ : ∀ c ∈ commands ++ [command], r.Free c := by
          intro c hc
          rcases List.mem_append.1 hc with hc | hc
          · exact free c hc
          · exact List.mem_singleton.1 hc ▸ here
        obtain ⟨commands', r'', wraps, nodup', mem, run⟩ := ih wraps₁ nodup₁ free₁
        refine ⟨commands', r'', wraps, nodup', ?_, ?_⟩
        · intro c
          rw [mem, List.takeWhile_cons_of_pos (by simpa using here)]
          simp [or_assoc]
        · rw [Registry.construct, Proc.bind_ok added, run]
          simp only [List.forall_mem_cons, here, true_and]
      · refine ⟨commands, r', h, nodup, ?_, ?_⟩
        · intro c
          rw [List.takeWhile_cons_of_neg (by simpa using here)]
          simp
        · rw [if_neg (fun all => here (all command (by simp))), Registry.construct]
          apply Proc.bind_error
          obtain ⟨plugin, found⟩ := Option.ne_none_iff_exists'.1 (fun none => here ((free_congr h.list).1 none))
          have unwrapped : addSqlWrapper H command r' = .ok false r' := by
            unfold addSqlWrapper
            rw [Proc.get_bind, found]
            rfl
          rw [addHandler, if_neg old, Proc.bind_ok unwrapped]
          rfl

/-! ## Taking uses back -/

variable (H)

/-- One use less of each of the commands, and no method where none is left. -/
structure Drops (r r' : Registry T) (commands : List Str) : Prop where
  uses : ∀ c, r'.uses c = r.uses c - if c ∈ commands then 1 else 0
  methods : ∀ c, H.findMethod r'.methods c =
    if c ∈ commands ∧ r.uses c = 1 then none else H.findMethod r.methods c

variable {H}

/-- `remove_sql_wrapper` on a command with a use and a method. -/
theorem removeSqlWrapper_run {command : Str} {n : Nat} (counted : r.uses command = n + 1)
    (installed : (H.findMethod r.methods command).isSome) :
    ∃ r', removeSqlWrapper H command r = .ok true r' ∧ r'.theList = r.theList ∧ Drops H r r' [command] := by
  obtain ⟨method, found⟩ := Option.isSome_iff_exists.1 installed
  have counts : ∀ c, (r.setCount command (Stl.Counts.entry n)).uses c = r.uses c - if c ∈ [command] then 1 else 0 := by
    intro c
    rw [setCount_uses]
    by_cases same : c = command
    · subst same
      simp [counted]
    · simp [same]
  unfold removeSqlWrapper
  rw [Proc.get_bind, found]
  dsimp only
  rw [Proc.bind_ok (updateWrapCount_down counted)]
  cases n with
  | zero =>
    refine ⟨_, rfl, rfl, counts, ?_⟩
    intro c
    refine (H.find_remove _ _ _).trans ?_
    by_cases same : c = command
    · subst same
      simp [counted]
    · simp [same, setCount_methods]
  | succ n =>
    refine ⟨_, rfl, rfl, counts, ?_⟩
    intro c
    rw [if_neg]
    · rfl
    · rintro ⟨mem, last⟩
      rw [List.mem_singleton.1 mem, counted] at last
      omega

theorem findSqlHandler_here {before after : List Plugin} {plugin : Plugin} (list : r.theList = before ++ plugin :: after)
    (others : ∀ p ∈ before, p.name ≠ plugin.name) : r.findSqlHandler plugin.name = some plugin := by
  unfold findSqlHandler
  rw [list, List.find?_eq_some_iff_append]
  refine ⟨by simp, before, after, rfl, ?_⟩
  intro p hp
  simpa using others p hp

theorem map_others {name : Str} {f : Plugin → Plugin} {plugins : List Plugin} (others : ∀ p ∈ plugins, p.name ≠ name) :
    plugins.map (fun p => if p.name = name then f p else p) = plugins := by
  conv_rhs => rw [← List.map_id plugins]
  apply List.map_congr_left
  intro p hp
  rw [if_neg (others p hp)]
  rfl

/-- `remove_handlers` on the plugin between `before` and `after`. -/
theorem removeHandlers_run {name : Str} {before after : List Plugin} {commands : List Str} {r : Registry T}
    (nodup : commands.Nodup) (counted : ∀ c ∈ commands, 0 < r.uses c)
    (installed : ∀ c ∈ commands, (H.findMethod r.methods c).isSome)
    (list : r.theList = before ++ ⟨name, commands⟩ :: after)
    (left : ∀ p ∈ before, p.name ≠ name) (right : ∀ p ∈ after, p.name ≠ name) :
    ∃ r', removeHandlers H name commands r = .ok () r' ∧ r'.theList = before ++ ⟨name, []⟩ :: after ∧
      Drops H r r' commands := by
  induction commands generalizing r with
  | nil =>
    refine ⟨r, rfl, list, ?_, ?_⟩ <;> simp
  | cons command more ih =>
    have fresh := (List.nodup_cons.1 nodup).1
    obtain ⟨n, hn⟩ := Nat.exists_eq_add_one.2 (counted command (by simp))
    obtain ⟨r₁, removed, list₁, drops₁⟩ := removeSqlWrapper_run hn (installed command (by simp))
    have erased : (r₁.eraseHandler name command).theList = before ++ ⟨name, more⟩ :: after := by
      change r₁.theList.map _ = _
      rw [list₁, list, List.map_append, List.map_cons, map_others left, map_others right, if_pos rfl]
      simp
    have step : removeHandler H name command r = .ok true (r₁.eraseHandler name command) := by
      have found : r.findSqlHandler name = some ⟨name, command :: more⟩ := findSqlHandler_here list left
      unfold removeHandler
      rw [Proc.get_bind, found]
      dsimp only
      rw [if_pos (by simp), Proc.bind_ok removed]
      rfl
    have still : ∀ c ∈ more, c ≠ command := by
      rintro c hc rfl
      exact fresh hc
    obtain ⟨r', run, list', drops'⟩ := ih (List.nodup_cons.1 nodup).2 (r := r₁.eraseHandler name command)
      (by
        intro c hc
        have one := counted c (by simp [hc])
        change 0 < r₁.uses c
        rw [drops₁.uses]
        simpa [still c hc] using one)
      (by
        intro c hc
        have one := installed c (by simp [hc])
        change (H.findMethod r₁.methods c).isSome
        rw [drops₁.methods]
        simpa [still c hc] using one)
      erased
    refine ⟨r', ?_, list', ?_, ?_⟩
    · rw [removeHandlers, Proc.bind_ok step]
      exact run
    · intro c
      have first : (r₁.eraseHandler name command).uses c = _ := drops₁.uses c
      rw [drops'.uses, first]
      by_cases same : c = command
      · subst same
        simp [fresh]
      · simp [same]
    · intro c
      have first : H.findMethod (r₁.eraseHandler name command).methods c = _ := drops₁.methods c
      have uses : (r₁.eraseHandler name command).uses c = _ := drops₁.uses c
      rw [drops'.methods, first, uses]
      by_cases same : c = command
      · subst same
        simp [fresh]
      · simp [same]

/-! ## The calls of a loader -/

variable (H) (names : ResponseNames)

/-- What holds of the list and the uses whatever the loaders do. -/
structure Regular (r : Registry T) : Prop where
  unique : (r.theList.map Plugin.name).Nodup
  maps : ∀ p ∈ r.theList, p.handlerList.Nodup
  counted : ∀ c, r.holders c ≤ r.uses c
  installed : ∀ c, 0 < r.uses c → (H.findMethod r.methods c).isSome
  wrapped : ∀ c, c ≠ names.vers → c ≠ names.help →
    H.findMethod r.methods c = if 0 < r.uses c then some .wrapper else none

/-- The list takes a plugin: its name is new and none of its commands is the name of a plugin. -/
def Accepted (modname : Str) (commands : List Str) (r : Registry T) : Prop :=
  r.Free modname ∧ ∀ c ∈ commands, r.Free c

/-- The commands a constructor wraps before it returns or throws. -/
def reached (commands : List Str) (r : Registry T) : List Str := commands.takeWhile (fun c => r.Free c)

instance (modname : Str) (commands : List Str) (r : Registry T) : Decidable (r.Accepted modname commands) :=
  inferInstanceAs (Decidable (_ ∧ _))

variable {H names}

theorem create_regular : Regular H names (create H names) := by
  constructor
  · simp [create]
  · simp [create]
  · intro c
    simp [create, holders]
  · intro c counted
    simp [create, uses, Stl.Counts.count] at counted
  · intro c vers help
    simp [create, uses, Stl.Counts.count, H.find_add, H.find_empty, vers, help]

theorem notFree {name : Str} : ¬ r.Free name ↔ ∃ plugin, r.findSqlHandler name = some plugin :=
  Option.ne_none_iff_exists'

/-- `initialize` leaves the uses of the commands reached, and the plugin if the list takes it. -/
theorem initializeModule_run (modname : Str) (commands : List Str) (r : Registry T) :
    ∃ handlerList r₁, Wraps H r r₁ handlerList ∧ handlerList.Nodup ∧
      (∀ c, c ∈ handlerList ↔ c ∈ r.reached commands) ∧
      after (initializeModule H modname commands) r = some
        (if r.Accepted modname commands then { r₁ with theList := r₁.theList ++ [⟨modname, handlerList⟩] } else r₁) := by
  obtain ⟨handlerList, r₁, wraps, nodup, mem, run⟩ :=
    (Wraps.refl H r).construct commands List.nodup_nil (by simp)
  refine ⟨handlerList, r₁, wraps, nodup, by simpa [reached] using mem, ?_⟩
  by_cases all : ∀ c ∈ commands, r.Free c
  · rw [if_pos all] at run
    by_cases free : r.Free modname
    · rw [if_pos ⟨free, all⟩]
      apply after_ok
      have none : r₁.findSqlHandler modname = none := (free_congr wraps.list).2 free
      have added : addSqlHandler ⟨modname, handlerList⟩ r₁ =
          .ok true { r₁ with theList := r₁.theList ++ [⟨modname, handlerList⟩] } := by
        unfold addSqlHandler
        rw [Proc.get_bind, none]
        rfl
      unfold initializeModule
      rw [Proc.bind_ok run, Proc.bind_ok added]
      rfl
    · rw [if_neg (fun h => free h.1)]
      obtain ⟨plugin, found⟩ := notFree.1 (mt (free_congr wraps.list).1 free)
      have refused : addSqlHandler ⟨modname, handlerList⟩ r₁ = .ok false r₁ := by
        unfold addSqlHandler
        rw [Proc.get_bind, found]
        rfl
      apply after_error (e := loadRefused)
      unfold initializeModule
      rw [Proc.bind_ok run, Proc.bind_ok refused]
      rfl
  · rw [if_neg all] at run
    rw [if_neg (fun h => all h.2)]
    apply after_error
    exact Proc.bind_error run

/-- `terminate` on a name the list does not have. -/
theorem terminateModule_unknown {modname : Str} (free : r.Free modname) :
    after (terminateModule H modname) r = some r := by
  have none : removeSqlHandler H modname r = .ok false r := by
    unfold removeSqlHandler
    rw [Proc.get_bind, show r.findSqlHandler modname = _ from free]
    rfl
  apply after_error (e := unloadRefused)
  unfold terminateModule
  rw [Proc.bind_ok none]
  rfl

/-- A plugin of the list, by its place. -/
theorem split_of_find {modname : Str} {plugin : Plugin} (unique : (r.theList.map Plugin.name).Nodup)
    (found : r.findSqlHandler modname = some plugin) :
    plugin.name = modname ∧ ∃ before after, r.theList = before ++ plugin :: after ∧
      (∀ p ∈ before, p.name ≠ modname) ∧ (∀ p ∈ after, p.name ≠ modname) := by
  obtain ⟨named, before, after, list, left⟩ := List.find?_eq_some_iff_append.1 found
  have named : plugin.name = modname := by simpa using named
  refine ⟨named, before, after, list, by simpa using left, ?_⟩
  rw [list, List.map_append, List.map_cons, List.nodup_append] at unique
  have fresh := (List.nodup_cons.1 unique.2.1).1
  intro p hp same
  apply fresh
  rw [named, ← same]
  exact List.mem_map_of_mem hp

theorem holders_split {before after : List Plugin} {plugin : Plugin} (list : r.theList = before ++ plugin :: after)
    (c : Str) : r.holders c = (before ++ after).countP (fun p => c ∈ p.handlerList) + if c ∈ plugin.handlerList then 1 else 0 := by
  unfold holders
  rw [list]
  simp only [List.countP_append, List.countP_cons, decide_eq_true_eq]
  omega

/-- `terminate` takes one use of each command of the plugin back and forgets the plugin. -/
theorem terminateModule_run {modname : Str} {plugin : Plugin} (regular : Regular H names r)
    (found : r.findSqlHandler modname = some plugin) :
    ∃ before behind r', r.theList = before ++ plugin :: behind ∧ r'.theList = before ++ behind ∧
      Drops H r r' plugin.handlerList ∧ after (terminateModule H modname) r = some r' := by
  obtain ⟨rfl, before, behind, list, left, right⟩ := split_of_find regular.unique found
  have counted : ∀ c ∈ plugin.handlerList, 0 < r.uses c := by
    intro c hc
    have some := regular.counted c
    rw [holders_split list, if_pos hc] at some
    omega
  obtain ⟨r₁, run, list₁, drops⟩ := removeHandlers_run (H := H) (regular.maps plugin (by simp [list])) counted
    (fun c hc => regular.installed c (counted c hc)) list left right
  have erased : (r₁.erase plugin.name).theList = before ++ behind := by
    change r₁.theList.eraseP _ = _
    rw [list₁, List.eraseP_append_right, List.eraseP_cons_of_pos (by simp)]
    simpa using left
  refine ⟨before, behind, r₁.erase plugin.name, list, erased, ⟨drops.uses, drops.methods⟩, ?_⟩
  have removed : removeSqlHandler H plugin.name r = .ok true (r₁.erase plugin.name) := by
    unfold removeSqlHandler
    rw [Proc.get_bind, found]
    dsimp only
    rw [Proc.bind_ok run]
    rfl
  apply after_ok
  unfold terminateModule
  rw [Proc.bind_ok removed]
  rfl

/-! ## Every state a run reaches is regular -/

theorem Regular.wraps {commands : List Str} (regular : Regular H names r) (wraps : Wraps H r r' commands) :
    Regular H names r' := by
  constructor
  · rw [wraps.list]
    exact regular.unique
  · rw [wraps.list]
    exact regular.maps
  · intro c
    have before := regular.counted c
    unfold holders at before ⊢
    rw [wraps.list, wraps.uses]
    omega
  · intro c counted
    rw [wraps.methods]
    split
    · rfl
    · rename_i other
      apply regular.installed
      simpa [wraps.uses, other] using counted
  · intro c vers help
    have before := regular.wrapped c vers help
    rw [wraps.methods, wraps.uses, before]
    split <;> split <;> simp_all

theorem holders_append (plugin : Plugin) (r : Registry T) (c : Str) :
    { r with theList := r.theList ++ [plugin] }.holders c = r.holders c + if c ∈ plugin.handlerList then 1 else 0 := by
  unfold holders
  simp [List.countP_append, List.countP_cons]

theorem free_iff {name : Str} : r.Free name ↔ ∀ p ∈ r.theList, p.name ≠ name := by
  unfold Free findSqlHandler
  simp

/-- The list takes a plugin whose uses are counted. -/
theorem Regular.takes {modname : Str} {commands : List Str} (regular : Regular H names r) (wraps : Wraps H r r' commands)
    (nodup : commands.Nodup) (free : r.Free modname) :
    Regular H names { r' with theList := r'.theList ++ [⟨modname, commands⟩] } := by
  have counts := regular.wraps wraps
  constructor
  · have fresh : ∀ p ∈ r'.theList, p.name ≠ modname := free_iff.1 ((free_congr wraps.list).2 free)
    rw [List.map_append, List.nodup_append]
    refine ⟨counts.unique, by simp, ?_⟩
    intro a ha b hb same
    obtain ⟨p, hp, rfl⟩ := List.mem_map.1 ha
    apply fresh p hp
    simpa [same] using hb
  · intro p hp
    rcases List.mem_append.1 hp with hp | hp
    · exact counts.maps p hp
    · rw [List.mem_singleton.1 hp]
      exact nodup
  · intro c
    have before := regular.counted c
    have same : r'.holders c = r.holders c := by
      unfold holders
      rw [wraps.list]
    rw [holders_append, same]
    change r.holders c + (if c ∈ commands then 1 else 0) ≤ r'.uses c
    rw [wraps.uses]
    omega
  · exact counts.installed
  · exact counts.wrapped

theorem Regular.drops {before behind : List Plugin} {plugin : Plugin} (regular : Regular H names r)
    (list : r.theList = before ++ plugin :: behind) (list' : r'.theList = before ++ behind)
    (drops : Drops H r r' plugin.handlerList) : Regular H names r' := by
  have sub : r'.theList.Sublist r.theList := by
    rw [list, list']
    exact List.Sublist.append_left (List.sublist_cons_self plugin behind) before
  constructor
  · exact (sub.map Plugin.name).nodup regular.unique
  · intro p hp
    exact regular.maps p (sub.subset hp)
  · intro c
    have counted := regular.counted c
    rw [holders_split list] at counted
    unfold holders
    rw [list', drops.uses]
    omega
  · intro c counted
    rw [drops.uses] at counted
    rw [drops.methods, if_neg]
    · apply regular.installed
      omega
    · rintro ⟨mem, last⟩
      simp [mem, last] at counted
  · intro c vers help
    rw [drops.methods, drops.uses, regular.wrapped c vers help]
    by_cases mem : c ∈ plugin.handlerList
    · by_cases last : r.uses c = 1
      · simp [mem, last]
      · simp only [mem, last, and_false, if_false, if_true]
        congr 1
        apply propext
        omega
    · simp [mem]

theorem load_regular (call : LoaderCall) (regular : Regular H names r) :
    ∃ r', after (load H call) r = some r' ∧ Regular H names r' := by
  cases call with
  | initializeModule modname commands =>
    obtain ⟨handlerList, r₁, wraps, nodup, mem, run⟩ := initializeModule_run (H := H) modname commands r
    refine ⟨_, run, ?_⟩
    split
    · rename_i accepted
      exact regular.takes wraps nodup accepted.1
    · exact regular.wraps wraps
  | terminateModule modname =>
    by_cases free : r.Free modname
    · exact ⟨r, terminateModule_unknown free, regular⟩
    · obtain ⟨plugin, found⟩ := notFree.1 free
      obtain ⟨before, behind, r', list, list', drops, run⟩ := terminateModule_run regular found
      exact ⟨r', run, regular.drops list list' drops⟩

end Registry

end SqlHandler
