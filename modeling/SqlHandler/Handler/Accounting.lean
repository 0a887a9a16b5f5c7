import SqlHandler.Handler.Loading

/-!
# The uses count the plugins, and the methods of the constructor stay

Both are properties of every step of a run, and both fail. A plugin the list refuses has
counted its commands already. A plugin that handles `version` or `help`, as `ODBCPlugin`
does, takes the method of the constructor along when its use is the last.
-/

namespace SqlHandler
open Posix

namespace Registry
variable {T : Type} (H : BESRequestHandler T) (names : ResponseNames) {r r' : Registry T}

/-- A call on the list of plugins. -/
inductive Event where
  | call (c : LoaderCall)
  | removeSqlHandlers

def perform : Event → Proc (Registry T) Unit
  | .call c => load H c
  | .removeSqlHandlers => removeSqlHandlers H

/-- A property of each step of a run, by the state before it and the one after it, if there is one. -/
def Throughout {ε : Type} (step : ε → Registry T → Option (Registry T))
    (holds : ε → Registry T → Option (Registry T) → Prop) : List ε → Registry T → Prop
  | [], _ => True
  | e :: more, r => holds e r (step e r) ∧ ∀ r', step e r = some r' → Throughout step holds more r'

/-- Two properties of the steps agree on a run if they agree on one step from an invariant state,
and the steps that have them keep the invariant. -/
theorem throughout_iff {ε : Type} {step : ε → Registry T → Option (Registry T)}
    {good fit : ε → Registry T → Option (Registry T) → Prop} {I : Registry T → Prop}
    (agree : ∀ e r, I r → (good e r (step e r) ↔ fit e r (step e r)))
    (keep : ∀ e r r', I r → fit e r (step e r) → step e r = some r' → I r') (events : List ε) {r : Registry T} (h : I r) :
    Throughout step good events r ↔ Throughout step fit events r := by
  induction events generalizing r with
  | nil => rfl
  | cons e more ih =>
    constructor
    · rintro ⟨first, later⟩
      have fits := (agree e r h).1 first
      refine ⟨fits, ?_⟩
      intro r' run
      exact (ih (keep e r r' h fits run)).1 (later r' run)
    · rintro ⟨first, later⟩
      refine ⟨(agree e r h).2 first, ?_⟩
      intro r' run
      exact (ih (keep e r r' h first run)).2 (later r' run)

/-! ## The uses count the plugins -/

/-- The uses of every command are the plugins that hold it, and a command of the plugins has a
wrapper if and only if there is one. -/
def Accounts (r : Registry T) : Prop := ∀ c,
  r.theWrapCount c = Stl.Counts.entry (r.holders c) ∧
    (c ≠ names.vers → c ≠ names.help → (H.findMethod r.methods c = some .wrapper ↔ 0 < r.holders c))

/-- A step after which the uses count the plugins. `remove_sql_handlers` empties the list. -/
def Accounted (e : Event) (_ : Registry T) : Option (Registry T) → Prop
  | none => False
  | some r' => Accounts H names r' ∧ (e = .removeSqlHandlers → r'.theList = [])

/-- A plugin loaded is taken, or its constructor wrapped nothing. `remove_sql_handlers` finds no plugin. -/
def Harmless (e : Event) (r : Registry T) (_ : Option (Registry T)) : Prop :=
  match e with
  | .call (.initializeModule modname commands) => r.Accepted modname commands ∨ r.reached commands = []
  | .call (.terminateModule _) => True
  | .removeSqlHandlers => r.theList = []

variable {H names}

theorem accounts_iff (regular : Regular H names r) : Accounts H names r ↔ ∀ c, r.uses c = r.holders c := by
  constructor
  · intro accounts c
    exact Stl.Counts.count_of_entry (accounts c).1
  · intro counts c
    refine ⟨Stl.Counts.eq_entry.2 (counts c), ?_⟩
    intro vers help
    rw [regular.wrapped c vers help, counts c]
    split <;> simp_all

theorem removeSqlHandlers_empty (list : r.theList = []) : after (removeSqlHandlers H) r = some r := by
  apply after_ok
  unfold removeSqlHandlers
  rw [Proc.get_bind, list]
  rfl

/-- `remove_sql_handlers` advances the iterator it erased. -/
theorem removeSqlHandlers_undefined (regular : Regular H names r) (some : r.theList ≠ []) :
    after (removeSqlHandlers H) r = none := by
  obtain ⟨plugin, others, list⟩ := List.exists_cons_of_ne_nil some
  have split : r.theList = [] ++ plugin :: others := list
  have here : plugin ∈ r.theList := by simp [list]
  have counted : ∀ c ∈ plugin.handlerList, 0 < r.uses c := by
    intro c hc
    have one := regular.counted c
    rw [holders_split split, if_pos hc] at one
    omega
  have fresh : ∀ p ∈ others, p.name ≠ plugin.name := by
    have unique := regular.unique
    rw [list, List.map_cons] at unique
    intro p hp same
    apply (List.nodup_cons.1 unique).1
    rw [← same]
    exact List.mem_map_of_mem hp
  obtain ⟨r₁, run, -, -⟩ := removeHandlers_run (H := H) (regular.maps plugin here) counted
    (fun c hc => regular.installed c (counted c hc)) split (by simp) fresh
  have ends : removeSqlHandlers H r = .error .undefined (r₁.erase plugin.name) := by
    unfold removeSqlHandlers
    rw [Proc.get_bind, list]
    dsimp only
    rw [Proc.bind_ok run]
    rfl
  rw [after, ends]

theorem holders_congr (list : r'.theList = r.theList) (c : Str) : r'.holders c = r.holders c := by
  unfold holders
  rw [list]

/-- After a load the uses count the plugins if and only if the load was harmless. -/
theorem load_accounted (modname : Str) (commands : List Str) (regular : Regular H names r)
    (counts : ∀ c, r.uses c = r.holders c) :
    Accounted H names (.call (.initializeModule modname commands)) r (after (initializeModule H modname commands) r) ↔
      r.Accepted modname commands ∨ r.reached commands = [] := by
  obtain ⟨handlerList, r₁, wraps, nodup, mem, run⟩ := initializeModule_run (H := H) modname commands r
  rw [run]
  by_cases accepted : r.Accepted modname commands
  · rw [if_pos accepted]
    apply iff_of_true _ (.inl accepted)
    refine ⟨(accounts_iff (regular.takes wraps nodup accepted.1)).2 ?_, nofun⟩
    intro c
    rw [holders_append, holders_congr wraps.list, ← counts c]
    exact wraps.uses c
  · rw [if_neg accepted, or_iff_right accepted]
    constructor
    · rintro ⟨accounts, -⟩
      apply List.eq_nil_iff_forall_not_mem.2
      intro c hc
      have same := (accounts_iff (regular.wraps wraps)).1 accounts c
      rw [wraps.uses, if_pos ((mem c).2 hc), holders_congr wraps.list, counts c] at same
      omega
    · intro none
      refine ⟨(accounts_iff (regular.wraps wraps)).2 ?_, nofun⟩
      intro c
      have out : c ∉ handlerList := by simp [mem, none]
      rw [wraps.uses, if_neg out, holders_congr wraps.list, counts c, Nat.add_zero]

theorem unload_accounted (modname : Str) (regular : Regular H names r) (counts : ∀ c, r.uses c = r.holders c) :
    Accounted H names (.call (.terminateModule modname)) r (after (terminateModule H modname) r) := by
  by_cases free : r.Free modname
  · rw [terminateModule_unknown free]
    exact ⟨(accounts_iff regular).2 counts, nofun⟩
  · obtain ⟨plugin, found⟩ := notFree.1 free
    obtain ⟨before, behind, r', list, list', drops, run⟩ := terminateModule_run regular found
    rw [run]
    refine ⟨(accounts_iff (regular.drops list list' drops)).2 ?_, nofun⟩
    intro c
    have holders' : r'.holders c = (before ++ behind).countP (fun p => c ∈ p.handlerList) := by
      unfold holders
      rw [list']
    rw [drops.uses, counts c, holders_split list, holders']
    omega

theorem removeSqlHandlers_accounted (regular : Regular H names r) (counts : ∀ c, r.uses c = r.holders c) :
    Accounted H names .removeSqlHandlers r (after (removeSqlHandlers H) r) ↔ r.theList = [] := by
  constructor
  · intro accounted
    by_contra some
    rw [removeSqlHandlers_undefined regular some] at accounted
    exact accounted
  · intro list
    rw [removeSqlHandlers_empty list]
    exact ⟨(accounts_iff regular).2 counts, fun _ => list⟩

/-- What the steps of an accounted run keep. -/
def Counted (H : BESRequestHandler T) (names : ResponseNames) (r : Registry T) : Prop :=
  Regular H names r ∧ ∀ c, r.uses c = r.holders c

theorem step_accounted (e : Event) (h : Counted H names r) :
    Accounted H names e r (after (perform H e) r) ↔ Harmless e r (after (perform H e) r) := by
  cases e with
  | call c =>
    cases c with
    | initializeModule modname commands => exact load_accounted modname commands h.1 h.2
    | terminateModule modname => exact iff_of_true (unload_accounted modname h.1 h.2) trivial
  | removeSqlHandlers => exact removeSqlHandlers_accounted h.1 h.2

theorem step_counted (e : Event) (h : Counted H names r) (harmless : Harmless e r (after (perform H e) r))
    (run : after (perform H e) r = some r') : Counted H names r' := by
  have accounted := (step_accounted e h).2 harmless
  rw [run] at accounted
  have regular : Regular H names r' := by
    cases e with
    | call c =>
      obtain ⟨r₁, run₁, regular⟩ := load_regular (H := H) c h.1
      cases run₁.symm.trans run
      exact regular
    | removeSqlHandlers =>
      cases (removeSqlHandlers_empty harmless).symm.trans run
      exact h.1
  exact ⟨regular, (accounts_iff regular).1 accounted.1⟩

/-- **The uses count the plugins** after every step of a run if and only if no load is refused
after it wrapped a command and `remove_sql_handlers` finds no plugin. -/
theorem accounted_iff (H : BESRequestHandler T) (names : ResponseNames) (events : List Event) :
    Throughout (fun e => after (perform H e)) (Accounted H names) events (create H names) ↔
      Throughout (fun e => after (perform H e)) Harmless events (create H names) := by
  apply throughout_iff (I := Counted H names)
  · intro e r h
    exact step_accounted e h
  · intro e r r' h harmless run
    exact step_counted e h harmless run
  · refine ⟨create_regular, ?_⟩
    intro c
    rfl

/-- A table of methods as a function. -/
def functionTable : BESRequestHandler (Str → Option Method) where
  empty := fun _ => none
  findMethod := fun t c => t c
  addMethod := fun t c m => Function.update t c (some ((t c).getD m))
  removeMethod := fun t c => Function.update t c none
  find_empty := fun _ => rfl
  find_add := fun t c m d => by rw [Function.update_apply]
  find_remove := fun t c d => by rw [Function.update_apply]

/-- The names of the responses in the BES. -/
def besNames : ResponseNames where
  das := "get.das".toList
  dds := "get.dds".toList
  data := "get.dods".toList
  help := "show.help".toList
  vers := "show.version".toList
  differ := by decide

/-- The second load of a module is refused and leaves a count too high. -/
theorem second_load_uncounted :
    ¬ Throughout (fun e => after (perform functionTable e)) (Accounted functionTable besNames)
      [.call (.odbc besNames "odbc".toList), .call (.odbc besNames "odbc".toList)] (create functionTable besNames) := by
  rintro ⟨-, later⟩
  obtain ⟨⟨accounts, -⟩, -⟩ := later _ rfl
  exact absurd (accounts besNames.das).1 (by decide)

/-! ## The methods of the constructor -/

variable (H names)

/-- The methods of the constructor are in the table, and no others without a plugin. -/
structure OwnKept (r : Registry T) : Prop where
  version : H.findMethod r.methods names.vers = some .version
  help : H.findMethod r.methods names.help = some .help
  bare : r.theList = [] → ∀ c, H.findMethod r.methods c = H.findMethod (create H names).methods c

/-- A state after which the methods of the constructor are kept. -/
def Keeps (_ : LoaderCall) (_ : Registry T) (r' : Option (Registry T)) : Prop := ∃ r₁, r' = some r₁ ∧ OwnKept H names r₁

/-- A plugin unloaded does not take the last use of a method of the constructor, and the last
plugin's uses are all there are of other commands. -/
def Gentle (c : LoaderCall) (r : Registry T) (_ : Option (Registry T)) : Prop :=
  match c with
  | .initializeModule _ _ => True
  | .terminateModule modname => ∀ plugin, r.findSqlHandler modname = some plugin →
    (∀ c ∈ plugin.handlerList, c = names.vers ∨ c = names.help → r.uses c ≠ 1) ∧
      (r.theList = [plugin] → ∀ c, c ≠ names.vers → c ≠ names.help →
        r.uses c = if c ∈ plugin.handlerList then 1 else 0)

variable {H names}

theorem create_version : H.findMethod (create H names).methods names.vers = some .version := by
  simp [create, H.find_add, H.find_empty, names.differ]

theorem create_help : H.findMethod (create H names).methods names.help = some .help := by
  simp [create, H.find_add, H.find_empty, names.differ.symm]

theorem create_others {c : Str} (vers : c ≠ names.vers) (help : c ≠ names.help) :
    H.findMethod (create H names).methods c = none := by
  simp [create, H.find_add, H.find_empty, vers, help]

theorem Wraps.method_kept {commands : List Str} {c : Str} {m : Method} (h : Wraps H r r' commands)
    (found : H.findMethod r.methods c = some m) : H.findMethod r'.methods c = some m := by
  rw [h.methods, found]
  split <;> rfl

/-- A load keeps the methods there are. -/
theorem load_keeps (modname : Str) (commands : List Str) (own : OwnKept H names r) :
    Keeps H names (.initializeModule modname commands) r (after (initializeModule H modname commands) r) := by
  obtain ⟨handlerList, r₁, wraps, nodup, mem, run⟩ := initializeModule_run (H := H) modname commands r
  rw [run]
  refine ⟨_, rfl, ?_⟩
  by_cases accepted : r.Accepted modname commands
  · rw [if_pos accepted]
    constructor
    · exact wraps.method_kept own.version
    · exact wraps.method_kept own.help
    · simp
  · rw [if_neg accepted]
    constructor
    · exact wraps.method_kept own.version
    · exact wraps.method_kept own.help
    · intro list
      -- without plugins every name is free
      have free : ∀ name, r.Free name := by
        intro name
        rw [free_iff, ← wraps.list, list]
        simp
      exact absurd ⟨free modname, fun c _ => free c⟩ accepted

/-- An unload keeps them if and only if it is gentle. -/
theorem unload_keeps (modname : Str) (regular : Regular H names r) (own : OwnKept H names r) :
    Keeps H names (.terminateModule modname) r (after (terminateModule H modname) r) ↔
      Gentle names (.terminateModule modname) r (after (terminateModule H modname) r) := by
  by_cases free : r.Free modname
  · rw [terminateModule_unknown free]
    apply iff_of_true
    · exact ⟨r, rfl, own⟩
    · intro plugin found
      rw [show r.findSqlHandler modname = none from free] at found
      cases found
  · obtain ⟨plugin, found⟩ := notFree.1 free
    obtain ⟨before, behind, r', list, list', drops, run⟩ := terminateModule_run regular found
    have kept : ∀ c m, H.findMethod r.methods c = some m →
        (H.findMethod r'.methods c = some m ↔ (c ∈ plugin.handlerList → r.uses c ≠ 1)) := by
      intro c m method
      rw [drops.methods, method]
      by_cases last : c ∈ plugin.handlerList ∧ r.uses c = 1 <;> simp_all
    have alone : r'.theList = [] ↔ r.theList = [plugin] := by
      rw [list, list']
      constructor
      · intro none
        obtain ⟨rfl, rfl⟩ := List.append_eq_nil_iff.1 none
        rfl
      · intro one
        have length := congrArg List.length one
        simp only [List.length_append, List.length_cons, List.length_nil] at length
        rw [List.length_eq_zero_iff.1 (by omega : before.length = 0), List.length_eq_zero_iff.1 (by omega : behind.length = 0)]
        rfl
    have bare : ∀ c, c ≠ names.vers → c ≠ names.help →
        (H.findMethod r'.methods c = none ↔ r.uses c = if c ∈ plugin.handlerList then 1 else 0) := by
      intro c vers help
      have after := (regular.drops list list' drops).wrapped c vers help
      have counted := regular.counted c
      rw [holders_split list] at counted
      rw [after, drops.uses]
      generalize (if c ∈ plugin.handlerList then 1 else 0) = k at counted ⊢
      by_cases left : 0 < r.uses c - k
      · rw [if_pos left]
        apply iff_of_false nofun
        omega
      · rw [if_neg left]
        apply iff_of_true rfl
        omega
    rw [run]
    constructor
    · rintro ⟨r₁, same, own'⟩ plugin' found'
      cases same
      cases found.symm.trans found'
      constructor
      · rintro c mem (rfl | rfl)
        · exact (kept _ _ own.version).1 own'.version mem
        · exact (kept _ _ own.help).1 own'.help mem
      · intro one c vers help
        rw [← bare c vers help, own'.bare (alone.2 one) c, create_others vers help]
    · intro gentle
      obtain ⟨lasts, leftovers⟩ := gentle plugin found
      have version := (kept _ _ own.version).2 (fun mem => lasts _ mem (.inl rfl))
      have help := (kept _ _ own.help).2 (fun mem => lasts _ mem (.inr rfl))
      refine ⟨r', rfl, version, help, ?_⟩
      intro none c
      by_cases vers' : c = names.vers
      · rw [vers', version, create_version]
      · by_cases help' : c = names.help
        · rw [help', help, create_help]
        · rw [create_others vers' help', bare c vers' help']
          exact leftovers (alone.1 none) c vers' help'

/-- **The methods of the constructor stay** in the table after every step of a run, and without
plugins they are its methods, if and only if every unload is gentle. -/
theorem own_methods_iff (H : BESRequestHandler T) (names : ResponseNames) (calls : List LoaderCall) :
    Throughout (fun c => after (load H c)) (Keeps H names) calls (create H names) ↔
      Throughout (fun c => after (load H c)) (Gentle names) calls (create H names) := by
  have agree : ∀ c r, Regular H names r ∧ OwnKept H names r →
      (Keeps H names c r (after (load H c) r) ↔ Gentle names c r (after (load H c) r)) := by
    intro c r h
    cases c with
    | initializeModule modname commands => exact iff_of_true (load_keeps modname commands h.2) trivial
    | terminateModule modname => exact unload_keeps modname h.1 h.2
  apply throughout_iff agree
  · intro c r r' h gentle run
    obtain ⟨r₁, run₁, regular⟩ := load_regular (H := H) c h.1
    obtain ⟨r₂, run₂, own⟩ := (agree c r h).2 gentle
    cases run₁.symm.trans run
    cases run₁.symm.trans run₂
    exact ⟨regular, own⟩
  · refine ⟨create_regular, create_version, create_help, ?_⟩
    intro _ c
    rfl

/-- Unloading the only plugin removes the method of the constructor for the version. -/
theorem version_taken :
    ¬ Throughout (fun c => after (load functionTable c)) (Keeps functionTable besNames)
      [.odbc besNames "odbc".toList, .terminateModule "odbc".toList] (create functionTable besNames) := by
  rintro ⟨-, later⟩
  obtain ⟨⟨r, run, own⟩, -⟩ := later _ rfl
  cases run
  exact absurd own.version (by decide)

end Registry

end SqlHandler
