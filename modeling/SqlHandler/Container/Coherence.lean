import SqlHandler.Container.Cache
import Mathlib.Tactic.Linarith

/-!
# Coherence of the cache

Whatever is written to the files meanwhile, a ready container in the storage holds the
sections of some version of its file and that version's modification time; the only way
to lose this is a modification between the `read()` and the `stat()` of a `setup()`. What
a request gets is then at most the tolerance of `isUpToDate` behind its file.
-/

namespace SqlHandler
open Posix

variable {σ : Type}

/-- No modification lands between the `read()` and the `stat()` of a `setup()`. -/
def World.Quiet (w : World σ) : Prop := ∀ tick ∈ w.inSetup, tick.edits = []

/-- The sections and the time of the container are those of a version of its file. -/
def SQLContainer.LoadedFrom (cls : ContainerClass σ) (disk : Disk) (c : SQLContainer σ) : Prop :=
  ∃ v ∈ disk c.realName, cls.read v.content = .ok (some c.sections) ∧ c.time = v.mtime

/-- The storage goes by real names and its ready containers come from versions of their files. -/
structure World.Sound (cls : ContainerClass σ) (w : World σ) : Prop where
  named : ∀ c ∈ w.store, c.symbolicName = c.realName
  loaded : ∀ c ∈ w.store, c.isReady = true → c.LoadedFrom cls w.disk

/-- Files only gain versions. -/
def Disk.Later (before after : Disk) : Prop := ∀ name, ∃ added, after name = added ++ before name

/-- What any step of a request keeps on a quiet schedule. -/
structure Evolves (cls : ContainerClass σ) (w w' : World σ) : Prop where
  later : w.disk.Later w'.disk
  quiet : w'.Quiet
  sound : w.Sound cls → w'.Sound cls

/-- How a call that starts in `w` may end. -/
def Spec {α : Type} (cls : ContainerClass σ) (w : World σ) (r : EStateM.Result Fault (World σ) α)
    (Q : α → World σ → Prop) : Prop :=
  match r with
  | .ok a w' => Evolves cls w w' ∧ Q a w'
  | .error _ w' => Evolves cls w w'

namespace Disk

theorem Later.refl (disk : Disk) : disk.Later disk := fun _ => ⟨[], rfl⟩

theorem Later.trans {first second third : Disk} (h₁ : first.Later second) (h₂ : second.Later third) :
    first.Later third := by
  intro name
  obtain ⟨added, old⟩ := h₁ name
  obtain ⟨more, new⟩ := h₂ name
  exact ⟨more ++ added, by rw [new, old, List.append_assoc]⟩

theorem Later.mem {before after : Disk} (later : before.Later after) {name : Str} {v : Version}
    (mem : v ∈ before name) : v ∈ after name := by
  obtain ⟨added, new⟩ := later name
  rw [new]
  exact List.mem_append_right _ mem

theorem modify_later (disk : Disk) (e : Edit) : disk.Later (disk.modify e) := by
  intro name
  unfold modify
  by_cases same : name = e.name
  · simp only [if_pos same]
    cases disk name with
    | nil => exact ⟨[e.version], rfl⟩
    | cons current old =>
      by_cases newer : current.mtime < e.version.mtime
      · exact ⟨[e.version], by simp [newer]⟩
      · exact ⟨[], by simp [newer]⟩
  · exact ⟨[], by simp [same]⟩

theorem modifyAll_later (disk : Disk) (edits : List Edit) : disk.Later (disk.modifyAll edits) := by
  induction edits generalizing disk with
  | nil => exact Later.refl disk
  | cons e rest ih => exact (modify_later disk e).trans (ih (disk.modify e))

end Disk

theorem SQLContainer.LoadedFrom.later {cls : ContainerClass σ} {before after : Disk} {c : SQLContainer σ}
    (loaded : c.LoadedFrom cls before) (later : before.Later after) : c.LoadedFrom cls after := by
  obtain ⟨v, mem, read, time⟩ := loaded
  exact ⟨v, later.mem mem, read, time⟩

namespace Evolves
variable {cls : ContainerClass σ} {w w' w'' : World σ}

theorem refl (quiet : w.Quiet) : Evolves cls w w := ⟨Disk.Later.refl _, quiet, id⟩

theorem trans (h₁ : Evolves cls w w') (h₂ : Evolves cls w' w'') : Evolves cls w w'' where
  later := h₁.later.trans h₂.later
  quiet := h₂.quiet
  sound := fun sound => h₂.sound (h₁.sound sound)

/-- Steps that leave the storage alone. -/
theorem of_store (later : w.disk.Later w'.disk) (quiet : w'.Quiet) (store : w'.store = w.store) :
    Evolves cls w w' := by
  refine ⟨later, quiet, fun sound => ⟨?_, ?_⟩⟩
  · rw [store]
    exact sound.named
  · rw [store]
    intro c mem ready
    exact (sound.loaded c mem ready).later later

theorem pass (quiet : w.Quiet) (tick : Tick) : Evolves cls w (w.pass tick) :=
  of_store (Disk.modifyAll_later _ _) quiet rfl

end Evolves

section Steps
variable {cls : ContainerClass σ} {α β : Type}

theorem Spec.bind {w : World σ} {x : Proc (World σ) α} {f : α → Proc (World σ) β} {P : α → World σ → Prop}
    {Q : β → World σ → Prop} (first : Spec cls w (x w) P)
    (second : ∀ a w', Evolves cls w w' → P a w' → Spec cls w' (f a w') Q) : Spec cls w ((x >>= f) w) Q := by
  cases run : x w with
  | ok a w' =>
    rw [run] at first
    rw [Proc.bind_ok run]
    have later := second a w' first.1 first.2
    cases rest : f a w' with
    | ok b w'' =>
      rw [rest] at later
      exact ⟨first.1.trans later.1, later.2⟩
    | error fault w'' =>
      rw [rest] at later
      exact first.1.trans later
  | error fault w' =>
    rw [run] at first
    rw [Proc.bind_error run]
    exact first

theorem Spec.mono {w : World σ} {r : EStateM.Result Fault (World σ) α} {P Q : α → World σ → Prop}
    (spec : Spec cls w r P) (weaker : ∀ a w', P a w' → Q a w') : Spec cls w r Q := by
  cases r with
  | ok a w' => exact ⟨spec.1, weaker a w' spec.2⟩
  | error fault w' => exact spec

theorem Spec.pure {w : World σ} (quiet : w.Quiet) {a : α} {Q : α → World σ → Prop} (h : Q a w) :
    Spec cls w ((Pure.pure a : Proc (World σ) α) w) Q := ⟨Evolves.refl quiet, h⟩

theorem Spec.raise {w : World σ} (quiet : w.Quiet) {Q : α → World σ → Prop} (kind : ErrorKind) (message : Str) :
    Spec cls w ((Proc.raise kind message : Proc (World σ) α) w) Q := Evolves.refl quiet

/-- An exception specification changes the fault that is left and nothing else. -/
theorem Spec.throwOnly {w : World σ} {x : Proc (World σ) α} {Q : α → World σ → Prop} (h : Spec cls w (x w) Q)
    (allowed : ErrorKind → Bool) : Spec cls w (x.throwOnly allowed w) Q := by
  unfold Proc.throwOnly
  cases run : x w with
  | ok a w' =>
    rw [run] at h
    exact h
  | error fault w' =>
    rw [run] at h
    exact h

theorem wait_spec {w : World σ} (quiet : w.Quiet) : Spec cls w (World.wait w) fun _ _ => True := by
  refine ⟨?_, trivial⟩
  unfold World.next
  cases ticks : w.schedule with
  | nil => exact Evolves.refl quiet
  | cons tick later =>
    have dropped : Evolves cls w { w with schedule := later } :=
      Evolves.of_store (Disk.Later.refl _) quiet rfl
    exact dropped.trans (Evolves.pass dropped.quiet tick)

/-- On a quiet schedule the files stay as they are between the `read()` and the `stat()`. -/
theorem waitInSetup_spec {w : World σ} (quiet : w.Quiet) :
    Spec cls w (World.waitInSetup w) fun _ w' => w'.disk = w.disk := by
  cases ticks : w.inSetup with
  | nil =>
    have still : World.waitInSetup w = .ok () w := by
      unfold World.waitInSetup
      rw [Proc.modify_run]
      simp only [ticks]
    rw [still]
    exact ⟨Evolves.refl quiet, rfl⟩
  | cons tick later =>
    have passes : World.waitInSetup w = .ok () ({ w with inSetup := later }.pass tick) := by
      unfold World.waitInSetup
      rw [Proc.modify_run]
      simp only [ticks]
    have dropped : Evolves cls w { w with inSetup := later } := by
      refine Evolves.of_store (Disk.Later.refl _) (fun t mem => quiet t ?_) rfl
      rw [ticks]
      exact List.mem_cons_of_mem _ mem
    rw [passes]
    refine ⟨dropped.trans (Evolves.pass dropped.quiet tick), ?_⟩
    have none : tick.edits = [] := quiet tick (by rw [ticks]; exact List.mem_cons_self)
    show w.disk.modifyAll tick.edits = w.disk
    rw [none]
    rfl

/-- Within the tolerance of the version that is current now. -/
def World.UpToDate (w : World σ) (c : SQLContainer σ) : Prop :=
  ∃ u, (w.disk c.realName).head? = some u ∧ |c.time - u.mtime| < contTimeDif

theorem isUpToDate_spec (c : SQLContainer σ) {w : World σ} (quiet : w.Quiet) :
    Spec cls w (c.isUpToDate w) fun fresh w' => fresh = true → w'.UpToDate c := by
  apply (wait_spec quiet).bind
  intro _ w' evolved _
  have stat : World.stat c.realName w' = .ok ((w'.disk c.realName).head?.map Version.mtime) w' := rfl
  rw [Proc.bind_ok stat]
  cases current : (w'.disk c.realName).head? with
  | none => exact ⟨Evolves.refl evolved.quiet, nofun⟩
  | some u =>
    refine ⟨Evolves.refl evolved.quiet, fun fresh => ⟨u, current, ?_⟩⟩
    simpa using fresh

/-- A copy is ready only if the original was and is up to date now. -/
theorem ptrDuplicate_spec (c : SQLContainer σ) {w : World σ} (quiet : w.Quiet) :
    Spec cls w (c.ptrDuplicate w) fun copy w' =>
      copy = { c with isReady := copy.isReady } ∧ (copy.isReady = true → c.isReady = true ∧ w'.UpToDate c) := by
  unfold SQLContainer.ptrDuplicate
  by_cases ready : c.isReady = true
  · rw [if_pos ready]
    apply (isUpToDate_spec c quiet).bind
    intro fresh w' evolved upToDate
    exact Spec.pure evolved.quiet ⟨rfl, fun yes => ⟨ready, upToDate yes⟩⟩
  · rw [if_neg ready]
    exact Spec.pure quiet ⟨rfl, fun yes => absurd yes ready⟩

theorem init_run (c : SQLContainer σ) (w : World σ) :
    c.init w = .ok { c with time := ((w.disk c.realName).head?.map Version.mtime).getD w.clock } w := by
  have stat : World.stat c.realName w = .ok ((w.disk c.realName).head?.map Version.mtime) w := rfl
  unfold SQLContainer.init
  rw [Proc.bind_ok stat]
  cases (w.disk c.realName).head? <;> rfl

/-- Loaded from the version that is current now. -/
def World.Current (cls : ContainerClass σ) (w : World σ) (c : SQLContainer σ) : Prop :=
  ∃ v, (w.disk c.realName).head? = some v ∧ cls.read v.content = .ok (some c.sections) ∧ c.time = v.mtime

theorem setup_spec (c : SQLContainer σ) {w : World σ} (quiet : w.Quiet) :
    Spec cls w (c.setup cls w) fun c' w' =>
      c'.symbolicName = c.symbolicName ∧ c'.realName = c.realName ∧ (c'.isReady = true → w'.Current cls c') := by
  apply (wait_spec quiet).bind
  intro _ w₁ evolved _
  rw [Proc.bind_ok (rfl : (get : Proc (World σ) _) w₁ = .ok w₁ w₁)]
  cases current : (w₁.disk c.realName).head? with
  | none => exact Evolves.refl evolved.quiet
  | some v =>
    dsimp only
    cases read : cls.read v.content with
    | error fault => exact Evolves.refl evolved.quiet
    | ok answer =>
      cases answer with
      | none => exact ⟨Evolves.refl evolved.quiet, rfl, rfl, nofun⟩
      | some sections =>
        apply (waitInSetup_spec evolved.quiet).bind
        intro _ w₂ evolved₂ still
        rw [Proc.bind_ok (init_run _ w₂)]
        refine ⟨Evolves.refl evolved₂.quiet, rfl, rfl, fun _ => ?_⟩
        have same : (w₂.disk c.realName).head? = some v := by
          rw [still, current]
        refine ⟨v, same, read, ?_⟩
        show ((w₂.disk c.realName).head?.map Version.mtime).getD w₂.clock = v.mtime
        rw [same]
        rfl

/-- Storing a container under its real name. -/
theorem store_evolves {w w' : World σ} {c : SQLContainer σ} (disk : w'.disk = w.disk) (quiet : w'.Quiet)
    (store : ∀ x ∈ w'.store, x = c ∨ x ∈ w.store) (named : c.symbolicName = c.realName)
    (loaded : c.isReady = true → c.LoadedFrom cls w.disk) : Evolves cls w w' where
  later := by
    rw [disk]
    exact Disk.Later.refl _
  quiet := quiet
  sound := by
    intro sound
    constructor
    · intro x mem
      rcases store x mem with rfl | old
      · exact named
      · exact sound.named x old
    · intro x mem ready
      rw [disk]
      rcases store x mem with rfl | old
      · exact loaded ready
      · exact sound.loaded x old ready

theorem addContainer_spec {c : SQLContainer σ} {w : World σ} (quiet : w.Quiet)
    (named : c.symbolicName = c.realName) (loaded : c.isReady = true → c.LoadedFrom cls w.disk) :
    Spec cls w (World.addContainer c w) fun _ w' => w'.disk = w.disk := by
  have stored : ∀ x ∈ c :: w.store, x = c ∨ x ∈ w.store := fun x mem => List.mem_cons.1 mem
  exact ⟨store_evolves rfl quiet stored named loaded, rfl⟩

theorem update_spec {c : SQLContainer σ} {w : World σ} (quiet : w.Quiet)
    (named : c.symbolicName = c.realName) (loaded : c.isReady = true → c.LoadedFrom cls w.disk) :
    Spec cls w (SQLContainerStorageVolatile.update c w) fun _ w' => w'.disk = w.disk := by
  have stored : ∀ x ∈ c :: w.store.filter (fun x => x.symbolicName ≠ c.symbolicName), x = c ∨ x ∈ w.store := by
    intro x mem
    rcases List.mem_cons.1 mem with rfl | rest
    · exact .inl rfl
    · exact .inr (List.mem_filter.1 rest).1
  exact ⟨store_evolves rfl quiet stored named loaded, rfl⟩

theorem World.Current.loaded {w : World σ} {c : SQLContainer σ} (current : w.Current cls c) :
    c.LoadedFrom cls w.disk := by
  obtain ⟨v, head, read, time⟩ := current
  exact ⟨v, List.mem_of_mem_head? head, read, time⟩

end Steps

/-! ## What a request gets -/

/-- A version that is current at some moment between two states of the disk. -/
def Disk.Shows (before after : Disk) (name : Str) (u : Version) : Prop :=
  ∃ during : Disk, before.Later during ∧ during.Later after ∧ (during name).head? = some u

/-- The sections are those of a version no more than the tolerance away from a version
that is current during the request. -/
def Coherent (cls : ContainerClass σ) (before after : Disk) (c : SQLContainer σ) : Prop :=
  ∃ v ∈ after c.realName, cls.read v.content = .ok (some c.sections) ∧
    ∃ u, before.Shows after c.realName u ∧ |v.mtime - u.mtime| < contTimeDif

/-- A container handed out to a request. -/
structure Handed (cls : ContainerClass σ) (before after : Disk) (c : SQLContainer σ) : Prop where
  named : c.symbolicName = c.realName
  ready : c.isReady = true
  coherent : Coherent cls before after c

section Requests
variable {cls : ContainerClass σ}

/-- A copy that is up to date now, of a container that was loaded. -/
theorem coherent_of_upToDate {before after : Disk} {w : World σ} {c : SQLContainer σ} (start : before.Later w.disk)
    (later : w.disk.Later after) (loaded : c.LoadedFrom cls w.disk) (fresh : w.UpToDate c) :
    Coherent cls before after c := by
  obtain ⟨v, mem, read, time⟩ := loaded
  obtain ⟨u, head, near⟩ := fresh
  rw [time] at near
  exact ⟨v, later.mem mem, read, u, ⟨w.disk, start, later, head⟩, near⟩

/-- A container that has just been set up. -/
theorem coherent_of_current {before after : Disk} {w : World σ} {c : SQLContainer σ} (start : before.Later w.disk)
    (later : w.disk.Later after) (current : w.Current cls c) : Coherent cls before after c := by
  obtain ⟨v, head, read, time⟩ := current
  refine ⟨v, later.mem (List.mem_of_mem_head? head), read, v, ⟨w.disk, start, later, head⟩, ?_⟩
  rw [sub_self, abs_zero]
  decide

/-- Setting a container up again and replacing the stored copy. -/
theorem rebuild_spec {c : SQLContainer σ} {w : World σ} (quiet : w.Quiet) (named : c.symbolicName = c.realName)
    (message : Str) :
    Spec cls w ((do
      let c ← c.setup cls
      if c.isReady then do
        let copy ← c.ptrDuplicate
        let _ ← SQLContainerStorageVolatile.update copy
        return some c
      else Proc.raise .besInternalError message : Proc (World σ) (Option (SQLContainer σ))) w)
      fun answer w' => ∀ c', answer = some c' → Handed cls w.disk w'.disk c' := by
  apply (setup_spec c quiet).bind
  intro c₁ w₁ evolved₁ ⟨symbolic, real, current⟩
  have named₁ : c₁.symbolicName = c₁.realName := by rw [symbolic, real, named]
  by_cases ready : c₁.isReady = true
  · rw [if_pos ready]
    apply (ptrDuplicate_spec c₁ evolved₁.quiet).bind
    intro copy w₂ evolved₂ ⟨same, fresh⟩
    have copied : copy.isReady = true → copy.LoadedFrom cls w₂.disk := by
      intro yes
      have loaded := (current ready).loaded.later evolved₂.later
      rw [same]
      exact loaded
    have namedCopy : copy.symbolicName = copy.realName := by
      rw [same]
      exact named₁
    apply (update_spec evolved₂.quiet namedCopy copied).bind
    intro _ w₃ evolved₃ _
    apply Spec.pure evolved₃.quiet
    intro c' answer
    cases answer
    exact ⟨named₁, ready,
      coherent_of_current evolved₁.later (evolved₂.later.trans evolved₃.later) (current ready)⟩
  · rw [if_neg ready]
    exact Spec.raise evolved₁.quiet _ _

theorem Handed.from {before during after : Disk} {c : SQLContainer σ} (handed : Handed cls during after c)
    (start : before.Later during) : Handed cls before after c := by
  obtain ⟨named, ready, v, mem, read, u, ⟨disk, first, last, head⟩, near⟩ := handed
  exact ⟨named, ready, v, mem, read, u, ⟨disk, start.trans first, last, head⟩, near⟩

theorem besLookFor_spec {w : World σ} (quiet : w.Quiet) (name : Str) :
    Spec cls w (SQLContainerStorageVolatile.besLookFor name w) fun answer w' =>
      ∀ copy, answer = some copy → ∃ c ∈ w.store, copy = { c with isReady := copy.isReady } ∧
        (copy.isReady = true → c.isReady = true ∧ w'.UpToDate c) := by
  have got : (get : Proc (World σ) _) w = .ok w w := rfl
  unfold SQLContainerStorageVolatile.besLookFor
  rw [Proc.bind_ok got]
  cases found : w.store.find? fun c => c.symbolicName = name with
  | none => exact Spec.pure quiet nofun
  | some c =>
    apply (ptrDuplicate_spec c quiet).bind
    intro copy w₁ evolved₁ kept
    apply Spec.pure evolved₁.quiet
    intro copy' answer
    cases answer
    exact ⟨c, List.mem_of_find?_eq_some found, kept⟩

theorem lookFor_spec {w : World σ} (quiet : w.Quiet) (sound : w.Sound cls) (name : Str) :
    Spec cls w (SQLContainerStorageVolatile.lookFor cls name w) fun answer w' =>
      ∀ c', answer = some c' → Handed cls w.disk w'.disk c' := by
  apply (besLookFor_spec quiet name).bind
  intro answer w₁ evolved₁ kept
  cases answer with
  | none => exact Spec.pure evolved₁.quiet nofun
  | some copy =>
    obtain ⟨c, mem, same, fresh⟩ := kept copy rfl
    have named : copy.symbolicName = copy.realName := by
      rw [same]
      exact sound.named c mem
    dsimp only
    by_cases ready : copy.isReady = true
    · rw [if_pos ready]
      apply Spec.pure evolved₁.quiet
      intro c' answer
      cases answer
      obtain ⟨was, upToDate⟩ := fresh ready
      have loaded : copy.LoadedFrom cls w₁.disk := by
        rw [same]
        exact (sound.loaded c mem was).later evolved₁.later
      have now : w₁.UpToDate copy := by
        rw [same]
        exact upToDate
      exact ⟨named, ready, coherent_of_upToDate evolved₁.later (Disk.Later.refl _) loaded now⟩
    · rw [if_neg ready]
      apply (rebuild_spec evolved₁.quiet named _).mono
      intro answer w' handed c' found
      exact (handed c' found).from evolved₁.later

/-- A container built from scratch. -/
theorem buildContainer_spec {w : World σ} (quiet : w.Quiet)
    (symbolicName realName containerType attributes constraint : Str) :
    Spec cls w (SQLContainerFactory.buildContainer cls symbolicName realName containerType attributes constraint w)
      fun c w' => c.symbolicName = c.realName ∧ c.isReady = true ∧ w'.Current cls c := by
  have selected : Spec cls w (SQLContainerFactory.selectContainer cls realName realName containerType w)
      fun c w' => c.symbolicName = c.realName ∧ c.isReady = true ∧ w'.Current cls c := by
    apply (setup_spec _ quiet).bind
    intro c w₁ evolved₁ ⟨symbolic, real, current⟩
    by_cases ready : c.isReady = true
    · rw [if_pos ready]
      exact Spec.pure evolved₁.quiet ⟨symbolic.trans real.symm, ready, current ready⟩
    · rw [if_neg ready]
      exact Spec.raise evolved₁.quiet _ _
  refine Spec.throwOnly ?_ besInternalErrorOnly
  apply selected.bind
  intro c w₁ evolved₁ ⟨named, ready, current⟩
  dsimp only
  rw [if_pos ready]
  exact Spec.pure evolved₁.quiet ⟨named, ready, current⟩

theorem addBuilt_spec {w : World σ} (quiet : w.Quiet)
    (symbolicName realName containerType attributes constraint : Str) :
    Spec cls w (SQLContainerFactory.addBuilt cls symbolicName realName containerType attributes constraint w)
      fun c w' => Handed cls w.disk w'.disk c := by
  have tried : Spec cls w ((do
      let c ← SQLContainerFactory.buildContainer cls symbolicName realName containerType attributes constraint
      let copy ← c.ptrDuplicate
      World.addContainer copy
      return c : Proc (World σ) (SQLContainer σ)) w) fun c w' => Handed cls w.disk w'.disk c := by
    apply (buildContainer_spec quiet _ _ _ _ _).bind
    intro c w₁ evolved₁ ⟨named, ready, current⟩
    apply (ptrDuplicate_spec c evolved₁.quiet).bind
    intro copy w₂ evolved₂ ⟨same, _⟩
    have copied : copy.isReady = true → copy.LoadedFrom cls w₂.disk := by
      intro _
      have loaded := current.loaded.later evolved₂.later
      rw [same]
      exact loaded
    have namedCopy : copy.symbolicName = copy.realName := by
      rw [same]
      exact named
    apply (addContainer_spec evolved₂.quiet namedCopy copied).bind
    intro _ w₃ evolved₃ _
    exact Spec.pure evolved₃.quiet
      ⟨named, ready, coherent_of_current evolved₁.later (evolved₂.later.trans evolved₃.later) current⟩
  unfold SQLContainerFactory.addBuilt
  revert tried
  cases (do
      let c ← SQLContainerFactory.buildContainer cls symbolicName realName containerType attributes constraint
      let copy ← c.ptrDuplicate
      World.addContainer copy
      return c : Proc (World σ) (SQLContainer σ)) w with
  | ok c w' => exact id
  | error fault w' => exact id

/-- A request with a ready container of the handler's own. -/
def OwnReady (request : Option (BESContainer σ)) : Prop :=
  ∃ c named, request = some (.sql c named) ∧ c.isReady = true

theorem getContainer_spec {w : World σ} (quiet : w.Quiet) (sound : w.Sound cls)
    (request : Option (BESContainer σ)) :
    Spec cls w (SQLContainerFactory.getContainer cls request w) fun answer w' =>
      ¬ OwnReady request → ∀ c, answer = some c → Handed cls w.disk w'.disk c := by
  cases request with
  | none => exact Spec.pure quiet fun _ => nofun
  | some container =>
    cases container with
    | sql c named =>
      unfold SQLContainerFactory.getContainer
      dsimp only
      by_cases ready : c.isReady = true
      · rw [if_pos ready]
        exact Spec.pure quiet fun notOwn => absurd ⟨c, named, rfl, ready⟩ notOwn
      · rw [if_neg ready]
        exact (rebuild_spec quiet named _).mono fun answer w' handed _ => handed
    | plain symbolicName realName containerType attributes constraint =>
      apply (lookFor_spec quiet sound _).bind
      intro answer w₁ evolved₁ handed
      cases answer with
      | some c =>
        apply Spec.pure evolved₁.quiet
        intro _ c' found
        cases found
        obtain ⟨named, ready, coherent⟩ := handed c rfl
        exact ⟨named, ready, coherent⟩
      | none =>
        apply (addBuilt_spec evolved₁.quiet _ _ _ _ _).bind
        intro c w₂ evolved₂ built
        apply Spec.pure evolved₂.quiet
        intro _ c' found
        cases found
        exact built.from evolved₁.later

end Requests

/-! ## Runs of a server -/

/-- The worlds a server gets to by requests, answered or failing, and modifications between them.
A request that ends the process is the last one. -/
inductive Reaches (cls : ContainerClass σ) (w₀ : World σ) : World σ → Prop where
  | start : Reaches cls w₀ w₀
  | modified {w : World σ} (tick : Tick) (reach : Reaches cls w₀ w) : Reaches cls w₀ (w.pass tick)
  | answered {w w' : World σ} {request : Option (BESContainer σ)} {answer : Option (SQLContainer σ)}
      (reach : Reaches cls w₀ w) (run : SQLContainerFactory.getContainer cls request w = .ok answer w') :
      Reaches cls w₀ w'
  | failed {w w' : World σ} {request : Option (BESContainer σ)} {fault : Fault}
      (reach : Reaches cls w₀ w) (run : SQLContainerFactory.getContainer cls request w = .error fault w')
      (goesOn : fault ≠ .terminated) : Reaches cls w₀ w'

section Runs
variable {cls : ContainerClass σ} {w₀ w w' : World σ}

theorem Reaches.sound (reach : Reaches cls w₀ w) (quiet : w₀.Quiet) (empty : w₀.store = []) :
    w.Quiet ∧ w.Sound cls := by
  induction reach with
  | start =>
    refine ⟨quiet, ?_, ?_⟩
    · rw [empty]
      exact nofun
    · rw [empty]
      exact nofun
  | modified tick _ ih =>
    have evolved : Evolves cls _ _ := Evolves.pass ih.1 tick
    exact ⟨evolved.quiet, evolved.sound ih.2⟩
  | @answered w w' request answer _ run ih =>
    have spec := getContainer_spec ih.1 ih.2 request
    rw [run] at spec
    exact ⟨spec.1.quiet, spec.1.sound ih.2⟩
  | @failed w w' request fault _ run _ ih =>
    have spec := getContainer_spec ih.1 ih.2 request
    rw [run] at spec
    exact ⟨spec.quiet, spec.sound ih.2⟩

/-- In every run in which no modification lands within a `setup()`, a container that a
request gets is ready and, unless the request brought it along ready, holds the sections
of a version within the tolerance of one that is current during the request. -/
theorem served_coherent {request : Option (BESContainer σ)} {c : SQLContainer σ} (quiet : w₀.Quiet)
    (empty : w₀.store = []) (reach : Reaches cls w₀ w) (notOwn : ¬ OwnReady request)
    (served : SQLContainerFactory.getContainer cls request w = .ok (some c) w') :
    c.isReady = true ∧ Coherent cls w.disk w'.disk c := by
  obtain ⟨still, sound⟩ := reach.sound quiet empty
  have spec := getContainer_spec still sound request
  rw [served] at spec
  have handed := spec.2 notOwn c rfl
  exact ⟨handed.ready, handed.coherent⟩

/-- The sections are those of a version current during the request. -/
def Fresh (cls : ContainerClass σ) (before after : Disk) (c : SQLContainer σ) : Prop :=
  ∃ u, before.Shows after c.realName u ∧ cls.read u.content = .ok (some c.sections)

/-- Where the versions of a file are as far apart as the tolerance, coherent is fresh. -/
theorem Coherent.fresh {before after : Disk} {c : SQLContainer σ} (coherent : Coherent cls before after c)
    (apart : ∀ v ∈ after c.realName, ∀ u ∈ after c.realName, |v.mtime - u.mtime| < contTimeDif → v = u) :
    Fresh cls before after c := by
  obtain ⟨v, mem, read, u, shows, near⟩ := coherent
  obtain ⟨during, first, last, head⟩ := shows
  have there : u ∈ after c.realName := last.mem (List.mem_of_mem_head? head)
  have same := apart v mem u there near
  rw [same] at read
  exact ⟨u, ⟨during, first, last, head⟩, read⟩

theorem Disk.Shows.head {disk : Disk} {name : Str} {u : Version} (shows : disk.Shows disk name u) :
    (disk name).head? = some u := by
  obtain ⟨during, first, last, head⟩ := shows
  obtain ⟨added, new⟩ := first name
  obtain ⟨more, old⟩ := last name
  have lengths := congrArg List.length old
  rw [new, List.length_append, List.length_append] at lengths
  have none : added = [] := List.length_eq_zero_iff.1 (by omega)
  rw [new, none] at head
  exact head

end Runs

/-! ## Two edits close together -/

/-- A class whose sections are the text itself. -/
def textClass : ContainerClass Str := ⟨fun text => .ok (some [text]), none⟩

/-- One file, nothing stored, nothing scheduled. -/
def oneFile : World Str :=
  { disk := fun name => if name = "a.sql".toList then [⟨['a'], 0⟩] else []
    store := []
    schedule := []
    inSetup := []
    clock := 0 }

/-- A request for that file. -/
def oneRequest : Option (BESContainer Str) := some (.plain ['a'] "a.sql".toList ['s'] [] [])

/-- A modification of it that many seconds later. -/
def editAt (mtime : Int) : Tick := ⟨[⟨"a.sql".toList, ⟨['b'], mtime⟩⟩], mtime⟩

/-- The container the first request gets. -/
def held : SQLContainer Str := ⟨"a.sql".toList, "a.sql".toList, ['s'], [], [], [['a']], 0, true⟩

/-- The world it leaves. -/
def stored : World Str := { oneFile with store := [held] }

theorem first_request : SQLContainerFactory.getContainer textClass oneRequest oneFile = .ok (some held) stored := rfl

theorem once_coherent : held.isReady = true ∧ Coherent textClass oneFile.disk stored.disk held := by
  have quiet : oneFile.Quiet := fun tick mem => absurd mem List.not_mem_nil
  have notOwn : ¬ OwnReady oneRequest := by
    rintro ⟨c, named, own, -⟩
    cases own
  exact served_coherent quiet rfl .start notOwn first_request

/-- The world after the first request and a modification. -/
def edited (mtime : Int) : World Str := stored.pass (editAt mtime)

theorem edited_reached (mtime : Int) : Reaches textClass oneFile (edited mtime) :=
  .modified (editAt mtime) (.answered .start first_request)

/-- Once the file holds another text, what the first request got is not fresh. -/
theorem held_not_fresh {disk : Disk} (newer : (disk held.realName).head?.map Version.content = some ['b']) :
    ¬ Fresh textClass disk disk held := by
  rintro ⟨u, shows, read⟩
  rw [shows.head] at newer
  have content : u.content = ['b'] := Option.some.inj newer
  rw [content] at read
  exact absurd read (by decide)

/-- A modification five seconds after the first is not noticed, and a ready container that
a request brings along is not looked at. -/
theorem served_stale :
    (∃ w c w', Reaches textClass oneFile w ∧
      SQLContainerFactory.getContainer textClass oneRequest w = .ok (some c) w' ∧ c.isReady = true ∧
        ¬ Fresh textClass w.disk w'.disk c) ∧
    ∃ w c named w', Reaches textClass oneFile w ∧
      SQLContainerFactory.getContainer textClass (some (.sql c named)) w = .ok (some c) w' ∧ c.isReady = true ∧
        ¬ Fresh textClass w.disk w'.disk c := by
  constructor
  · exact ⟨edited 5, held, edited 5, edited_reached 5, rfl, rfl, held_not_fresh rfl⟩
  · exact ⟨edited 60, held, rfl, edited 60, edited_reached 60, rfl, rfl, held_not_fresh rfl⟩

end SqlHandler
