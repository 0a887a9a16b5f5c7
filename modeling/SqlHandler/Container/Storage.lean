import SqlHandler.Container.Coherence

/-!
# The storage is a map

A request reads files, copies containers and sets them up, and none of that touches the storage. In
the end it may put one container there, under the name it goes by. So the storage never has two
containers of a name, a request leaves what is stored under other names as it is, and one that
fails leaves everything (`storage_map`). The first request for a dataset whose text `read()` rejects
by anything but a `BESInternalError` is the last one of the process.
-/

namespace SqlHandler
open Posix

variable {σ α β : Type}

/-! ## Calls that leave the storage -/

/-- A call that leaves the storage as it is, and what it answers. -/
def Leaves (x : Proc (World σ) α) (Q : α → Prop) : Prop :=
  ∀ w, match x w with
    | .ok a w' => w'.store = w.store ∧ Q a
    | .error _ w' => w'.store = w.store

namespace Leaves
variable {x : Proc (World σ) α} {P Q : α → Prop} {R : β → Prop}

theorem ok (h : Leaves x Q) {w w' : World σ} {a : α} (run : x w = .ok a w') : w'.store = w.store ∧ Q a := by
  have here := h w
  rwa [run] at here

theorem error (h : Leaves x Q) {w w' : World σ} {fault : Fault} (run : x w = .error fault w') : w'.store = w.store := by
  have here := h w
  rwa [run] at here

theorem bind {f : α → Proc (World σ) β} (h : Leaves x Q) (next : ∀ a, Q a → Leaves (f a) R) : Leaves (x >>= f) R := by
  intro w
  cases run : x w with
  | error fault w₁ =>
    rw [Proc.bind_error run]
    exact h.error run
  | ok a w₁ =>
    rw [Proc.bind_ok run]
    obtain ⟨same, answer⟩ := h.ok run
    have behind := next a answer w₁
    split <;> rename_i last <;> rw [last] at behind
    · exact ⟨behind.1.trans same, behind.2⟩
    · exact behind.trans same

theorem pure {a : α} (h : Q a) : Leaves (pure a : Proc (World σ) α) Q := fun _ => ⟨rfl, h⟩

theorem raise (kind : ErrorKind) (message : Str) : Leaves (Proc.raise kind message : Proc (World σ) α) Q := fun _ => rfl

theorem throw (fault : Fault) : Leaves (throw fault : Proc (World σ) α) Q := fun _ => rfl

/-- An exception specification changes the fault that is left and nothing else. -/
theorem throwOnly (h : Leaves x Q) (allowed : ErrorKind → Bool) : Leaves (x.throwOnly allowed) Q := by
  intro w
  have here := h w
  unfold Proc.throwOnly
  cases run : x w with
  | ok a w' =>
    rw [run] at here
    exact here
  | error fault w' =>
    rw [run] at here
    exact here

theorem get : Leaves (get : Proc (World σ) (World σ)) fun _ => True := fun _ => ⟨rfl, trivial⟩

end Leaves

namespace World

theorem leaves_wait : Leaves (wait : Proc (World σ) Unit) fun _ => True := by
  intro w
  unfold wait
  rw [Proc.modify_run]
  refine ⟨?_, trivial⟩
  unfold next
  split <;> rfl

theorem leaves_waitInSetup : Leaves (waitInSetup : Proc (World σ) Unit) fun _ => True := by
  intro w
  unfold waitInSetup
  rw [Proc.modify_run]
  refine ⟨?_, trivial⟩
  split <;> rfl

theorem leaves_stat (name : Str) : Leaves (stat name : Proc (World σ) (Option Int)) fun _ => True :=
  Leaves.get.bind fun _ _ => .pure trivial

end World

namespace SQLContainer
variable {cls : ContainerClass σ}

/-- The names of a container, and what the request gave it. -/
structure SameRequest (c c' : SQLContainer σ) : Prop where
  symbolicName : c'.symbolicName = c.symbolicName
  attributes : c'.attributes = c.attributes
  constraint : c'.constraint = c.constraint

theorem SameRequest.refl (c : SQLContainer σ) : SameRequest c c := ⟨rfl, rfl, rfl⟩

theorem leaves_isUpToDate (c : SQLContainer σ) : Leaves (isUpToDate c) fun _ => True := by
  refine World.leaves_wait.bind fun _ _ => (World.leaves_stat _).bind fun mtime _ => ?_
  cases mtime <;> exact .pure trivial

theorem leaves_init (c : SQLContainer σ) : Leaves (init c) (SameRequest c) := by
  refine (World.leaves_stat _).bind fun mtime _ => ?_
  cases mtime with
  | some mtime => exact .pure ⟨rfl, rfl, rfl⟩
  | none => exact Leaves.get.bind fun w _ => .pure ⟨rfl, rfl, rfl⟩

theorem leaves_setup (c : SQLContainer σ) : Leaves (setup cls c) (SameRequest c) := by
  refine World.leaves_wait.bind fun _ _ => Leaves.get.bind fun w _ => ?_
  cases (w.disk c.realName).head? with
  | none => exact .raise _ _
  | some current =>
    simp only
    cases cls.read current.content with
    | error fault => exact .throw _
    | ok answer =>
      cases answer with
      | none => exact .pure ⟨rfl, rfl, rfl⟩
      | some sections =>
        refine World.leaves_waitInSetup.bind fun _ _ => (leaves_init _).bind fun c' same => .pure ?_
        exact ⟨same.symbolicName, same.attributes, same.constraint⟩

theorem leaves_ptrDuplicate (c : SQLContainer σ) : Leaves (ptrDuplicate c) (SameRequest c) := by
  unfold ptrDuplicate
  split
  · exact (leaves_isUpToDate c).bind fun _ _ => .pure ⟨rfl, rfl, rfl⟩
  · exact .pure (.refl c)

end SQLContainer

/-! ## Requests -/

/-- The name a request is stored under. -/
def BESContainer.key : BESContainer σ → Str
  | .plain symbolicName realName containerType _ _ => SQLContainerFactory.getName symbolicName realName containerType
  | .sql c _ => c.symbolicName

/-- The container goes by the name of the request, and has its attributes and its constraint. -/
def BESContainer.Carried : BESContainer σ → SQLContainer σ → Prop
  | .plain symbolicName realName containerType attributes constraint, c =>
    c.symbolicName = SQLContainerFactory.getName symbolicName realName containerType ∧ c.attributes = attributes ∧ c.constraint = constraint
  | .sql c _, c' => SQLContainer.SameRequest c c'

namespace World

/-- Nothing was stored, or one container in the place of what stood under its name. -/
def Stores (name : Str) (w w' : World σ) : Prop :=
  w'.store = w.store ∨ ∃ copy : SQLContainer σ, copy.symbolicName = name ∧
    w'.store = copy :: w.store.filter fun c => c.symbolicName ≠ name

/-- What is stored under a name. -/
def stored (w : World σ) (name : Str) : Option (SQLContainer σ) := w.store.find? fun c => c.symbolicName = name

/-- The names in the storage. -/
def names (w : World σ) : List Str := w.store.map SQLContainer.symbolicName

theorem Stores.trans_same {name : Str} {w w₁ w' : World σ} (same : w₁.store = w.store) (h : Stores name w₁ w') : Stores name w w' := by
  unfold Stores at h
  rwa [same] at h

/-- Other names keep what they have. -/
theorem Stores.others {name other : Str} {w w' : World σ} (h : Stores name w w') (ne : other ≠ name) : w'.stored other = w.stored other := by
  unfold stored
  rcases h with same | ⟨copy, named, store⟩
  · rw [same]
  · rw [store, List.find?_cons_of_neg (by simpa [named] using Ne.symm ne)]
    generalize w.store = store
    induction store with
    | nil => rfl
    | cons c store ih =>
      by_cases mine : c.symbolicName = name
      · rw [List.filter_cons_of_neg (by simpa using mine), List.find?_cons_of_neg (by simpa [mine] using Ne.symm ne), ih]
      · rw [List.filter_cons_of_pos (by simpa using mine)]
        by_cases found : c.symbolicName = other
        · rw [List.find?_cons_of_pos (by simpa using found), List.find?_cons_of_pos (by simpa using found)]
        · rw [List.find?_cons_of_neg (by simpa using found), List.find?_cons_of_neg (by simpa using found), ih]

/-- A name is not stored twice. -/
theorem Stores.nodup {name : Str} {w w' : World σ} (h : Stores name w w') (nodup : w.names.Nodup) : w'.names.Nodup := by
  unfold names at nodup ⊢
  rcases h with same | ⟨copy, named, store⟩
  · rwa [same]
  · rw [store, List.map_cons, List.nodup_cons]
    constructor
    · intro mem
      obtain ⟨c, inStore, same⟩ := List.mem_map.1 mem
      have other := (List.mem_filter.1 inStore).2
      rw [same, named] at other
      simp at other
    · exact nodup.sublist (List.filter_sublist.map _)

end World

/-- A call that stores at most one container, under that name, and fails without that. -/
def StoresOnly (name : Str) (x : Proc (World σ) α) (Q : α → Prop) : Prop :=
  ∀ w, match x w with
    | .ok a w' => World.Stores name w w' ∧ Q a
    | .error _ w' => w'.store = w.store

namespace StoresOnly
variable {name : Str} {P Q : α → Prop} {R : β → Prop}

/-- Calls that leave the storage come first. -/
theorem behind {x : Proc (World σ) α} {f : α → Proc (World σ) β} (h : Leaves x Q) (next : ∀ a, Q a → StoresOnly name (f a) R) :
    StoresOnly name (x >>= f) R := by
  intro w
  cases run : x w with
  | error fault w₁ =>
    rw [Proc.bind_error run]
    exact h.error run
  | ok a w₁ =>
    rw [Proc.bind_ok run]
    obtain ⟨same, answer⟩ := h.ok run
    have after := next a answer w₁
    split <;> rename_i last <;> rw [last] at after
    · exact ⟨after.1.trans_same same, after.2⟩
    · exact after.trans same

theorem mono {x : Proc (World σ) α} (h : StoresOnly name x P) (weaker : ∀ a, P a → Q a) : StoresOnly name x Q := by
  intro w
  have here := h w
  split <;> rename_i run <;> rw [run] at here
  · exact ⟨here.1, weaker _ here.2⟩
  · exact here

theorem of_leaves {x : Proc (World σ) α} (h : Leaves x Q) : StoresOnly name x Q := by
  intro w
  have here := h w
  split <;> rename_i run <;> rw [run] at here
  · exact ⟨.inl here.1, here.2⟩
  · exact here

end StoresOnly

namespace SQLContainerStorageVolatile
open World SQLContainer

theorem update_run (c : SQLContainer σ) (w : World σ) : ∃ b, update c w =
    .ok b { w with store := c :: w.store.filter fun c' => c'.symbolicName ≠ c.symbolicName } := ⟨_, rfl⟩

end SQLContainerStorageVolatile

namespace SQLContainerFactory
variable {cls : ContainerClass σ}
open World SQLContainer SQLContainerStorageVolatile

/-- A container set up again takes the place of the one stored. -/
theorem rebuild_stores (c : SQLContainer σ) (kind : ErrorKind) (message : Str) :
    StoresOnly c.symbolicName (do
      let c ← setup cls c
      if c.isReady then do
        let copy ← ptrDuplicate c
        let _ ← update copy
        return some c
      else Proc.raise kind message : Proc (World σ) (Option (SQLContainer σ))) fun answer => ∃ c', answer = some c' ∧ SameRequest c c' := by
  refine StoresOnly.behind (leaves_setup c) fun c' same => ?_
  split
  · refine StoresOnly.behind (leaves_ptrDuplicate c') fun copy duplicate w => ?_
    obtain ⟨b, run⟩ := update_run copy w
    rw [Proc.bind_ok run]
    have named := duplicate.symbolicName.trans same.symbolicName
    exact ⟨.inr ⟨copy, named, by rw [← named]⟩, c', rfl, same⟩
  · exact .of_leaves (.raise _ _)

theorem leaves_besLookFor (name : Str) : Leaves (besLookFor name : Proc (World σ) (Option (SQLContainer σ))) fun found =>
    ∀ c, found = some c → c.symbolicName = name := by
  refine fun w => ?_
  unfold besLookFor
  rw [Proc.get_bind]
  cases found : w.store.find? fun c => c.symbolicName = name with
  | none => exact ⟨rfl, nofun⟩
  | some c =>
    have named : c.symbolicName = name := by simpa using List.find?_some found
    refine (leaves_ptrDuplicate c).bind (fun c' same => Leaves.pure (a := some c') ?_) w
    rintro d rfl'
    cases rfl'
    exact same.symbolicName.trans named

theorem lookFor_stores (cls : ContainerClass σ) (name : Str) : StoresOnly name (lookFor cls name) fun found => ∀ c, found = some c → c.symbolicName = name := by
  refine StoresOnly.behind (leaves_besLookFor name) fun found named => ?_
  cases found with
  | none => exact .of_leaves (.pure nofun)
  | some c =>
    obtain rfl := named c rfl
    simp only
    by_cases ready : c.isReady = true
    · rw [if_pos ready]
      exact .of_leaves (.pure fun c' same => by cases same; rfl)
    · rw [if_neg ready]
      refine (rebuild_stores c _ _).mono fun answer rebuilt d found => ?_
      obtain ⟨c', is, same⟩ := rebuilt
      cases is.symm.trans found
      exact same.symbolicName

/-- Nothing is found if there is nothing of that name. -/
theorem lookFor_none {name : Str} {w w' : World σ} (run : lookFor cls name w = .ok none w') :
    w'.store = w.store ∧ ∀ c ∈ w.store, c.symbolicName ≠ name := by
  obtain ⟨found, w₁, first, rest⟩ := Proc.of_bind_ok run
  cases found with
  | none =>
    cases rest
    unfold besLookFor at first
    rw [Proc.get_bind] at first
    cases stored : w.store.find? fun c => c.symbolicName = name with
    | some c =>
      rw [stored] at first
      obtain ⟨copy, w₂, -, last⟩ := Proc.of_bind_ok first
      cases last
    | none =>
      rw [stored] at first
      cases first
      exact ⟨rfl, by simpa using stored⟩
  | some c =>
    simp only at rest
    split at rest
    · cases rest
    · obtain ⟨c', w₂, -, last⟩ := Proc.of_bind_ok rest
      split at last
      · obtain ⟨copy, w₃, -, last⟩ := Proc.of_bind_ok last
        obtain ⟨b, w₄, -, last⟩ := Proc.of_bind_ok last
        cases last
      · cases last

theorem leaves_buildContainer (symbolicName realName containerType attributes constraint : Str) :
    Leaves (buildContainer cls symbolicName realName containerType attributes constraint) fun c =>
      c.symbolicName = getName symbolicName realName containerType ∧ c.attributes = attributes ∧ c.constraint = constraint := by
  have made : Leaves (selectContainer cls (getName symbolicName realName containerType) realName containerType) fun c =>
      c.symbolicName = getName symbolicName realName containerType := by
    refine (leaves_setup _).bind fun c same => ?_
    split
    · exact .pure same.symbolicName
    · exact .raise _ _
  refine Leaves.throwOnly (made.bind fun c named => ?_) _
  simp only
  split
  · exact .pure ⟨named, rfl, rfl⟩
  · refine (leaves_setup _).bind fun c' same => ?_
    split
    · exact .pure ⟨same.symbolicName.trans named, same.attributes, same.constraint⟩
    · exact .raise _ _

/-- A container built for a name that is not stored. -/
theorem addBuilt_stores (cls : ContainerClass σ) {symbolicName realName containerType : Str} (attributes constraint : Str) {w : World σ}
    (free : ∀ c ∈ w.store, c.symbolicName ≠ getName symbolicName realName containerType) :
    match addBuilt cls symbolicName realName containerType attributes constraint w with
    | .ok c w' => World.Stores (getName symbolicName realName containerType) w w' ∧
      c.symbolicName = getName symbolicName realName containerType ∧ c.attributes = attributes ∧ c.constraint = constraint
    | .error _ w' => w'.store = w.store := by
  unfold addBuilt
  cases built : buildContainer cls symbolicName realName containerType attributes constraint w with
  | error fault w₁ =>
    rw [Proc.bind_error built]
    exact (leaves_buildContainer symbolicName realName containerType attributes constraint).error built
  | ok c w₁ =>
    obtain ⟨same, carried⟩ := (leaves_buildContainer symbolicName realName containerType attributes constraint).ok built
    rw [Proc.bind_ok built]
    cases copied : ptrDuplicate c w₁ with
    | error fault w₂ =>
      rw [Proc.bind_error copied]
      exact ((leaves_ptrDuplicate c).error copied).trans same
    | ok copy w₂ =>
      obtain ⟨same', duplicate⟩ := (leaves_ptrDuplicate c).ok copied
      rw [Proc.bind_ok copied]
      refine ⟨.inr ⟨copy, duplicate.symbolicName.trans carried.1, ?_⟩, carried⟩
      change copy :: w₂.store = _
      rw [same', same, List.filter_eq_self.2 (by simpa using free)]

/-- What a request does to the storage, and what it is given. -/
theorem getContainer_stores (cls : ContainerClass σ) (request : BESContainer σ) : StoresOnly request.key (getContainer cls (some request)) fun answer =>
    ∃ c, answer = some c ∧ request.Carried c := by
  cases request with
  | sql c named =>
    rw [getContainer]
    by_cases ready : c.isReady = true
    · rw [if_pos ready]
      exact .of_leaves (.pure ⟨c, rfl, .refl c⟩)
    · rw [if_neg ready]
      exact (rebuild_stores c _ _).mono fun answer rebuilt => rebuilt
  | plain symbolicName realName containerType attributes constraint =>
    intro w
    rw [getContainer]
    have looked := lookFor_stores cls (getName symbolicName realName containerType) w
    cases run : lookFor cls (getName symbolicName realName containerType) w with
    | error fault w₁ =>
      rw [run] at looked
      rw [Proc.bind_error run]
      exact looked
    | ok found w₁ =>
      rw [run] at looked
      rw [Proc.bind_ok run]
      obtain ⟨stores, goes⟩ := looked
      cases found with
      | some c => exact ⟨stores, _, rfl, goes c rfl, rfl, rfl⟩
      | none =>
        obtain ⟨same, free⟩ := lookFor_none run
        rw [← same] at free
        have built := addBuilt_stores cls attributes constraint free
        cases added : addBuilt cls symbolicName realName containerType attributes constraint w₁ with
        | error fault w₂ =>
          rw [added] at built
          simp only [Proc.bind_error added]
          exact built.trans same
        | ok c w₂ =>
          rw [added] at built
          simp only [Proc.bind_ok added]
          exact ⟨built.1.trans_same same, c, rfl, built.2⟩

end SQLContainerFactory

/-! ## The first request for a dataset -/

/-- A specification of the `allowed` errors does not name what is thrown. -/
def Fault.Unnamed (allowed : ErrorKind → Bool) : Fault → Prop
  | .error e => allowed e.kind = false
  | .foreign _ => True
  | .terminated => True
  | _ => False

theorem Fault.specified_iff {allowed : ErrorKind → Bool} {fault : Fault} :
    fault.specified allowed = .terminated ↔ fault.Unnamed allowed := by
  cases fault with
  | error e =>
    change (if allowed e.kind then Fault.error e else .terminated) = .terminated ↔ allowed e.kind = false
    cases allowed e.kind <;> simp
  | foreign what => exact ⟨fun _ => trivial, fun _ => rfl⟩
  | terminated => exact ⟨fun _ => trivial, fun _ => rfl⟩
  | undefined => exact ⟨nofun, False.elim⟩
  | endless => exact ⟨nofun, False.elim⟩

/-- What leaves a `read()` and then `buildContainer` is what the latter allows. -/
theorem Fault.specified_twice (fault : Fault) :
    (fault.specified anyBESError).specified besInternalErrorOnly = fault.specified besInternalErrorOnly := by
  cases fault <;> rfl

namespace SQLContainerFactory
variable {cls : ContainerClass σ}
open World SQLContainer SQLContainerStorageVolatile

/-- `catch (std::exception &e)` takes no ended process and makes none. -/
theorem caught_terminated {fault : Fault} : caught cls fault = .terminated ↔ fault = .terminated := by
  cases fault with
  | error e =>
    unfold caught
    cases cls.besErrorWhat with
    | none => exact Iff.rfl
    | some what => exact ⟨nofun, nofun⟩
  | foreign what =>
    cases what with
    | some what => exact ⟨nofun, nofun⟩
    | none => exact Iff.rfl
  | undefined => exact Iff.rfl
  | endless => exact Iff.rfl
  | terminated => exact Iff.rfl

/-- A file that cannot be read ends `buildContainer` as the specifications say. -/
theorem buildContainer_error {symbolicName realName containerType attributes constraint : Str} {w w' : World σ} {fault : Fault}
    (run : setup cls ⟨getName symbolicName realName containerType, realName, containerType, [], [], [], 0, false⟩ w = .error fault w') :
    buildContainer cls symbolicName realName containerType attributes constraint w =
      .error (fault.specified besInternalErrorOnly) w' := by
  have selected : selectContainer cls (getName symbolicName realName containerType) realName containerType w = .error fault w' := by
    unfold selectContainer
    rw [Proc.bind_error run]
  unfold buildContainer Proc.throwOnly
  rw [Proc.bind_error selected]

/-- What is read ends `buildContainer` in a `BESInternalError` or in a container. -/
theorem buildContainer_ok {symbolicName realName containerType attributes constraint : Str} {w w₁ : World σ} {c : SQLContainer σ}
    (run : setup cls ⟨getName symbolicName realName containerType, realName, containerType, [], [], [], 0, false⟩ w = .ok c w₁)
    {w' : World σ} : buildContainer cls symbolicName realName containerType attributes constraint w ≠ .error .terminated w' := by
  intro ends
  cases ready : c.isReady with
  | false =>
    have selected : selectContainer cls (getName symbolicName realName containerType) realName containerType w =
        .error (.error ⟨.besInternalError, "SQLTextContainer: Failed to setup sql dataset".toList⟩) w₁ := by
      unfold selectContainer
      rw [Proc.bind_ok run, if_neg (by rw [ready]; exact Bool.false_ne_true)]
      rfl
    unfold buildContainer Proc.throwOnly at ends
    rw [Proc.bind_error selected] at ends
    cases ends
  | true =>
    have selected : selectContainer cls (getName symbolicName realName containerType) realName containerType w = .ok c w₁ := by
      unfold selectContainer
      rw [Proc.bind_ok run, if_pos ready]
      rfl
    unfold buildContainer Proc.throwOnly at ends
    rw [Proc.bind_ok selected] at ends
    dsimp only at ends
    rw [if_pos ready] at ends
    cases ends

theorem ptrDuplicate_returns (c : SQLContainer σ) (w : World σ) : ∃ copy w', ptrDuplicate c w = .ok copy w' := by
  have waited : wait w = .ok () w.next := rfl
  have stat : World.stat c.realName w.next = .ok ((w.next.disk c.realName).head?.map Version.mtime) w.next := rfl
  obtain ⟨fresh, checked⟩ : ∃ fresh, isUpToDate c w = .ok fresh w.next := by
    unfold isUpToDate
    rw [Proc.bind_ok waited, Proc.bind_ok stat]
    cases (w.next.disk c.realName).head? with
    | none => exact ⟨_, rfl⟩
    | some v => exact ⟨_, rfl⟩
  unfold ptrDuplicate
  split
  · rw [Proc.bind_ok checked]
    exact ⟨_, _, rfl⟩
  · exact ⟨c, w, rfl⟩

theorem setup_error {c : SQLContainer σ} {w : World σ} {v : Version} {fault : Fault} (head : (w.next.disk c.realName).head? = some v)
    (read : cls.read v.content = .error fault) : setup cls c w = .error (fault.specified anyBESError) w.next := by
  have waited : wait w = .ok () w.next := rfl
  unfold setup
  rw [Proc.bind_ok waited, Proc.get_bind, head]
  simp only [read]
  rfl

/-- What a `setup()` throws: a `BESInternalError` if there is no file, or what `read()` throws of its text. -/
theorem setup_throws {c : SQLContainer σ} {w w' : World σ} {fault : Fault} (run : setup cls c w = .error fault w') :
    (∃ message, fault = .error ⟨.besInternalError, message⟩) ∨ ∃ v fault', (w.next.disk c.realName).head? = some v ∧
      cls.read v.content = .error fault' ∧ fault = fault'.specified anyBESError := by
  have waited : wait w = .ok () w.next := rfl
  cases head : (w.next.disk c.realName).head? with
  | none =>
    unfold setup at run
    rw [Proc.bind_ok waited, Proc.get_bind, head] at run
    cases run
    exact .inl ⟨_, rfl⟩
  | some v =>
    cases read : cls.read v.content with
    | error fault' =>
      rw [setup_error head read] at run
      cases run
      exact .inr ⟨v, fault', rfl, read, rfl⟩
    | ok answer =>
      unfold setup at run
      rw [Proc.bind_ok waited, Proc.get_bind, head] at run
      cases answer with
      | none =>
        simp only [read] at run
        cases run
      | some sections =>
        obtain ⟨w₂, later⟩ : ∃ w₂, waitInSetup w.next = .ok () w₂ := ⟨_, rfl⟩
        simp only [read] at run
        rw [Proc.bind_ok later, Proc.bind_ok (init_run _ w₂)] at run
        cases run

/-- The first request for a dataset ends the process if and only if `read()` of the text its file has
by then throws something else than a `BESInternalError`. -/
theorem first_request_ends {symbolicName realName containerType attributes constraint : Str} {w : World σ}
    (first : w.stored (getName symbolicName realName containerType) = none) :
    (∃ w', getContainer cls (some (.plain symbolicName realName containerType attributes constraint)) w = .error .terminated w') ↔
      ∃ v fault, (w.next.disk realName).head? = some v ∧ cls.read v.content = .error fault ∧ fault.Unnamed besInternalErrorOnly := by
  have looked : lookFor cls (getName symbolicName realName containerType) w = .ok none w := by
    have besLooked : besLookFor (getName symbolicName realName containerType) w = .ok none w := by
      unfold besLookFor
      rw [Proc.get_bind]
      unfold World.stored at first
      rw [first]
      rfl
    unfold lookFor
    rw [Proc.bind_ok besLooked]
    rfl
  have built : (∃ w', getContainer cls (some (.plain symbolicName realName containerType attributes constraint)) w = .error .terminated w') ↔
      ∃ w', buildContainer cls symbolicName realName containerType attributes constraint w = .error .terminated w' := by
    rw [getContainer, Proc.bind_ok looked]
    dsimp only
    cases run : buildContainer cls symbolicName realName containerType attributes constraint w with
    | error fault w₁ =>
      have added : addBuilt cls symbolicName realName containerType attributes constraint w = .error (caught cls fault) w₁ := by
        unfold addBuilt
        rw [Proc.bind_error run]
      rw [Proc.bind_error added]
      constructor
      · rintro ⟨w', same⟩
        injection same with same
        exact ⟨w₁, by rw [caught_terminated.1 same]⟩
      · rintro ⟨w', same⟩
        injection same with same
        exact ⟨w₁, by rw [caught_terminated.2 same]⟩
    | ok c w₁ =>
      have returned : ∃ c' w', addBuilt cls symbolicName realName containerType attributes constraint w = .ok c' w' := by
        obtain ⟨copy, w₂, copied⟩ := ptrDuplicate_returns c w₁
        unfold addBuilt
        rw [Proc.bind_ok run, Proc.bind_ok copied]
        exact ⟨_, _, rfl⟩
      obtain ⟨c', w', returned⟩ := returned
      rw [Proc.bind_ok returned]
      exact ⟨fun ⟨_, same⟩ => (nomatch same), fun ⟨_, same⟩ => (nomatch same)⟩
  rw [built]
  cases run : setup cls ⟨getName symbolicName realName containerType, realName, containerType, [], [], [], 0, false⟩ w with
  | ok c w₁ =>
    constructor
    · rintro ⟨w', ends⟩
      exact absurd ends (buildContainer_ok run)
    · rintro ⟨v, fault, head, read, -⟩
      rw [setup_error head read] at run
      cases run
  | error fault w₁ =>
    rw [buildContainer_error run]
    constructor
    · rintro ⟨w', same⟩
      injection same with same
      obtain ⟨message, rfl⟩ | ⟨v, fault', head, read, rfl⟩ := setup_throws run
      · cases same
      · rw [Fault.specified_twice] at same
        exact ⟨v, fault', head, read, Fault.specified_iff.1 same⟩
    · rintro ⟨v, fault', head, read, unnamed⟩
      rw [setup_error head read] at run
      cases run
      exact ⟨w.next, by rw [Fault.specified_twice, Fault.specified_iff.2 unnamed]⟩

end SQLContainerFactory

/-! ## Runs of a server -/

section Runs
variable {cls : ContainerClass σ} {w₀ w : World σ}

theorem Reaches.nodup (reach : Reaches cls w₀ w) (empty : w₀.store = []) : w.names.Nodup := by
  induction reach with
  | start =>
    rw [World.names, empty]
    exact List.nodup_nil
  | modified tick _ ih => exact ih
  | @answered w w' request answer _ run ih =>
    cases request with
    | none =>
      cases run
      exact ih
    | some request =>
      have stores := SQLContainerFactory.getContainer_stores cls request w
      rw [run] at stores
      exact stores.1.nodup ih
  | @failed w w' request fault _ run _ ih =>
    cases request with
    | none => cases run
    | some request =>
      have stores := SQLContainerFactory.getContainer_stores cls request w
      rw [run] at stores
      unfold World.names
      rwa [stores]

/-- In every run of a server the storage has one container a name. A request that is answered gets a
container with its own attributes and its own constraint, and leaves what other names have; one
that fails leaves the storage as it is. The run goes on behind a failure unless the process has
ended, and the first request for a dataset ends it if and only if `read()` of its file's text throws
what `buildContainer` is not specified to throw. Nothing is assumed of the files and of `read()`. -/
theorem storage_map (empty : w₀.store = []) (reach : Reaches cls w₀ w) :
    w.names.Nodup ∧ (∀ request answer w', SQLContainerFactory.getContainer cls (some request) w = .ok answer w' →
      (∃ c, answer = some c ∧ request.Carried c) ∧ ∀ name, name ≠ request.key → w'.stored name = w.stored name) ∧
    (∀ request fault w', SQLContainerFactory.getContainer cls request w = .error fault w' → w'.store = w.store) ∧
    ∀ symbolicName realName containerType attributes constraint,
      w.stored (SQLContainerFactory.getName symbolicName realName containerType) = none →
      ((∃ w', SQLContainerFactory.getContainer cls
          (some (.plain symbolicName realName containerType attributes constraint)) w = .error .terminated w') ↔
        ∃ v fault, (w.next.disk realName).head? = some v ∧ cls.read v.content = .error fault ∧
          fault.Unnamed besInternalErrorOnly) := by
  refine ⟨reach.nodup empty, fun request answer w' run => ?_, fun request fault w' run => ?_,
    fun _ _ _ _ _ first => SQLContainerFactory.first_request_ends first⟩
  · have stores := SQLContainerFactory.getContainer_stores cls request w
    rw [run] at stores
    exact ⟨stores.2, fun name ne => stores.1.others ne⟩
  · cases request with
    | none => cases run
    | some request =>
      have stores := SQLContainerFactory.getContainer_stores cls request w
      rwa [run] at stores

/-- A class that finds elements missing in a text that starts with `b`. -/
def missingClass : ContainerClass Str :=
  ⟨fun text => if text.head? = some 'b' then .error (.error ⟨.besError, "SQL Handler: Unable to complete dataset scan.".toList⟩)
    else .ok (some [text]), none⟩

theorem oneFile_map : stored.names.Nodup ∧
    (∀ w', SQLContainerFactory.getContainer missingClass oneRequest stored = .ok (some held) w' →
      w'.stored "b.sql".toList = none) ∧
    ∃ w', SQLContainerFactory.getContainer missingClass (some (.plain ['b'] "b.sql".toList ['s'] [] []))
      (stored.pass ⟨[⟨"b.sql".toList, ⟨['b'], 7⟩⟩], 7⟩) = .error .terminated w' := by
  have first : SQLContainerFactory.getContainer missingClass oneRequest oneFile = .ok (some held) stored := rfl
  obtain ⟨nodup, answered, -, -⟩ := storage_map rfl (Reaches.answered .start first)
  refine ⟨nodup, fun w' run => ?_, ?_⟩
  · exact (answered (.plain ['a'] "a.sql".toList ['s'] [] []) _ w' run).2 "b.sql".toList (by decide)
  · obtain ⟨-, -, -, ends⟩ := storage_map rfl (Reaches.modified ⟨[⟨"b.sql".toList, ⟨['b'], 7⟩⟩], 7⟩ (.answered .start first))
    exact (ends ['b'] "b.sql".toList ['s'] [] [] rfl).2 ⟨⟨['b'], 7⟩, _, rfl, rfl, rfl⟩

end Runs

end SqlHandler
