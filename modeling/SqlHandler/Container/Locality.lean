import SqlHandler.Container.Blocks

/-!
# What a section depends on

Everything a scan does to a section is done from the `[section]` row on: `addNewSection`
empties the buffers, the row resets the rest, and the sections stored before are carried
along (`Proc.Commutes` with `shift`). So a section is read from its own rows and the
variables (`sectionOf`). The first `[section]` row resets nothing: what the rows in front
of it may leave is for a later module.
-/

namespace SqlHandler
open Posix Text Stl

namespace SQLTextContainer
variable (rt : Runtime)

/-! ## Variables -/

/-- What a row does to the variables. -/
def rowVars (row : Str) (vars : Vars) : Except Fault Vars :=
  match rowKind row with
  | .definition m => defined rt row m vars
  | _ => .ok vars

/-- The variables after the definitions among the rows. -/
def defineAll : List Str → Vars → Except Fault Vars
  | [], vars => .ok vars
  | row :: rows, vars => do
    let vars' ← rowVars rt row vars
    defineAll rows vars'

/-! ## A section on its own -/

/-- A scan behind a `[section]` row, with nothing stored. -/
def opening (vars : Vars) : Reading :=
  { SQLTextContainer.fresh with
    start := false, newSection := .blank, complete := .empty, readingPart := .sectionTag, vars }

/-- The section read from its rows, behind the definitions of `vars`. -/
def sectionOf (rows : List Str) (vars : Vars) : Except Fault DatasetSection :=
  match (do readRows rt rows; addNewSection rt) (opening vars) with
  | .ok _ r => .ok r.newSection
  | .error fault _ => .error fault

/-- The sections read one by one. -/
def sectionsOf : List (List Str) → Vars → Except Fault (List DatasetSection)
  | [], _ => .ok []
  | rows :: more, vars => do
    let s ← sectionOf rt rows vars
    let vars' ← defineAll rt rows vars
    let later ← sectionsOf more vars'
    return s :: later

/-- The sections of a dataset: of the rows in front of the first `[section]` row the definitions count. -/
def localSections (rows : List Str) : Except Fault (List DatasetSection) :=
  match rows.splitOnP isSectionTag with
  | [] => .ok []
  | early :: sections => do
    let vars ← defineAll rt early .leaf
    sectionsOf rt sections vars

/-! ## What a scan carries along -/

/-- The sections stored before. -/
def shift (before : List DatasetSection) (r : Reading) : Reading := { r with dataset := before ++ r.dataset }

variable (before : List DatasetSection)

theorem addWhere_shift : Proc.Commutes (shift before) (addWhere rt) := by
  intro r
  rw [addWhere_run, addWhere_run]
  have bit : (shift before r).complete = r.complete := rfl
  have buffer : (shift before r).whereBuf = r.whereBuf := rfl
  rw [bit, buffer]
  split
  · cases SQLQuery.loadConstraints rt.shape r.whereBuf with
    | ok cs t =>
      simp only [putWhere]
      split <;> rfl
    | error fault t => rfl
  · rfl

theorem addSelect_shift : Proc.Commutes (shift before) (addSelect rt) := by
  intro r
  rw [addSelect_run, addSelect_run]
  have bit : (shift before r).complete = r.complete := rfl
  have buffer : (shift before r).attributeBuf = r.attributeBuf := rfl
  rw [bit, buffer]
  split
  · cases SQLQuery.loadAttributes rt.shape r.attributeBuf with
    | ok as t =>
      simp only [putAttributes]
      split <;> rfl
    | error fault t => rfl
  · rfl

theorem addNewSection_shift : Proc.Commutes (shift before) (addNewSection rt) := by
  apply (addWhere_shift rt before).bind
  intro _
  apply (addSelect_shift rt before).bind
  intro _ r
  rw [Proc.get_bind, Proc.get_bind]
  have bit : (shift before r).complete = r.complete := rfl
  rw [bit]
  split
  · rw [Proc.modify_run, Proc.modify_run]
    simp only [shift, List.append_assoc]
  · rfl

theorem partTracking_shift (tag : Str) : Proc.Commutes (shift before) (partTracking rt tag) := by
  intro r
  rw [partTracking_run, partTracking_run]
  have start : (shift before r).start = r.start := rfl
  rw [start]
  split
  · split
    · rfl
    · have add := addNewSection_shift rt before r
      cases run : addNewSection rt r with
      | ok a r' =>
        simp only [run] at add
        rw [add]
        rfl
      | error fault r' =>
        simp only [run] at add
        rw [add]
  · cases partOf tag <;> rfl

theorem setParameter_shift (key val : Str) (r : Reading) :
    setParameter key val (shift before r) = (setParameter key val r).map (shift before) := by
  unfold setParameter
  simp only [apply_ite (Option.map (shift before)), apply_ite (shift before), Option.map_some, Option.map_none]
  rfl

theorem rowAction_shift (part : DatasetPart) (row : Str) (r : Reading) :
    rowAction rt part row (shift before r) = shift before (rowAction rt part row r) := by
  unfold rowAction
  split
  · split <;> rfl
  · unfold appendRow
    split <;> rfl

theorem rowStep_shift (row : Str) (r : Reading) :
    rowStep rt row (shift before r) = (rowStep rt row r).map (shift before) := by
  unfold rowStep
  have part : (shift before r).readingPart = r.readingPart := rfl
  rw [part]
  split
  · split
    · rfl
    · rw [setParameter_shift]
      split <;> rename_i set <;> simp only [Option.map_eq_some_iff, Option.map_eq_none_iff] at set
      · obtain ⟨r', set, rfl⟩ := set
        rw [set]
        rfl
      · rw [set]
        rfl
  · rw [rowAction_shift]
    rfl

theorem readRow_shift (row : Str) : Proc.Commutes (shift before) (readRow rt row) := by
  rw [readRow_eq]
  split
  · exact Proc.Commutes.pure _ _
  · rename_i m _
    intro r
    rw [defineVariable_run, defineVariable_run]
    have vars : (shift before r).vars = r.vars := rfl
    rw [vars]
    split <;> rfl
  · exact partTracking_shift rt before _
  · intro r
    rw [addRow_run, addRow_run]
    have vars : (shift before r).vars = r.vars := rfl
    rw [vars]
    split
    · rfl
    · rw [rowStep_shift]
      cases rowStep rt _ r <;> rfl

theorem readRows_shift (rows : List Str) : Proc.Commutes (shift before) (readRows rt rows) := by
  induction rows with
  | nil => exact Proc.Commutes.pure _ _
  | cons row rows ih =>
    apply (readRow_shift rt before row).bind
    intro _
    exact ih

/-! ## What a section leaves -/

/-- A buffer holds text only if the bit of its part is set. -/
structure Buffered (r : Reading) : Prop where
  wheres : r.complete .whereTag = false → r.whereBuf = []
  attributes : r.complete .selectTag = false → r.attributeBuf = []

variable {rt}

theorem addWhere_leaves {r r' : Reading} (run : addWhere rt r = .ok () r') (h : Buffered r) :
    r'.whereBuf = [] ∧ r'.attributeBuf = r.attributeBuf ∧ r'.complete .selectTag = r.complete .selectTag ∧
      r'.dataset = r.dataset ∧ r'.vars = r.vars := by
  rw [addWhere_run] at run
  split at run
  · split at run
    · cases run
      unfold putWhere
      split
      · exact ⟨rfl, rfl, by simp [Completion.put, Reading.setSection], rfl, rfl⟩
      · exact ⟨rfl, rfl, rfl, rfl, rfl⟩
    · cases run
  · rename_i bit
    cases run
    exact ⟨h.wheres (by simpa using bit), rfl, rfl, rfl, rfl⟩

theorem addSelect_leaves {r r' : Reading} (run : addSelect rt r = .ok () r')
    (h : r.complete .selectTag = false → r.attributeBuf = []) :
    r'.attributeBuf = [] ∧ r'.whereBuf = r.whereBuf ∧ r'.dataset = r.dataset ∧ r'.vars = r.vars := by
  rw [addSelect_run] at run
  split at run
  · split at run
    · cases run
      unfold putAttributes
      split <;> exact ⟨rfl, rfl, rfl, rfl⟩
    · cases run
  · rename_i bit
    cases run
    exact ⟨h (by simpa using bit), rfl, rfl, rfl⟩

/-- A stored section is the one under construction, and the buffers are empty behind it. -/
theorem addNewSection_leaves {r r' : Reading} (run : addNewSection rt r = .ok () r') (h : Buffered r) :
    r'.whereBuf = [] ∧ r'.attributeBuf = [] ∧ r'.dataset = r.dataset ++ [r'.newSection] ∧ r'.vars = r.vars := by
  obtain ⟨⟨⟩, r₁, first, rest⟩ := Proc.of_bind_ok run
  obtain ⟨⟨⟩, r₂, second, last⟩ := Proc.of_bind_ok rest
  obtain ⟨whereBuf₁, attributeBuf₁, bit₁, dataset₁, vars₁⟩ := addWhere_leaves first h
  obtain ⟨attributeBuf₂, whereBuf₂, dataset₂, vars₂⟩ := addSelect_leaves second (by
    rw [bit₁, attributeBuf₁]
    exact h.attributes)
  rw [Proc.get_bind] at last
  split at last
  · cases last
    refine ⟨whereBuf₂.trans whereBuf₁, attributeBuf₂, ?_, vars₂.trans vars₁⟩
    simp only [dataset₂, dataset₁]
  · cases last

theorem Buffered.setSection {r : Reading} (h : Buffered r) (s : DatasetSection) : Buffered (r.setSection s) :=
  ⟨h.wheres, h.attributes⟩

theorem Buffered.mark {r : Reading} (h : Buffered r) {part : DatasetPart} (wheres : part ≠ .whereTag)
    (attributes : part ≠ .selectTag) : Buffered (r.mark part) := by
  constructor
  · intro bit
    apply h.wheres
    simpa [Reading.mark, Completion.put, wheres.symm] using bit
  · intro bit
    apply h.attributes
    simpa [Reading.mark, Completion.put, attributes.symm] using bit

theorem appendRow_buffered {r : Reading} (part : DatasetPart) (row : Str) (h : Buffered r) :
    Buffered (appendRow row part r) ∧ (appendRow row part r).vars = r.vars := by
  unfold appendRow
  split
  · refine ⟨⟨?_, ?_⟩, rfl⟩
    · intro bit
      apply h.wheres
      simpa [Reading.mark, Completion.put] using bit
    · intro bit
      simp [Reading.mark, Completion.put] at bit
  · exact ⟨(h.setSection _).mark (by decide) (by decide), rfl⟩
  · refine ⟨⟨?_, ?_⟩, rfl⟩
    · intro bit
      simp [Reading.mark, Completion.put] at bit
    · intro bit
      apply h.attributes
      simpa [Reading.mark, Completion.put] using bit
  · exact ⟨h, rfl⟩

theorem setParameter_buffered {r r' : Reading} {key val : Str} (run : setParameter key val r = some r') (h : Buffered r) :
    Buffered r' ∧ r'.vars = r.vars := by
  have set : ∀ s part, part ≠ .whereTag → part ≠ .selectTag → Buffered ((r.setSection s).mark part) :=
    fun s part wheres attributes => (h.setSection s).mark wheres attributes
  unfold setParameter at run
  split at run
  · cases run
    have api := set { r.newSection with api := val } .api (by decide) (by decide)
    split
    · exact ⟨api.mark (by decide) (by decide), rfl⟩
    · exact ⟨api, rfl⟩
  · split at run
    · cases run
      have server := set { r.newSection with server := val } .server (by decide) (by decide)
      split
      · exact ⟨server.mark (by decide) (by decide), rfl⟩
      · exact ⟨server, rfl⟩
    · repeat' split at run
      all_goals cases run
      all_goals exact ⟨set _ _ (by decide) (by decide), rfl⟩

theorem rowStep_buffered {r r' : Reading} {row : Str} (run : rowStep rt row r = .ok r') (h : Buffered r) :
    Buffered r' ∧ r'.vars = r.vars := by
  unfold rowStep at run
  split at run
  · split at run
    · cases run
    · split at run
      · rename_i set
        cases run
        exact setParameter_buffered set h
      · cases run
  · cases run
    unfold rowAction
    split
    · split
      · exact ⟨(h.setSection _).mark (by decide) (by decide), rfl⟩
      · exact ⟨h, rfl⟩
    · exact appendRow_buffered _ row h

/-- What a row other than `[section]` keeps. -/
theorem readRow_buffered {r r' : Reading} {row : Str} (other : isSectionTag row = false)
    (run : readRow rt row r = .ok () r') (h : Buffered r) : Buffered r' ∧ rowVars rt row r.vars = .ok r'.vars := by
  rw [readRow_eq] at run
  unfold rowVars
  unfold isSectionTag at other
  cases kind : rowKind row with
  | idle =>
    rw [kind] at run
    cases run
    exact ⟨h, rfl⟩
  | definition m =>
    rw [kind] at run
    simp only [defineVariable_run] at run
    split at run
    · rename_i vars made
      cases run
      exact ⟨⟨h.wheres, h.attributes⟩, made⟩
    · cases run
  | tag text =>
    rw [kind] at run other
    simp only [partTracking_run] at run
    rw [if_neg (by simpa using other)] at run
    cases run
    cases partOf text with
    | none => exact ⟨h, rfl⟩
    | some part => exact ⟨⟨h.wheres, h.attributes⟩, rfl⟩
  | data =>
    rw [kind] at run
    simp only [addRow_run] at run
    split at run
    · cases run
    · split at run
      · rename_i step
        cases run
        obtain ⟨buffered, vars⟩ := rowStep_buffered step h
        exact ⟨buffered, by rw [vars]⟩
      · cases run

theorem readRows_buffered {r r' : Reading} {rows : List Str} (others : ∀ row ∈ rows, isSectionTag row = false)
    (run : readRows rt rows r = .ok () r') (h : Buffered r) : Buffered r' ∧ defineAll rt rows r.vars = .ok r'.vars := by
  induction rows generalizing r with
  | nil =>
    cases run
    exact ⟨h, rfl⟩
  | cons row rows ih =>
    obtain ⟨⟨⟩, r₁, first, rest⟩ := Proc.of_bind_ok run
    obtain ⟨buffered, vars₁⟩ := readRow_buffered (others row List.mem_cons_self) first h
    obtain ⟨buffered', vars'⟩ := ih (fun x mem => others x (List.mem_cons_of_mem _ mem)) rest buffered
    refine ⟨buffered', ?_⟩
    rw [defineAll, vars₁]
    exact vars'

theorem opening_buffered (vars : Vars) : Buffered (opening vars) := by
  constructor <;> intro _ <;> rfl

/-! ## The sections behind the first `[section]` row -/

theorem splitOnP_cases (rows : List Str) :
    (rows.splitOnP isSectionTag = [rows] ∧ ∀ row ∈ rows, isSectionTag row = false) ∨
      ∃ own tag rest, rows = own ++ tag :: rest ∧ (∀ row ∈ own, isSectionTag row = false) ∧ isSectionTag tag = true ∧
        rows.splitOnP isSectionTag = own :: rest.splitOnP isSectionTag := by
  induction rows with
  | nil => exact .inl ⟨rfl, by simp⟩
  | cons row rows ih =>
    cases tagged : isSectionTag row with
    | true =>
      refine .inr ⟨[], row, rows, rfl, by simp, tagged, ?_⟩
      rw [List.splitOnP_cons_eq_if_modifyHead, if_pos tagged]
    | false =>
      rcases ih with ⟨split, others⟩ | ⟨own, tag, rest, rfl, others, tagged', split⟩
      · refine .inl ⟨?_, ?_⟩
        · rw [List.splitOnP_cons_eq_if_modifyHead, if_neg (by simp [tagged]), split]
          rfl
        · intro x mem
          rcases List.mem_cons.1 mem with rfl | mem
          · exact tagged
          · exact others x mem
      · refine .inr ⟨row :: own, tag, rest, rfl, ?_, tagged', ?_⟩
        · intro x mem
          rcases List.mem_cons.1 mem with rfl | mem
          · exact tagged
          · exact others x mem
        · rw [List.splitOnP_cons_eq_if_modifyHead, if_neg (by simp [tagged]), split]
          rfl

theorem opening_scanned (vars : Vars) : Scanned [] 1 (opening vars) :=
  ⟨blank_filled _ rfl, [], rfl, by simp, by simp [opening]⟩

/-- Behind its own rows a section is the only one, and none is stored. -/
theorem own_rows {own : List Str} (others : ∀ row ∈ own, isSectionTag row = false) {vars : Vars} {r : Reading}
    (run : readRows rt own (opening vars) = .ok () r) : r.start = false ∧ r.dataset = [] := by
  obtain ⟨-, stored, dataset, -, count⟩ := readRows_scanned (opening_scanned vars) run
  have none : own.countP isSectionTag = 0 := by
    rw [List.countP_eq_zero]
    intro row mem
    simp [others row mem]
  rw [none] at count
  cases start : r.start with
  | true => simp [start] at count
  | false =>
    rw [start] at count
    have empty : stored = [] := List.eq_nil_of_length_eq_zero (by simpa using count)
    exact ⟨rfl, by rw [dataset, empty]; rfl⟩

/-- The rows of a section and the end of it. -/
def readSection (rt : Runtime) (rows : List Str) : Proc Reading Unit := do
  readRows rt rows
  addNewSection rt

variable (rt) in
theorem readSection_shift (before : List DatasetSection) (rows : List Str) : Proc.Commutes (shift before) (readSection rt rows) := by
  apply (readRows_shift rt before rows).bind
  intro _
  exact addNewSection_shift rt before

variable (rt) in
/-- How the run of a section ends, and what `sectionOf` makes of it. -/
theorem section_run {own : List Str} (others : ∀ row ∈ own, isSectionTag row = false) (vars : Vars) :
    (∃ r₁ r s, readRows rt own (opening vars) = .ok () r₁ ∧ addNewSection rt r₁ = .ok () r ∧ r₁.start = false ∧
      sectionOf rt own vars = .ok s ∧ defineAll rt own vars = .ok r.vars ∧
      { r with complete := .empty, newSection := .blank }.setPart .sectionTag = shift [s] (opening r.vars)) ∨
    ∃ fault r, readSection rt own (opening vars) = .error fault r ∧ sectionOf rt own vars = .error fault := by
  have same : sectionOf rt own vars = match readSection rt own (opening vars) with
    | .ok _ r => .ok r.newSection
    | .error fault _ => .error fault := rfl
  cases run : readSection rt own (opening vars) with
  | error fault r =>
    rw [run] at same
    exact .inr ⟨fault, r, rfl, same⟩
  | ok a r =>
    left
    rw [run] at same
    obtain ⟨⟨⟩, r₁, first, second⟩ := Proc.of_bind_ok run
    obtain ⟨buffered, vars₁⟩ := readRows_buffered others first (opening_buffered vars)
    obtain ⟨whereBuf, attributeBuf, dataset, vars₂⟩ := addNewSection_leaves second buffered
    obtain ⟨start₁, none⟩ := own_rows others first
    obtain ⟨-, -, -, start₂⟩ := addNewSection_ok second
    refine ⟨r₁, r, r.newSection, first, second, start₁, same, ?_, ?_⟩
    · rw [vars₂]
      exact vars₁
    · rw [none] at dataset
      rw [start₁] at start₂
      obtain ⟨⟨_, _, _⟩, _, _, _, _, _⟩ := r
      dsimp only at whereBuf attributeBuf dataset start₂
      subst whereBuf attributeBuf dataset start₂
      rfl

theorem sectionsOf_ok {own : List Str} {vars vars' : Vars} {s : DatasetSection} (same : sectionOf rt own vars = .ok s)
    (made : defineAll rt own vars = .ok vars') (more : List (List Str)) :
    sectionsOf rt (own :: more) vars = (sectionsOf rt more vars').map (s :: ·) := by
  rw [sectionsOf, same, made]
  change (sectionsOf rt more vars' >>= fun later => pure (s :: later)) = _
  cases sectionsOf rt more vars' <;> rfl

theorem sectionsOf_error {own : List Str} {vars : Vars} {fault : Fault} (same : sectionOf rt own vars = .error fault)
    (more : List (List Str)) : sectionsOf rt (own :: more) vars = .error fault := by
  rw [sectionsOf, same]
  rfl

variable (rt) in
/-- The sections from a `[section]` row on are stored one by one, or the scan fails. -/
theorem sections_run (rows : List Str) (vars : Vars) :
    (∃ r stored, readSection rt rows (opening vars) = .ok () r ∧ r.dataset = stored ∧
      sectionsOf rt (rows.splitOnP isSectionTag) vars = .ok stored) ∨
    ∃ fault fault' r, readSection rt rows (opening vars) = .error fault r ∧
      sectionsOf rt (rows.splitOnP isSectionTag) vars = .error fault' := by
  induction h : rows.length using Nat.strongRecOn generalizing rows vars with
  | ind n ih =>
  rcases splitOnP_cases rows with ⟨split, others⟩ | ⟨own, tag, rest, rfl, others, tagged, split⟩
  · rw [split]
    rcases section_run rt others vars with ⟨r₁, r, s, first, second, -, same, vars', reset⟩ | ⟨fault, r, run, same⟩
    · refine .inl ⟨r, [s], ?_, ?_, ?_⟩
      · exact (Proc.bind_ok first).trans second
      · exact congrArg (fun r : Reading => r.dataset) reset
      · rw [sectionsOf_ok same vars']
        rfl
    · exact .inr ⟨fault, fault, r, run, sectionsOf_error same []⟩
  · rw [split]
    have whole : readSection rt (own ++ tag :: rest) = (do readRows rt own; readRow rt tag; readSection rt rest) := by
      unfold readSection
      rw [readRows_append]
      change ((readRows rt own >>= fun _ => readRow rt tag >>= fun _ => readRows rt rest) >>= fun _ => addNewSection rt) = _
      simp only [bind_assoc]
    rw [whole]
    rcases section_run rt others vars with ⟨r₁, r, s, first, second, start, same, vars', reset⟩ | ⟨fault, r, run, same⟩
    · have closed : readRow rt tag r₁ = .ok () (shift [s] (opening r.vars)) := by
        rw [readRow_eq, isSectionTag_iff.1 tagged]
        simp only [partTracking_run, if_true, start, Bool.false_eq_true, if_false, second]
        rw [reset]
      have moved := readSection_shift rt [s] rest
      rcases ih rest.length (by simp [← h]; omega) rest r.vars rfl with
        ⟨r', later, run, dataset, stored⟩ | ⟨fault, fault', r', run, stored⟩
      · refine .inl ⟨shift [s] r', s :: later, ?_, ?_, ?_⟩
        · rw [Proc.bind_ok first, Proc.bind_ok closed]
          exact moved.ok run
        · rw [← dataset]
          rfl
        · rw [sectionsOf_ok same vars', stored]
          rfl
      · refine .inr ⟨fault, fault', shift [s] r', ?_, ?_⟩
        · rw [Proc.bind_ok first, Proc.bind_ok closed]
          exact moved.error run
        · rw [sectionsOf_ok same vars', stored]
          rfl
    · have fails : ∃ r', (do readRows rt own; readRow rt tag; readSection rt rest) (opening vars) = .error fault r' := by
        cases first : readRows rt own (opening vars) with
        | error fault₁ r₁ =>
          obtain ⟨rfl, rfl⟩ := EStateM.Result.error.inj ((Proc.bind_error first).symm.trans run)
          exact ⟨r₁, Proc.bind_error first⟩
        | ok a r₁ =>
          have second : addNewSection rt r₁ = .error fault r := (Proc.bind_ok first).symm.trans run
          have start := (own_rows others first).1
          refine ⟨r, ?_⟩
          rw [Proc.bind_ok first]
          apply Proc.bind_error
          rw [readRow_eq, isSectionTag_iff.1 tagged]
          simp only [partTracking_run, if_true, start, Bool.false_eq_true, if_false, second]
      obtain ⟨r', run'⟩ := fails
      exact .inr ⟨fault, fault, r', run', sectionsOf_error same _⟩

/-! ## Marks -/

theorem mark_complete {r : Reading} {p : DatasetPart} (q : DatasetPart) (h : r.complete p = true) :
    (r.mark q).complete p = true := by
  simp only [Reading.mark, Completion.put]
  split
  · rfl
  · exact h

theorem setParameter_complete {r r' : Reading} {key val : Str} {p : DatasetPart} (run : setParameter key val r = some r')
    (h : r.complete p = true) : r'.complete p = true := by
  have set : ∀ s part, ((r.setSection s).mark part).complete p = true := fun s part => mark_complete part h
  unfold setParameter at run
  split at run
  · cases run
    split
    · exact mark_complete _ (set _ _)
    · exact set _ _
  · split at run
    · cases run
      split
      · exact mark_complete _ (set _ _)
      · exact set _ _
    · repeat' split at run
      all_goals cases run
      all_goals exact set _ _

/-- The parts a tag opens. -/
def openParts : List DatasetPart := [.selectTag, .fromTag, .whereTag, .otherTag]

theorem partOf_mem {text : Str} {part : DatasetPart} (h : partOf text = some part) : part ∈ openParts := by
  unfold partOf at h
  repeat' split at h
  all_goals cases h
  all_goals decide

/-! ## Reading a file -/

/-- The rows in front of the first `[section]` row. -/
def earlyRows (rows : List Str) : List Str := rows.takeWhile (fun row => !isSectionTag row)

theorem earlyRows_others (rows : List Str) : ∀ row ∈ earlyRows rows, isSectionTag row = false := by
  intro row mem
  simpa using List.mem_takeWhile_imp mem

/-- `read` stores the sections behind those of the container, or both fail. -/
inductive Answers (c : SQLTextContainer) :
    Except Fault (List DatasetSection) → Bool → EStateM.Result Fault SQLTextContainer Bool → Prop
  | stored {sections : List DatasetSection} {b : Bool} {c' : SQLTextContainer}
    (dataset : c'.dataset = c.dataset ++ sections) : Answers c (.ok sections) b (.ok b c')
  | failed {fault fault' : Fault} {b : Bool} {c' : SQLTextContainer} : Answers c (.error fault) b (.error fault' c')

/-- The answer of a call, if it returned. -/
def returned {α : Type} : EStateM.Result Fault SQLTextContainer α → Option α
  | .ok a _ => some a
  | .error _ _ => none

/-- The scan from the first `[section]` row on. -/
theorem opened_run {c : SQLTextContainer} (whereBuf : c.whereBuf = []) (attributeBuf : c.attributeBuf = [])
    {tag : Str} (tagged : isSectionTag tag = true) (vars : Vars) (part : DatasetPart) :
    readRow rt tag { begin part c with vars } = .ok () (shift c.dataset (opening vars)) := by
  rw [readRow_eq, isSectionTag_iff.1 tagged]
  simp only [partTracking_run, begin, if_true]
  obtain ⟨_, _, _⟩ := c
  dsimp only at whereBuf attributeBuf
  subst whereBuf attributeBuf
  simp [shift, opening, Reading.setPart, SQLTextContainer.fresh]

theorem takeWhile_tag {own rest : List Str} {tag : Str} (others : ∀ row ∈ own, isSectionTag row = false)
    (tagged : isSectionTag tag = true) : earlyRows (own ++ tag :: rest) = own := by
  unfold earlyRows
  rw [List.takeWhile_append_of_pos (by simpa using others), List.takeWhile_cons_of_neg (by simp [tagged]), List.append_nil]

theorem localSections_none {rows : List Str} (split : rows.splitOnP isSectionTag = [rows]) :
    localSections rt rows = (defineAll rt rows .leaf).map (fun _ => []) := by
  unfold localSections
  rw [split]
  change (defineAll rt rows .leaf >>= fun vars => sectionsOf rt [] vars) = _
  cases defineAll rt rows .leaf <;> rfl

theorem localSections_some {rows own : List Str} {sections : List (List Str)}
    (split : rows.splitOnP isSectionTag = own :: sections) :
    localSections rt rows = (defineAll rt own .leaf).bind (sectionsOf rt sections) := by
  unfold localSections
  rw [split]
  rfl

theorem shift_scanned (before : List DatasetSection) (vars : Vars) : Scanned before 1 (shift before (opening vars)) :=
  ⟨blank_filled _ rfl, [], rfl, by simp, by simp [shift, opening]⟩

/-- Behind a `[section]` row the end of the file is the end of a section. -/
theorem finish_section (before : List DatasetSection) (rows : List Str) (vars : Vars) :
    (do readRows rt rows; finish rt) (shift before (opening vars)) = (do readSection rt rows; return true) (shift before (opening vars)) := by
  unfold readSection
  rw [bind_assoc]
  cases run : readRows rt rows (shift before (opening vars)) with
  | error fault r => rw [Proc.bind_error run, Proc.bind_error run]
  | ok a r =>
    rw [Proc.bind_ok run, Proc.bind_ok run]
    obtain ⟨-, stored, -, -, count⟩ := readRows_scanned (shift_scanned before vars) run
    have started : r.start = false := by
      cases start : r.start with
      | false => rfl
      | true =>
        rw [start, if_pos rfl] at count
        omega
    unfold finish
    rw [Proc.get_bind, started]
    rfl

end SQLTextContainer

end SqlHandler
