import SqlHandler.Container.Early

/-!
# What the rows in front of the first section decide

A file without a section is read whatever `reading_part` starts with if its data rows could
stand in `[section]` (`Passes`). Of a file with one the rows in front decide: calm rows change no
section (`EarlyCalm.reads`), and if rows are not calm there is a file that tells. Two kinds
of sections behind them suffice: one with a row of `[select]`, and one with a row of `[where]` behind
it (`nameRows`, `askRows`).
-/

namespace SqlHandler
open Posix Text Stl

namespace SQLTextContainer
variable {rt : Runtime}

/-! ## Files without a section -/

variable (rt) in
/-- Rows that are read whatever part the first ones are put into: until a tag opens a part, data rows
are rows of `[section]`, for `reading_part` can start there. -/
inductive Passes : Option DatasetPart → Vars → List Str → Prop
  | done {part : Option DatasetPart} {vars : Vars} : Passes part vars []
  | idle {part : Option DatasetPart} {vars : Vars} {row : Str} {rows : List Str} (kind : rowKind row = .idle)
      (later : Passes part vars rows) : Passes part vars (row :: rows)
  | definition {part : Option DatasetPart} {vars vars' : Vars} {row : Str} {rows : List Str} {m : Match}
      (kind : rowKind row = .definition m) (made : defined rt row m vars = .ok vars') (later : Passes part vars' rows) :
      Passes part vars (row :: rows)
  | tag {part : Option DatasetPart} {vars : Vars} {row text : Str} {rows : List Str} (kind : rowKind row = .tag text)
      (later : Passes ((partOf text).or part) vars rows) : Passes part vars (row :: rows)
  | parameter {vars : Vars} {row row' : Str} {rows : List Str} {m : Match} (kind : rowKind row = .data)
      (made : substituteRow vars row = .ok row') (found : regexec regKeyVal (rowStr row') = some m)
      (reserved : ((m.group 1).getD ⟨0, 0⟩).text row' ∈ reservedKeys) (later : Passes none vars rows) :
      Passes none vars (row :: rows)
  | taken {part : DatasetPart} {vars : Vars} {row row' : Str} {rows : List Str} (kind : rowKind row = .data)
      (made : substituteRow vars row = .ok row') (later : Passes (some part) vars rows) :
      Passes (some part) vars (row :: rows)

/-- One row that is read, and the rest. -/
theorem readRows_step {row : Str} {rows : List Str} (others : ∀ x ∈ row :: rows, isSectionTag x = false) {r t : Reading}
    (first : readRow rt row r = .ok () t)
    (rest : ∃ r', readRows rt rows t = .ok () r' ∧ r'.start = t.start ∧ r'.dataset = t.dataset) :
    ∃ r', readRows rt (row :: rows) r = .ok () r' ∧ r'.start = r.start ∧ r'.dataset = r.dataset := by
  obtain ⟨r', run, start, dataset⟩ := rest
  obtain ⟨-, start', dataset'⟩ := readRow_inside (others row List.mem_cons_self) first
  exact ⟨r', (Proc.bind_ok first).trans run, start.trans start', dataset.trans dataset'⟩

theorem Passes.run {part : Option DatasetPart} {vars : Vars} {rows : List Str} (passes : Passes rt part vars rows)
    (others : ∀ row ∈ rows, isSectionTag row = false) {r : Reading} (held : r.vars = vars)
    (at' : ∀ q, part = some q → r.readingPart = q ∧ q ≠ .sectionTag) :
    ∃ r', readRows rt rows r = .ok () r' ∧ r'.start = r.start ∧ r'.dataset = r.dataset := by
  induction passes generalizing r with
  | done => exact ⟨r, rfl, rfl, rfl⟩
  | idle kind later ih =>
    apply readRows_step others (t := r)
    · rw [readRow_eq, kind]
      rfl
    · exact ih (fun x mem => others x (List.mem_cons_of_mem _ mem)) held at'
  | @definition part vars vars₁ row rows m kind made later ih =>
    apply readRows_step others (t := { r with vars := vars₁ })
    · rw [readRow_eq, kind]
      simp only [defineVariable_run, held, made]
    · exact ih (fun x mem => others x (List.mem_cons_of_mem _ mem)) rfl at'
  | @tag part vars row text rows kind later ih =>
    have other : ¬ text = "[section]".toList := by
      have inside := others row List.mem_cons_self
      unfold isSectionTag at inside
      rw [kind] at inside
      simpa using inside
    apply readRows_step others (t := ((partOf text).map r.setPart).getD r)
    · rw [readRow_eq, kind]
      simp only [partTracking_run, if_neg other]
    · have later' := fun x mem => others x (List.mem_cons_of_mem _ mem)
      cases opened : partOf text with
      | none =>
        rw [opened] at ih
        exact ih later' held at'
      | some p =>
        rw [opened] at ih
        refine ih later' held ?_
        rintro q same
        obtain rfl := Option.some.inj same
        refine ⟨rfl, ?_⟩
        rintro rfl
        exact absurd (partOf_mem opened) (by decide)
  | @parameter vars row row' rows m kind made found reserved later ih =>
    have later' := fun x mem => others x (List.mem_cons_of_mem _ mem)
    by_cases part : r.readingPart = .sectionTag
    · obtain ⟨r₁, set⟩ := setParameter_exists reserved (((m.group 2).getD ⟨0, 0⟩).text row') r
      apply readRows_step others (t := r₁)
      · rw [readRow_eq, kind]
        simp only [addRow_run, held, made, rowStep, part, found, set]
      · exact ih later' ((setParameter_leaves set).vars.trans held) nofun
    · apply readRows_step others (t := rowAction rt r.readingPart row' r)
      · exact data_run kind (held ▸ made) rfl part
      · exact ih later' ((rowAction_leaves _ _ r).1.vars.trans held) nofun
  | @taken part vars row row' rows kind made later ih =>
    obtain ⟨here, ne⟩ := at' part rfl
    apply readRows_step others (t := rowAction rt part row' r)
    · exact data_run kind (held ▸ made) here ne
    · refine ih (fun x mem => others x (List.mem_cons_of_mem _ mem)) ((rowAction_leaves _ _ r).1.vars.trans held) ?_
      intro q same
      obtain ⟨here', ne'⟩ := at' q same
      exact ⟨(rowAction_leaves _ _ r).1.part.trans here', ne'⟩

/-- Rows that are read from `[section]` on. -/
theorem passes_of {part : Option DatasetPart} {rows : List Str} {r r' : Reading}
    (others : ∀ row ∈ rows, isSectionTag row = false) (at' : r.readingPart = part.getD .sectionTag)
    (run : readRows rt rows r = .ok () r') : Passes rt part r.vars rows := by
  induction rows generalizing part r with
  | nil => exact .done
  | cons row rows ih =>
    have other := others row List.mem_cons_self
    have later := fun x mem => others x (List.mem_cons_of_mem _ mem)
    obtain ⟨⟨⟩, r₁, first, rest⟩ := Proc.of_bind_ok run
    cases readRow_effect first with
    | idle kind => exact .idle kind (ih later at' rest)
    | @definition m vars kind made => exact .definition kind made (ih (r := { r with vars }) later at' rest)
    | @part text kind =>
      refine .tag kind ?_
      cases opened : partOf text with
      | none =>
        rw [opened] at rest
        exact ih later at' rest
      | some p =>
        rw [opened] at rest
        exact ih (r := r.setPart p) later rfl rest
    | first kind => exact absurd (isSectionTag_iff.2 kind) (by simp [other])
    | next kind => exact absurd (isSectionTag_iff.2 kind) (by simp [other])
    | parameter kind made here found set =>
      have leaves := setParameter_leaves set
      have rest' : Passes rt part _ rows := ih later (leaves.part.trans at') rest
      rw [leaves.vars] at rest'
      cases part with
      | none => exact .parameter kind made found (setParameter_reserved set) rest'
      | some q => exact .taken kind made rest'
    | @added row' kind made here =>
      have leaves : Leaves r (rowAction rt r.readingPart row' r) := (rowAction_leaves _ _ r).1
      have rest' : Passes rt part _ rows := ih later (leaves.part.trans at') rest
      rw [leaves.vars] at rest'
      cases part with
      | none => exact absurd at' here
      | some q => exact .taken kind made rest'

/-- A file without a section is read whatever `reading_part` starts with, if and only if its rows pass. -/
theorem local_without {c : SQLTextContainer} {text : Str} (without : (text.splitOn '\n').any isSectionTag = false) :
    Local rt c text ↔ ∀ vars, defineAll rt (text.splitOn '\n') .leaf = .ok vars → Passes rt none .leaf (text.splitOn '\n') := by
  unfold Local
  simp only [read_eq, without]
  generalize text.splitOn '\n' = rows at without
  obtain ⟨split, others⟩ : rows.splitOnP isSectionTag = [rows] ∧ ∀ row ∈ rows, isSectionTag row = false := by
    rcases splitOnP_cases rows with single | ⟨early, tag, rest, rfl, -, tagged, -⟩
    · exact single
    · simp [tagged] at without
  rw [localSections_none split]
  constructor
  · intro reads vars made
    have answers := reads .sectionTag
    cases run : readRows rt rows (begin .sectionTag c) with
    | ok u r => exact passes_of others rfl run
    | error fault r =>
      rw [made, show scan rt rows (begin .sectionTag c) = .error fault r from Proc.bind_error run] at answers
      cases answers
  · intro passes unset
    cases made : defineAll rt rows .leaf with
    | error fault =>
      cases run : readRows rt rows (begin unset c) with
      | error fault' r =>
        rw [show scan rt rows (begin unset c) = .error fault' r from Proc.bind_error run]
        exact .failed
      | ok u r =>
        have defined := readRows_vars others run
        cases made.symm.trans defined
    | ok vars =>
      obtain ⟨r, run, start, dataset⟩ := (passes vars made).run others (r := begin unset c) rfl nofun
      have finished : finish rt r = .ok false r := by
        unfold finish
        rw [Proc.get_bind, start]
        rfl
      rw [show scan rt rows (begin unset c) = .ok false r from (Proc.bind_ok run).trans finished]
      apply Answers.stored
      rw [List.append_nil]
      exact dataset

/-! ## Sections that tell -/

/-- The rows of a section with the settings of `buoys` and this row in its `[select]`. -/
def nameRows (s : Str) : List Str :=
  buoys.settings.map Pair.row ++ ["[from]".toList, "t".toList, "[select]".toList, s]

/-- What these rows do behind a `[section]` row. -/
structure Named (s : Str) (q q' : Reading) : Prop where
  leaves : q'.start = q.start ∧ q'.dataset = q.dataset
  attributeBuf : q'.attributeBuf = q.attributeBuf ++ rowText s
  whereBuf : q'.whereBuf = q.whereBuf
  fromText : q'.newSection.query.fromText = q.newSection.query.fromText ++ rowText "t".toList
  other : q'.newSection.other = q.newSection.other
  marks : Both q → ∀ part ∈ requirements, q'.complete part = true
  whereBit : q'.complete .whereTag = q.complete .whereTag

variable (rt) in
theorem nameRows_run {s : Str} (literal : isLiteral s = true) {q : Reading} (at' : q.readingPart = .sectionTag) :
    ∃ q', readRows rt (nameRows s) q = .ok () q' ∧ Named s q q' := by
  obtain ⟨q₁, run, apart, -, -, api, server, both₁⟩ := settings_run rt buoys.reserved at'
  have api₁ : q₁.complete .api = true := api buoys.api
  have server₁ : q₁.complete .server = true := server buoys.server
  have from' : readRow rt "t".toList (q₁.setPart .fromTag) = .ok () (appendRow "t".toList .fromTag (q₁.setPart .fromTag)) :=
    literal_row t_literal rfl (by decide) (by decide)
  generalize made : appendRow "t".toList .fromTag (q₁.setPart .fromTag) = q₂ at from'
  have select : readRow rt s (q₂.setPart .selectTag) = .ok () (appendRow s .selectTag (q₂.setPart .selectTag)) :=
    literal_row literal rfl (by decide) (by decide)
  refine ⟨appendRow s .selectTag (q₂.setPart .selectTag), ?_, ?_⟩
  · unfold nameRows
    rw [readRows_append, Proc.bind_ok run]
    change (readRow rt _ >>= fun _ => readRow rt _ >>= fun _ => readRow rt _ >>= fun _ => readRow rt _ >>= fun _ => pure ()) _ = _
    rw [Proc.bind_ok (opens_run rt from_opens q₁), Proc.bind_ok from', Proc.bind_ok (opens_run rt select_opens q₂),
      Proc.bind_ok select]
    rfl
  · subst made
    refine ⟨⟨apart.leaves.start, apart.leaves.dataset⟩, congrArg (· ++ rowText s) apart.attributeBuf, apart.whereBuf,
      congrArg (fun query : SQLQuery => query.fromText ++ rowText "t".toList) apart.query, apart.other, ?_,
      apart.marks .whereTag (by decide)⟩
    intro both part mem
    simp only [requirements, List.mem_cons, List.not_mem_nil, or_false] at mem
    rcases mem with rfl | rfl | rfl | rfl | rfl
    · exact both₁ both api₁ server₁
    · exact api₁
    · exact server₁
    · rfl
    · rfl

/-- The rows of a section with this row in its `[where]`. -/
def askRows (row : Str) : List Str := nameRows "x".toList ++ ["[where]".toList, row]

variable (rt) in
theorem askRows_run {row : Str} (literal : isLiteral row = true) {q : Reading} (at' : q.readingPart = .sectionTag) :
    ∃ q', readRows rt (askRows row) q = .ok () (appendRow row .whereTag (q'.setPart .whereTag)) ∧ Named "x".toList q q' := by
  obtain ⟨q', run, named⟩ := nameRows_run rt x_literal at'
  have added : readRow rt row (q'.setPart .whereTag) = .ok () (appendRow row .whereTag (q'.setPart .whereTag)) :=
    literal_row literal rfl (by decide) (by decide)
  refine ⟨q', ?_, named⟩
  unfold askRows
  rw [readRows_append, Proc.bind_ok run]
  change (readRow rt _ >>= fun _ => readRow rt _ >>= fun _ => pure ()) _ = _
  rw [Proc.bind_ok (opens_run rt where_opens q'), Proc.bind_ok added]
  rfl

/-! ## What is stored -/

theorem Stored.attributes {r : Reading} {s : DatasetSection} (h : Stored rt r s) :
    attributesOf rt r.attributeBuf = .ok s.query.select := by
  obtain ⟨t, run⟩ := h.selectLoaded
  unfold attributesOf
  rw [run]
  dsimp only
  rw [if_neg]
  simpa using h.select_ne

theorem Stored.constraints {r : Reading} {s : DatasetSection} (h : Stored rt r s) (bit : r.complete .whereTag = true) :
    constraintsOf rt r.whereBuf = .ok s.whereSet := by
  have loaded := h.whereLoaded
  rw [if_pos bit] at loaded
  obtain ⟨t, run⟩ := loaded
  unfold constraintsOf
  rw [run]

/-- A section with all marks is stored if its parts can be loaded. -/
theorem stored_of {q : Reading} (marks : ∀ part ∈ requirements, q.complete part = true)
    (wheres : q.complete .whereTag = true → ∃ cs, constraintsOf rt q.whereBuf = .ok cs) {as : SQLAttributeSetByName}
    (attributes : attributesOf rt q.attributeBuf = .ok as) :
    ∃ r s, addNewSection rt q = .ok () r ∧ Stored rt q s ∧ r.dataset = q.dataset ++ [s] := by
  obtain ⟨r, -, run⟩ := addNewSection_end rt q
  obtain ⟨s', ended⟩ : ∃ s', endOf rt q = .ok s' := by
    unfold endOf
    obtain ⟨s', loaded⟩ : ∃ s', whereEnd rt q = .ok s' := by
      unfold whereEnd
      split
      · rename_i bit
        obtain ⟨cs, load⟩ := wheres bit
        rw [load]
        exact ⟨_, rfl⟩
      · exact ⟨_, rfl⟩
    rw [loaded]
    change ∃ s, selectEnd rt q s' = .ok s
    rw [selectEnd_marked rt marks, attributes]
    exact ⟨_, rfl⟩
  rw [ended] at run
  obtain ⟨s, stored, dataset, -⟩ := addNewSection_ok run
  exact ⟨r, s, run, stored, dataset⟩

/-- What rows inside a section leave alone. -/
theorem readRows_inside {rows : List Str} {r r' : Reading} (others : ∀ row ∈ rows, isSectionTag row = false)
    (run : readRows rt rows r = .ok () r') : r'.start = r.start ∧ r'.dataset = r.dataset := by
  induction rows generalizing r with
  | nil =>
    cases run
    exact ⟨rfl, rfl⟩
  | cons row rows ih =>
    obtain ⟨⟨⟩, r₁, first, rest⟩ := Proc.of_bind_ok run
    obtain ⟨-, start, dataset⟩ := readRow_inside (others row List.mem_cons_self) first
    obtain ⟨start', dataset'⟩ := ih (fun x mem => others x (List.mem_cons_of_mem _ mem)) rest
    exact ⟨start'.trans start, dataset'.trans dataset⟩

/-- The rows, a `[section]` row and the rows of a section. -/
def sectionBehind (early rows : List Str) : Str := ['\n'].intercalate (early ++ "[section]".toList :: rows)

/-- A section that is stored on its own is stored as it is behind rows that decide nothing. -/
theorem Local.stored {c : SQLTextContainer} {early rows : List Str} (others : ∀ row ∈ early, isSectionTag row = false)
    (inside : ∀ row ∈ rows, isSectionTag row = false) (nl : ∀ row ∈ early ++ "[section]".toList :: rows, '\n' ∉ row)
    (reads : Local rt c (sectionBehind early rows)) {vars : Vars} (made : defineAll rt early .leaf = .ok vars)
    {q₀ r₀ : Reading} {s : DatasetSection} (own : readRows rt rows (opening vars) = .ok () q₀)
    (ended : addNewSection rt q₀ = .ok () r₀) (dataset : r₀.dataset = [s]) :
    ∃ r q, readRows rt early (begin .fromTag c) = .ok () r ∧
      readRows rt rows ({ r with start := false }.setPart .sectionTag) = .ok () q ∧ Stored rt q s := by
  have alone : rows.splitOnP isSectionTag = [rows] := List.splitOnP_eq_singleton fun row mem => by simp [inside row mem]
  have stored : sectionsOf rt [rows] vars = .ok [s] := by
    rw [← alone]
    have run : readSection rt rows (opening vars) = .ok () r₀ := (Proc.bind_ok own).trans ended
    rcases sections_run rt rows vars with ⟨r, sections, run', dataset', same⟩ | ⟨_, _, r, run', -⟩
    · obtain ⟨-, rfl⟩ := EStateM.Result.ok.inj (run.symm.trans run')
      rw [same, ← dataset', dataset]
    · cases run.symm.trans run'
  have answers := reads .fromTag
  rw [read_eq, sectionBehind, List.splitOn_intercalate '\n' nl (by simp)] at answers
  have split : (early ++ "[section]".toList :: rows).splitOnP isSectionTag = [early, rows] := by
    rw [List.splitOnP_append_cons _ _ section_tagged, alone, List.splitOnP_eq_singleton fun row mem => by simp [others row mem]]
    rfl
  have some : (early ++ "[section]".toList :: rows).any isSectionTag = true :=
    List.any_eq_true.2 ⟨_, List.mem_append_right _ List.mem_cons_self, section_tagged⟩
  rw [localSections_some split, made, some] at answers
  change Answers c (sectionsOf rt [rows] vars) _ _ at answers
  rw [stored, scan_append] at answers
  cases run : readRows rt early (begin .fromTag c) with
  | error fault r =>
    rw [Proc.bind_error run] at answers
    cases answers
  | ok u r =>
    obtain ⟨start, kept⟩ := readRows_inside others run
    have opened : readRow rt "[section]".toList r = .ok () ({ r with start := false }.setPart .sectionTag) := by
      rw [readRow_eq, isSectionTag_iff.1 section_tagged]
      simp only [partTracking_run, if_true, start, begin]
    rw [Proc.bind_ok run] at answers
    change Answers c _ _ (answer (((readRow rt _ >>= fun _ => readRows rt rows) >>= fun _ => finish rt) r)) at answers
    rw [bind_assoc, Proc.bind_ok opened] at answers
    cases run' : readRows rt rows ({ r with start := false }.setPart .sectionTag) with
    | error fault q =>
      rw [Proc.bind_error run'] at answers
      cases answers
    | ok u q =>
      refine ⟨r, q, rfl, run', ?_⟩
      obtain ⟨start', kept'⟩ := readRows_inside inside run'
      rw [Proc.bind_ok run'] at answers
      unfold finish at answers
      rw [Proc.get_bind, start'] at answers
      change Answers c _ _ (answer ((addNewSection rt >>= fun _ => pure true) q)) at answers
      cases last : addNewSection rt q with
      | error fault r' =>
        rw [Proc.bind_error last] at answers
        cases answers
      | ok u r' =>
        obtain ⟨s', stored', dataset', -⟩ := addNewSection_ok last
        rw [Proc.bind_ok last] at answers
        cases answers with
        | stored same =>
          have whole : q.dataset = c.dataset := kept'.trans kept
          have last' : c.dataset ++ [s'] = c.dataset ++ [s] := by
            rw [← whole, ← dataset', whole]
            exact same
          obtain rfl : s' = s := List.singleton_inj.1 (List.append_cancel_left last')
          exact stored'

/-! ## What the rows in front leave -/

theorem nameRows_inside {s : Str} (literal : isLiteral s = true) : ∀ row ∈ nameRows s, isSectionTag row = false := by
  intro row mem
  simp only [nameRows, List.mem_append, List.mem_cons, List.not_mem_nil, or_false] at mem
  rcases mem with mem | rfl | rfl | rfl | rfl
  · exact pairs_others _ row mem
  · exact opens_other from_opens
  · exact literal_other t_literal
  · exact opens_other select_opens
  · exact literal_other literal

theorem nameRows_lines {s : Str} (line : '\n' ∉ s) : ∀ row ∈ nameRows s, '\n' ∉ row := by
  intro row mem
  simp only [nameRows, List.mem_append, List.mem_cons, List.not_mem_nil, or_false] at mem
  rcases mem with mem | rfl | rfl | rfl | rfl
  · exact pairs_lines _ row mem
  · decide
  · decide
  · decide
  · exact line

theorem sectionBehind_rows {early rows : List Str} (early_lines : ∀ row ∈ early, '\n' ∉ row) (lines : ∀ row ∈ rows, '\n' ∉ row) :
    (sectionBehind early rows).splitOn '\n' = early ++ "[section]".toList :: rows := by
  refine List.splitOn_intercalate '\n' ?_ (by simp)
  intro row mem
  rcases List.mem_append.1 mem with mem | mem
  · exact early_lines row mem
  · rcases List.mem_cons.1 mem with rfl | mem
    · decide
    · exact lines row mem

/-- Each file that starts with these rows is read as its sections are on their own. -/
def AllLocal (rt : Runtime) (c : SQLTextContainer) (early : List Str) : Prop :=
  ∀ text, earlyRows (text.splitOn '\n') = early → (text.splitOn '\n').any isSectionTag = true → Local rt c text

section Observed
variable {c : SQLTextContainer} {early : List Str} {vars : Vars}

theorem opening_both (vars : Vars) : Both (opening vars) := fun bit => by cases bit

/-- A section of the second kind, or of the first, is stored as it is on its own. -/
theorem AllLocal.stored (reads : AllLocal rt c early) (others : ∀ row ∈ early, isSectionTag row = false)
    (early_lines : ∀ row ∈ early, '\n' ∉ row) (made : defineAll rt early .leaf = .ok vars) {rows : List Str}
    (inside : ∀ row ∈ rows, isSectionTag row = false) (lines : ∀ row ∈ rows, '\n' ∉ row) {q₀ r₀ : Reading} {s : DatasetSection}
    (own : readRows rt rows (opening vars) = .ok () q₀) (ended : addNewSection rt q₀ = .ok () r₀) (dataset : r₀.dataset = [s]) :
    ∃ r q, readRows rt early (begin .fromTag c) = .ok () r ∧
      readRows rt rows ({ r with start := false }.setPart .sectionTag) = .ok () q ∧ Stored rt q s := by
  have split := sectionBehind_rows early_lines lines
  refine Local.stored others inside ?_ (reads _ ?_ ?_) made own ended dataset
  · rw [← split]
    exact fun row mem => split_lines mem
  · rw [split]
    exact takeWhile_tag others section_tagged
  · rw [split]
    exact List.any_eq_true.2 ⟨_, List.mem_append_right _ List.mem_cons_self, section_tagged⟩

/-- Behind rows that decide nothing a `[select]` row names what it names alone, and the text of `[from]` and
the `[other]` rows are those of the section. -/
theorem AllLocal.names (reads : AllLocal rt c early) (others : ∀ row ∈ early, isSectionTag row = false)
    (early_lines : ∀ row ∈ early, '\n' ∉ row) (made : defineAll rt early .leaf = .ok vars) {s : Str} (literal : isLiteral s = true)
    (line : '\n' ∉ s) {as : SQLAttributeSetByName} (named : attributesOf rt (rowText s) = .ok as) :
    ∃ r, readRows rt early (begin .fromTag c) = .ok () r ∧ attributesOf rt (r.attributeBuf ++ rowText s) = .ok as ∧
      r.newSection.query.fromText = [] ∧ r.newSection.other = .leaf := by
  obtain ⟨q₀, own, alone⟩ := nameRows_run rt literal (q := opening vars) rfl
  obtain ⟨r₀, sec, ended, stored₀, dataset⟩ : ∃ r₀ sec, addNewSection rt q₀ = .ok () r₀ ∧ Stored rt q₀ sec ∧
      r₀.dataset = q₀.dataset ++ [sec] := by
    have names : attributesOf rt q₀.attributeBuf = .ok as := by
      rw [alone.attributeBuf]
      exact named
    refine stored_of (alone.marks (opening_both vars)) (fun bit => ?_) names
    rw [alone.whereBit] at bit
    cases bit
  rw [alone.leaves.2] at dataset
  obtain ⟨r, q, run, run', stored⟩ := reads.stored others early_lines made (nameRows_inside literal) (nameRows_lines line)
    own ended dataset
  obtain ⟨q', run'', behind'⟩ := nameRows_run rt literal (q := { r with start := false }.setPart .sectionTag) rfl
  obtain ⟨-, rfl⟩ := EStateM.Result.ok.inj (run'.symm.trans run'')
  refine ⟨r, run, ?_, ?_, ?_⟩
  · have first := stored.attributes
    have second := stored₀.attributes
    rw [behind'.attributeBuf] at first
    rw [alone.attributeBuf] at second
    exact first.trans (second.symm.trans named)
  · have first : sec.query.fromText = q.newSection.query.fromText := congrArg (fun s => s.query.fromText) stored.others
    have second : sec.query.fromText = q₀.newSection.query.fromText := congrArg (fun s => s.query.fromText) stored₀.others
    rw [behind'.fromText] at first
    rw [alone.fromText] at second
    exact List.append_cancel_right (first.symm.trans second)
  · have first : sec.other = q.newSection.other := congrArg (fun s => s.other) stored.others
    have second : sec.other = q₀.newSection.other := congrArg (fun s => s.other) stored₀.others
    rw [behind'.other] at first
    rw [alone.other] at second
    exact first.symm.trans second

theorem askRows_inside {row : Str} (literal : isLiteral row = true) : ∀ x ∈ askRows row, isSectionTag x = false := by
  intro x mem
  rcases List.mem_append.1 mem with mem | mem
  · exact nameRows_inside x_literal x mem
  · rcases List.mem_cons.1 mem with rfl | mem
    · exact opens_other where_opens
    · rw [List.mem_singleton.1 mem]
      exact literal_other literal

theorem askRows_lines {row : Str} (line : '\n' ∉ row) : ∀ x ∈ askRows row, '\n' ∉ x := by
  intro x mem
  rcases List.mem_append.1 mem with mem | mem
  · exact nameRows_lines (by decide) x mem
  · rcases List.mem_cons.1 mem with rfl | mem
    · decide
    · rw [List.mem_singleton.1 mem]
      exact line

/-- And a `[where]` row gives the conditions that it gives alone. -/
theorem AllLocal.conditions (reads : AllLocal rt c early) (others : ∀ row ∈ early, isSectionTag row = false)
    (early_lines : ∀ row ∈ early, '\n' ∉ row) (made : defineAll rt early .leaf = .ok vars) {row : Str}
    (literal : isLiteral row = true) (line : '\n' ∉ row) {cs : SQLConstraintSet} (asked : constraintsOf rt (rowText row) = .ok cs) :
    ∃ r, readRows rt early (begin .fromTag c) = .ok () r ∧ constraintsOf rt (r.whereBuf ++ rowText row) = .ok cs := by
  obtain ⟨q₀, own, alone⟩ := askRows_run rt literal (q := opening vars) rfl
  obtain ⟨as, named⟩ := x_attributes rt
  have buffer : (appendRow row .whereTag (q₀.setPart .whereTag)).whereBuf = rowText row :=
    congrArg (· ++ rowText row) alone.whereBuf
  obtain ⟨r₀, sec, ended, stored₀, dataset⟩ : ∃ r₀ sec, addNewSection rt (appendRow row .whereTag (q₀.setPart .whereTag)) = .ok () r₀ ∧
      Stored rt (appendRow row .whereTag (q₀.setPart .whereTag)) sec ∧ r₀.dataset = q₀.dataset ++ [sec] := by
    have names : attributesOf rt (appendRow row .whereTag (q₀.setPart .whereTag)).attributeBuf = .ok as := by
      change attributesOf rt q₀.attributeBuf = .ok as
      rw [alone.attributeBuf]
      exact named
    refine stored_of (fun part mem => ?_) (fun _ => ⟨cs, ?_⟩) names
    · exact mark_complete _ (alone.marks (opening_both vars) part mem)
    · rw [buffer]
      exact asked
  rw [alone.leaves.2] at dataset
  obtain ⟨r, q, run, run', stored⟩ := reads.stored others early_lines made (askRows_inside literal) (askRows_lines line)
    own ended dataset
  obtain ⟨q', run'', behind'⟩ := askRows_run rt literal (q := { r with start := false }.setPart .sectionTag) rfl
  obtain ⟨-, rfl⟩ := EStateM.Result.ok.inj (run'.symm.trans run'')
  refine ⟨r, run, ?_⟩
  have buffer' : (appendRow row .whereTag (q'.setPart .whereTag)).whereBuf = r.whereBuf ++ rowText row :=
    congrArg (· ++ rowText row) behind'.whereBuf
  have first := stored.constraints (by simp [appendRow, Reading.mark, Completion.put])
  have second := stored₀.constraints (by simp [appendRow, Reading.mark, Completion.put])
  rw [buffer'] at first
  rw [buffer] at second
  exact first.trans (second.symm.trans asked)

end Observed

/-! ## Rows that are not calm -/

/-- Texts of `[from]` and rows of `[other]` stay up to the end of the section. -/
theorem readRow_kept {row : Str} {r r' : Reading} (inside : isSectionTag row = false) (run : readRow rt row r = .ok () r') :
    (r'.newSection.query.fromText = [] → r.newSection.query.fromText = []) ∧
      (r'.newSection.other = .leaf → r.newSection.other = .leaf) := by
  cases readRow_effect run with
  | idle => exact ⟨id, id⟩
  | definition => exact ⟨id, id⟩
  | @part text => cases partOf text <;> exact ⟨id, id⟩
  | first kind => exact absurd (isSectionTag_iff.2 kind) (by simp [inside])
  | next kind => exact absurd (isSectionTag_iff.2 kind) (by simp [inside])
  | parameter kind made at' found set =>
    have apart := setParameter_apart set
    rw [apart.query, apart.other]
    exact ⟨id, id⟩
  | @added row' kind made at' =>
    have texts : DatasetPart.fromTag ∈ tagParts ∧ DatasetPart.otherTag ∈ tagParts := by decide
    constructor
    · intro none
      by_cases here : r.readingPart = .fromTag
      · rw [here] at none
        exact (List.append_eq_nil_iff.1 none).1
      · rw [← none]
        exact (rowAction_untouched r.readingPart row' r texts.1 (Ne.symm here)).2.symm
    · intro none
      by_cases here : r.readingPart = .otherTag
      · rw [here] at none
        cases found : regexec regKeyVal (rowStr row') with
        | none =>
          simp only [rowAction, found] at none
          exact none
        | some m =>
          simp only [rowAction, found] at none
          exact absurd none (insert_ne_leaf _)
      · rw [← none]
        exact (rowAction_untouched r.readingPart row' r texts.2 (Ne.symm here)).2.symm

theorem readRows_kept {rows : List Str} {r r' : Reading} (others : ∀ row ∈ rows, isSectionTag row = false)
    (run : readRows rt rows r = .ok () r') : (r'.newSection.query.fromText = [] → r.newSection.query.fromText = []) ∧
      (r'.newSection.other = .leaf → r.newSection.other = .leaf) := by
  induction rows generalizing r with
  | nil =>
    cases run
    exact ⟨id, id⟩
  | cons row rows ih =>
    obtain ⟨⟨⟩, r₁, first, rest⟩ := Proc.of_bind_ok run
    obtain ⟨texts, pairs⟩ := readRow_kept (others row List.mem_cons_self) first
    obtain ⟨texts', pairs'⟩ := ih (fun x mem => others x (List.mem_cons_of_mem _ mem)) rest
    exact ⟨texts ∘ texts', pairs ∘ pairs'⟩

/-- Rows that start in `[from]` and leave neither a text of it nor a row of `[other]` are calm, if
what they leave in the buffers is not noticed. -/
theorem calm_of {part : Option DatasetPart} {rows : List Str} {r r' : Reading}
    (others : ∀ row ∈ rows, isSectionTag row = false) (opened : ∀ q, part = some q → q ∈ openParts)
    (at' : r.readingPart = part.getD .fromTag) (run : readRows rt rows r = .ok () r')
    (texts : r'.newSection.query.fromText = []) (pairs : r'.newSection.other = .leaf) (inert : Inert r'.whereBuf.str)
    (gap : Gap r'.attributeBuf.str) : Calm rt part r.vars r.whereBuf r.attributeBuf rows := by
  induction rows generalizing part r with
  | nil =>
    cases run
    exact .done inert gap
  | cons row rows ih =>
    have other := others row List.mem_cons_self
    have later := fun x mem => others x (List.mem_cons_of_mem _ mem)
    obtain ⟨⟨⟩, r₁, first, rest⟩ := Proc.of_bind_ok run
    cases readRow_effect first with
    | idle kind => exact .idle kind (ih later opened at' rest)
    | @definition m vars kind made => exact .definition kind made (ih (r := { r with vars }) later opened at' rest)
    | @part text kind =>
      refine .tag kind ?_
      cases named : partOf text with
      | none =>
        rw [named] at rest
        exact ih later opened at' rest
      | some p =>
        rw [named] at rest
        exact ih (r := r.setPart p) later (fun _ same => Option.some.inj same ▸ partOf_mem named) rfl rest
    | first kind => exact absurd (isSectionTag_iff.2 kind) (by simp [other])
    | next kind => exact absurd (isSectionTag_iff.2 kind) (by simp [other])
    | parameter kind made here found set =>
      rw [at'] at here
      cases part with
      | none => cases here
      | some q =>
        obtain rfl : q = .sectionTag := here
        exact absurd (opened _ rfl) (by decide)
    | @added row' kind made here =>
      obtain ⟨texts₁, pairs₁⟩ := readRows_kept later rest
      have leaves : Leaves r (rowAction rt r.readingPart row' r) := (rowAction_leaves _ _ r).1
      have inFrom : r.readingPart ≠ .fromTag := by
        intro here'
        have none := texts₁ texts
        rw [here'] at none
        exact append_row_ne _ row' none
      cases part with
      | none => exact absurd at' inFrom
      | some q =>
        have at'' : r.readingPart = q := at'
        have mem := opened q rfl
        have next : Calm rt (some q) _ _ _ rows := ih later opened (leaves.part.trans at') rest
        rw [leaves.vars, at''] at next
        simp only [openParts, List.mem_cons, List.not_mem_nil, or_false] at mem
        rcases mem with rfl | rfl | rfl | rfl
        · exact .attributes kind made next
        · exact absurd at'' inFrom
        · exact .wheres kind made next
        · cases found : regexec regKeyVal (rowStr row') with
          | none =>
            have same : rowAction rt .otherTag row' r = r := by simp only [rowAction, found]
            rw [same] at next
            exact .free kind made found next
          | some m =>
            have none := pairs₁ pairs
            rw [at''] at none
            simp only [rowAction, found] at none
            exact absurd none (insert_ne_leaf _)

/-- Rows that change no section of any file are calm. -/
theorem AllLocal.calm {c : SQLTextContainer} {early : List Str} (reads : AllLocal rt c early)
    (others : ∀ row ∈ early, isSectionTag row = false) (lines : ∀ row ∈ early, '\n' ∉ row) : EarlyCalm rt c early := by
  intro vars made
  obtain ⟨as, named⟩ := x_attributes rt
  obtain ⟨r, run, -, texts, pairs⟩ := reads.names others lines made x_literal (by decide) named
  have opened : ∀ q, (none : Option DatasetPart) = some q → q ∈ openParts := nofun
  refine calm_of others opened rfl run texts pairs ?_ ?_
  · refine inert_of_kept rt fun row literal line cs asked => ?_
    obtain ⟨r', run', kept⟩ := reads.conditions others lines made literal line asked
    obtain ⟨-, rfl⟩ := EStateM.Result.ok.inj (run.symm.trans run')
    exact kept
  · refine gap_of_kept rt fun row literal line as' named' => ?_
    obtain ⟨r', run', kept, -⟩ := reads.names others lines made literal line named'
    obtain ⟨-, rfl⟩ := EStateM.Result.ok.inj (run.symm.trans run')
    exact kept

/-! ## Reading a file -/

/-- **Sections are local** for every file that starts with rows of these if and only if the rows are calm:
it is read as its sections are on their own, each of its own rows and the variables defined in front,
whatever value `reading_part` starts with. The texts an earlier call left in the buffers are part of
the condition. A file without a section never gets to the tag that resets nothing; it is read for each
value if and only if its rows pass. -/
theorem read_local (rt : Runtime) (c : SQLTextContainer) (text : Str) :
    ((text.splitOn '\n').any isSectionTag = true →
      (AllLocal rt c (earlyRows (text.splitOn '\n')) ↔ EarlyCalm rt c (earlyRows (text.splitOn '\n')))) ∧
    ((text.splitOn '\n').any isSectionTag = false →
      (Local rt c text ↔
        ∀ vars, defineAll rt (text.splitOn '\n') .leaf = .ok vars → Passes rt none .leaf (text.splitOn '\n'))) := by
  refine ⟨fun _ => ⟨fun reads => ?_, fun calm text' same some => ?_⟩, fun without => local_without without⟩
  · apply reads.calm (earlyRows_others _)
    intro row mem
    exact split_lines (List.takeWhile_subset _ mem)
  · rw [← same] at calm
    exact calm.reads some

/-- `sample` behind a note and a blank row of `[select]`. -/
def noted : Str := "[other]\nnotes\n[select]\n  \n".toList ++ sample

theorem noted_literal : ∀ row ∈ ["notes".toList, "  ".toList], isLiteral row = true := by decide +kernel

theorem notes_literal : isLiteral "notes".toList = true := noted_literal _ List.mem_cons_self

theorem blank_literal : isLiteral "  ".toList = true := noted_literal _ (List.mem_cons_of_mem _ List.mem_cons_self)

theorem noted_rows : noted.splitOn '\n' = ["[other]".toList, "notes".toList, "[select]".toList, "  ".toList] ++
    "[section]".toList :: (sample.splitOn '\n').tail := by rfl

theorem noted_section : (noted.splitOn '\n').any isSectionTag = true := by
  rw [noted_rows]
  exact List.any_eq_true.2 ⟨_, List.mem_append_right _ List.mem_cons_self, section_tagged⟩

theorem noted_calm : EarlyCalm (.reuse 1) .fresh (earlyRows (noted.splitOn '\n')) := by
  have others : ∀ row ∈ ["[other]".toList, "notes".toList, "[select]".toList, "  ".toList], isSectionTag row = false := by
    intro row mem
    simp only [List.mem_cons, List.not_mem_nil, or_false] at mem
    rcases mem with rfl | rfl | rfl | rfl
    · exact opens_other other_opens
    · exact literal_other notes_literal
    · exact opens_other select_opens
    · exact literal_other blank_literal
  have free : regexec regKeyVal (rowStr "notes".toList) = none := by decide +kernel
  obtain ⟨notes, made⟩ := literal_data notes_literal
  obtain ⟨blank, made'⟩ := literal_data blank_literal
  obtain ⟨_, other, other_part⟩ := opens_tag other_opens
  obtain ⟨_, select, select_part⟩ := opens_tag select_opens
  intro vars _
  rw [noted_rows, takeWhile_tag others section_tagged]
  refine .tag other ?_
  rw [other_part]
  refine .free notes (made _) free (.tag select ?_)
  rw [select_part]
  refine .attributes blank (made' _) (.done inert_nil ?_)
  exact ⟨0, List.replicate 3 ' ', by decide, fun c mem => List.eq_of_mem_replicate mem⟩

/-- The notes are calm, so that the sections behind them are local. -/
theorem noted_local : Local (.reuse 1) .fresh noted :=
  ((read_local (.reuse 1) .fresh noted).1 noted_section).2 noted_calm noted rfl noted_section

/-- A section without a `[from]`, alone and behind a row of no part. -/
def withoutFrom : Str := "[section]\napi=a\nserver=s\n[select]\nx".toList

def behindRow : Str := "t\n".toList ++ withoutFrom

/-- A row in front of the first section completes a section that is not complete on its own,
if `reading_part` happens to start as `[from]`. -/
theorem early_row_counts :
    returned (read (.reuse 1) .fromTag (some behindRow) .fresh) = some true ∧
      returned (read (.reuse 1) .sectionTag (some behindRow) .fresh) = none ∧
      returned (read (.reuse 1) .fromTag (some withoutFrom) .fresh) = none := by
  refine ⟨?_, ?_, ?_⟩ <;> decide +kernel

end SQLTextContainer

end SqlHandler
