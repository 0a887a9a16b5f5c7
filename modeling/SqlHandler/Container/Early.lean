import SqlHandler.Container.RoundTrip

/-!
# Rows in front of the first section

The first `[section]` row resets nothing: the marks, the section under construction and the
buffers are those that the rows in front of it leave, and these go to the part `reading_part`
happens to name until a tag opens one. What a section behind such rows does not notice is a
row without text for it: an idle row, a definition, a tag, a free form row of `[other]`, and
rows of `[where]` and `[select]` that leave a text in which nothing begins (`Calm`). Behind
calm rows the scan runs beside the one of the sections alone (`ahead`).
-/

namespace SqlHandler
open Posix Text Stl

/-! ## Letters of attributes -/

/-- An attribute has a letter that is no comma and no space. -/
theorem AttrForm.letter {s full name : Str} (form : AttrForm s full name) : ∃ c ∈ s, c ≠ ' ' ∧ c ≠ ',' := by
  have last : ∀ p : AttrPath, ∃ c ∈ p.text, c ≠ ' ' ∧ c ≠ ',' := by
    intro p
    obtain ⟨c, rest, same⟩ := List.exists_cons_of_ne_nil p.last_ne
    have inLast : c ∈ p.last := by
      rw [same]
      exact List.mem_cons_self
    have letter := p.last_ok c inLast
    refine ⟨c, List.mem_append_right _ inLast, ?_, ?_⟩
    · rintro rfl
      exact absurd letter (by decide)
    · rintro rfl
      exact absurd letter (by decide)
  cases form with
  | path p =>
    obtain ⟨c, mem, other⟩ := last p
    exact ⟨c, List.mem_append_left _ (List.mem_append_right _ mem), other⟩
  | aliased p =>
    obtain ⟨c, mem, other⟩ := last p
    exact ⟨c, List.mem_append_left _ (List.mem_append_left _ (List.mem_append_right _ mem)), other⟩
  | star => exact ⟨'*', by simp, by decide, by decide⟩

/-- What is recognised in commas and spaces. -/
theorem Gap.letter {a x : Text} (gap : Gap a.str) (mem : x ∈ recognised a) {c : Char} (inside : c ∈ x.str) :
    c = ',' ∨ c = ' ' := by
  have inTexts : x.str ∈ (recognised a).map str := List.mem_map_of_mem mem
  rw [recognised_str] at inTexts
  obtain ⟨y, inScan, text⟩ := List.mem_map.1 inTexts
  have inItem : c ∈ y := by
    rw [← text] at inside
    exact List.mem_of_mem_drop (List.mem_of_mem_take inside)
  obtain ⟨tail, whole⟩ := cStr_prefix a
  have inStr : c ∈ a.str := by
    rw [whole]
    apply List.mem_append_left
    exact (part_sublist (scan_part inScan)).subset inItem
  obtain ⟨k, sp, split, blanks⟩ := gap
  rw [split] at inStr
  rcases List.mem_append.1 inStr with inCommas | inSpaces
  · exact .inl (List.eq_of_mem_replicate inCommas)
  · exact .inr (blanks c inSpaces)

namespace SQLTextContainer
variable (rt : Runtime)

/-! ## Two scans -/

/-- The scan with texts in front of what its buffers hold, and with marks set. -/
def ahead (w a : Text) (marks : Completion) (r : Reading) : Reading :=
  { behind w a r with complete := fun part => marks part || r.complete part }

/-- Marks of the parts with a buffer, and no others. -/
def BufferMarks (marks : Completion) : Prop := ∀ part, part ≠ .whereTag → part ≠ .selectTag → marks part = false

section Ahead
variable {w a : Text} {marks : Completion}

theorem ahead_mark (r : Reading) (part : DatasetPart) : (ahead w a marks r).mark part = ahead w a marks (r.mark part) := by
  have same : Completion.put (fun q => marks q || r.complete q) part true = fun q => marks q || r.complete.put part true q := by
    funext q
    unfold Completion.put
    split
    · rw [Bool.or_true]
    · rfl
  exact congrArg (fun c => { behind w a r with complete := c }) same

theorem ahead_set (r : Reading) (s : DatasetSection) (part : DatasetPart) :
    ((ahead w a marks r).setSection s).mark part = ahead w a marks ((r.setSection s).mark part) :=
  ahead_mark (r.setSection s) part

theorem ahead_complete (r : Reading) (part : DatasetPart) :
    (ahead w a marks r).complete part = (marks part || r.complete part) := rfl

theorem setParameter_ahead (extra : BufferMarks marks) (key val : Str) (r : Reading) :
    setParameter key val (ahead w a marks r) = (setParameter key val r).map (ahead w a marks) := by
  have server : ∀ q : Reading, (ahead w a marks q).complete .server = q.complete .server := by
    intro q
    rw [ahead_complete, extra .server (by decide) (by decide), Bool.false_or]
  have api : ∀ q : Reading, (ahead w a marks q).complete .api = q.complete .api := by
    intro q
    rw [ahead_complete, extra .api (by decide) (by decide), Bool.false_or]
  have section' : (ahead w a marks r).newSection = r.newSection := rfl
  unfold setParameter
  simp only [section', ahead_set, server, api, ahead_mark, apply_ite (Option.map (ahead w a marks)), Option.map_some, Option.map_none,
    apply_ite (ahead w a marks)]

theorem rowAction_ahead (part : DatasetPart) (row : Str) (r : Reading) :
    rowAction rt part row (ahead w a marks r) = ahead w a marks (rowAction rt part row r) := by
  unfold rowAction
  split
  · split
    · exact ahead_set _ _ _
    · rfl
  · unfold appendRow
    split
    · rw [← ahead_mark]
      unfold ahead behind
      simp only [List.append_assoc]
    · exact ahead_set _ _ _
    · rw [← ahead_mark]
      unfold ahead behind
      simp only [List.append_assoc]
    · rfl

theorem rowStep_ahead (extra : BufferMarks marks) (row : Str) (r : Reading) :
    rowStep rt row (ahead w a marks r) = (rowStep rt row r).map (ahead w a marks) := by
  unfold rowStep
  have part : (ahead w a marks r).readingPart = r.readingPart := rfl
  rw [part]
  split
  · split
    · rfl
    · rw [setParameter_ahead extra]
      cases setParameter _ _ r <;> rfl
  · rw [rowAction_ahead]
    rfl

/-- A row that is not the end of a section. -/
theorem readRow_ahead (extra : BufferMarks marks) {row : Str} (inside : isSectionTag row = false) (r : Reading) :
    readRow rt row (ahead w a marks r) = match readRow rt row r with
      | .ok u r' => .ok u (ahead w a marks r')
      | .error fault r' => .error fault (ahead w a marks r') := by
  rw [readRow_eq]
  unfold isSectionTag at inside
  cases kind : rowKind row with
  | idle => rfl
  | definition m =>
    simp only [defineVariable_run]
    have vars : (ahead w a marks r).vars = r.vars := rfl
    rw [vars]
    cases defined rt row m r.vars <;> rfl
  | tag text =>
    rw [kind] at inside
    simp only [partTracking_run]
    rw [if_neg (by simpa using inside), if_neg (by simpa using inside)]
    cases partOf text <;> rfl
  | data =>
    simp only [addRow_run]
    have vars : (ahead w a marks r).vars = r.vars := rfl
    rw [vars]
    cases substituteRow r.vars row with
    | error fault => rfl
    | ok row' =>
      dsimp only
      rw [rowStep_ahead rt extra]
      cases rowStep rt row' r <;> rfl

end Ahead

/-! ## The end of the first section -/

theorem constraintsOf_nil : constraintsOf rt [] = .ok .leaf := by
  unfold constraintsOf
  rw [loadConstraints_nil]

/-- Nothing is named in commas and spaces. -/
theorem gap_alone {a : Text} (gap : Gap a.str) : ∃ fault, attributesOf rt a = .error fault := by
  cases loaded : attributesOf rt a with
  | error fault => exact ⟨fault, rfl⟩
  | ok as =>
    exfalso
    obtain ⟨some, texts, -⟩ := attributesOf_texts loaded
    obtain ⟨b, more, same⟩ := List.exists_cons_of_ne_nil some
    have inRow : b.attr ∈ recognised a := by
      apply texts
      rw [same]
      exact List.mem_cons_self
    obtain ⟨full, name, form⟩ : ∃ full name, AttrForm b.attr.cStr full name := by
      obtain ⟨_, _, _, ⟨only, -⟩ | ⟨-, fault, run⟩⟩ := loadAttributes_cases rt a
      · exact only _ inRow
      · unfold attributesOf at loaded
        rw [run] at loaded
        cases loaded
    obtain ⟨c, mem, notSpace, notComma⟩ := form.letter
    obtain ⟨tail, whole⟩ := cStr_prefix b.attr
    have inText : c ∈ b.attr.str := by
      rw [whole]
      exact List.mem_append_left _ mem
    exact (gap.letter inRow inText).elim notComma notSpace

section Ends
variable {rt} {w a : Text} {marks : Completion}

theorem whereEnd_ahead (inert : Inert w.str) {r : Reading} (buffered : Buffered r) (blank : r.newSection.whereSet = .leaf) :
    whereEnd rt (ahead w a marks r) = whereEnd rt r := by
  have same := constraintsOf_inert rt inert r.whereBuf
  have buffer : (ahead w a marks r).whereBuf = w ++ r.whereBuf := rfl
  have section' : (ahead w a marks r).newSection = r.newSection := rfl
  unfold whereEnd
  rw [ahead_complete, buffer, section', same]
  cases bit : r.complete .whereTag with
  | true => rw [Bool.or_true]
  | false =>
    have kept : r.newSection.setWhere .leaf = r.newSection := by
      rw [← blank]
      rfl
    rw [buffered.wheres bit, constraintsOf_nil, Bool.or_false]
    cases marks .whereTag with
    | true => exact congrArg Except.ok kept
    | false => rfl

theorem selectEnd_ahead (inert : Inert w.str) (gap : Gap a.str) (extra : BufferMarks marks) {r : Reading} (h : Unmixed rt r)
    (buffered : Buffered r) (s : DatasetSection) :
    (∃ s', selectEnd rt (ahead w a marks r) s = .ok s' ∧ selectEnd rt r s = .ok s') ∨
      ∃ fault fault', selectEnd rt (ahead w a marks r) s = .error fault ∧ selectEnd rt r s = .error fault' := by
  have others : [DatasetPart.sectionTag, .api, .server, .fromTag].all (ahead w a marks r).complete =
      [DatasetPart.sectionTag, .api, .server, .fromTag].all r.complete := by
    simp only [List.all_cons, List.all_nil, ahead_complete, extra .sectionTag (by decide) (by decide),
      extra .api (by decide) (by decide), extra .server (by decide) (by decide), extra .fromTag (by decide) (by decide),
      Bool.false_or]
  have buffer : (ahead w a marks r).attributeBuf = a ++ r.attributeBuf := rfl
  unfold selectEnd
  rw [others, ahead_complete, buffer]
  cases bit : r.complete .selectTag with
  | true =>
    have unnoticed := (unnoticed_iff rt).2 ⟨inert, gap⟩
    rw [unnoticed.attributes _ _ (h.selectBit bit) h.attributes, Bool.or_true]
    cases attributesOf rt r.attributeBuf with
    | error fault => exact .inr ⟨fault, fault, rfl, rfl⟩
    | ok as =>
      rw [if_pos rfl]
      simp only [Except.bind]
      split
      · exact .inl ⟨_, rfl, rfl⟩
      · exact .inr ⟨_, _, rfl, rfl⟩
  | false =>
    right
    obtain ⟨fault, alone⟩ := gap_alone rt gap
    rw [buffered.attributes bit, List.append_nil, alone, Bool.or_false]
    cases marks .selectTag with
    | true => exact ⟨fault, missingFault, rfl, rfl⟩
    | false => exact ⟨missingFault, missingFault, rfl, rfl⟩

/-- A section with nothing of the texts in front is stored as it is, or both are not. -/
theorem endOf_ahead (inert : Inert w.str) (gap : Gap a.str) (extra : BufferMarks marks) {r : Reading} (h : Unmixed rt r)
    (buffered : Buffered r) (blank : r.newSection.whereSet = .leaf) :
    (∃ s, endOf rt (ahead w a marks r) = .ok s ∧ endOf rt r = .ok s) ∨
      ∃ fault fault', endOf rt (ahead w a marks r) = .error fault ∧ endOf rt r = .error fault' := by
  unfold endOf
  rw [whereEnd_ahead inert buffered blank]
  cases whereEnd rt r with
  | ok s => exact selectEnd_ahead inert gap extra h buffered s
  | error fault => exact .inr ⟨fault, fault, rfl, rfl⟩

/-- The state behind a stored section: its marks are gone, and of the texts in front is left what was not loaded. -/
theorem Ended.ahead (inert : Inert w.str) (gap : Gap a.str) {r r₁ r₂ : Reading} (h : Unmixed rt r) (buffered : Buffered r)
    {s : DatasetSection} (stored : endOf rt (ahead w a marks r) = .ok s) (stored' : endOf rt r = .ok s)
    (first : Ended rt (ahead w a marks r) r₁) (second : Ended rt r r₂) : ∃ w' a', Unnoticed rt w' a' ∧
      Unmixed rt ({ r₂ with complete := .empty, newSection := .blank }.setPart .sectionTag) ∧
      { r₁ with complete := .empty, newSection := .blank }.setPart .sectionTag =
        behind w' a' ({ r₂ with complete := .empty, newSection := .blank }.setPart .sectionTag) := by
  have unnoticed := (unnoticed_iff rt).2 ⟨inert, gap⟩
  have left := endLeft_stored rt stored
  have left' := endLeft_stored rt stored'
  rw [ahead_complete, ahead_complete] at left
  have wheres : r₁.whereBuf = (if marks .whereTag || r.complete .whereTag then [] else w) ++ r₂.whereBuf := by
    rw [first.wheres, second.wheres, left, left']
    change (if _ then [] else w ++ r.whereBuf) = _
    cases bit : r.complete .whereTag with
    | true => rw [Bool.or_true, if_pos rfl, if_pos rfl, if_pos rfl]; rfl
    | false =>
      rw [buffered.wheres bit, if_neg Bool.false_ne_true, List.append_nil, List.append_nil]
  have attributes : r₁.attributeBuf = (if marks .selectTag || r.complete .selectTag then [] else a) ++ r₂.attributeBuf := by
    rw [first.attributes, second.attributes, left, left']
    change (if _ then [] else a ++ r.attributeBuf) = _
    cases bit : r.complete .selectTag with
    | true => rw [Bool.or_true, if_pos rfl, if_pos rfl, if_pos rfl]; rfl
    | false =>
      rw [buffered.attributes bit, if_neg Bool.false_ne_true, List.append_nil, List.append_nil]
  have dataset : r₁.dataset = r₂.dataset := by
    rw [first.dataset, second.dataset, stored, stored']
    rfl
  have start : r₁.start = r₂.start := first.start.trans second.start.symm
  have vars : r₁.vars = r₂.vars := first.vars.trans second.vars.symm
  have unnoticed' := unnoticed.cleared (marks .whereTag || r.complete .whereTag) (marks .selectTag || r.complete .selectTag)
  generalize (if (marks .whereTag || r.complete .whereTag) = true then [] else w) = w' at wheres unnoticed'
  generalize (if (marks .selectTag || r.complete .selectTag) = true then [] else a) = a' at attributes unnoticed'
  refine ⟨w', a', unnoticed', ?_, ?_⟩
  · refine ⟨?_, ?_, fun bit => (by cases bit), fun bit => (by cases bit)⟩
    · change PartText rt r₂.whereBuf r₂.vars
      rw [second.wheres, second.vars, left']
      dsimp only
      split
      · exact h.wheres.cleared
      · exact h.wheres
    · change PartText rt r₂.attributeBuf r₂.vars
      rw [second.attributes, second.vars, left']
      dsimp only
      split
      · exact h.attributes.cleared
      · exact h.attributes
  · have container : r₁.toSQLTextContainer = ⟨w' ++ r₂.whereBuf, a' ++ r₂.attributeBuf, r₂.dataset⟩ := by
      rw [← wheres, ← attributes, ← dataset]
    simp only [Reading.setPart, behind, container, start, vars]

end Ends

/-- Both scans return the same with the same sections, or both fail. -/
inductive Abreast {α : Type} : EStateM.Result Fault Reading α → EStateM.Result Fault Reading α → Prop
  | ok {x : α} {r r' : Reading} (dataset : r.dataset = r'.dataset) : Abreast (.ok x r) (.ok x r')
  | error {fault fault' : Fault} {r r' : Reading} : Abreast (.error fault r) (.error fault' r')

theorem Abreast.of_outcome {α : Type} {x y : EStateM.Result Fault Reading α} (same : outcome x = outcome y) :
    Abreast x y := by
  cases x with
  | ok a r =>
    cases y with
    | ok b r' =>
      obtain ⟨answers, dataset⟩ := Prod.mk.inj same
      cases answers
      exact .ok dataset
    | error fault r' => cases (Prod.mk.inj same).1
  | error fault r =>
    cases y with
    | ok b r' => cases (Prod.mk.inj same).1
    | error fault' r' => exact .error

/-- What a row inside a section leaves alone. -/
theorem readRow_inside {rt : Runtime} {row : Str} {r r' : Reading} (inside : isSectionTag row = false)
    (run : readRow rt row r = .ok () r') :
    r'.newSection.whereSet = r.newSection.whereSet ∧ r'.start = r.start ∧ r'.dataset = r.dataset := by
  cases readRow_effect run with
  | idle => exact ⟨rfl, rfl, rfl⟩
  | definition => exact ⟨rfl, rfl, rfl⟩
  | @part text => cases partOf text <;> exact ⟨rfl, rfl, rfl⟩
  | first kind => exact absurd (isSectionTag_iff.2 kind) (by simp [inside])
  | next kind => exact absurd (isSectionTag_iff.2 kind) (by simp [inside])
  | parameter kind made at' found set =>
    have leaves := setParameter_leaves set
    exact ⟨congrArg SQLQuery.whereSet (setParameter_query set), leaves.start, leaves.dataset⟩
  | added kind made at' =>
    exact ⟨rowAction_whereSet _ _ r, (rowAction_leaves _ _ r).1.start, (rowAction_leaves _ _ r).1.dataset⟩

theorem scan_cons (row : Str) (rows : List Str) : scan rt (row :: rows) = (do readRow rt row; scan rt rows) := by
  change ((readRow rt row >>= fun _ => readRows rt rows) >>= fun _ => finish rt) = _
  rw [bind_assoc]
  rfl

variable {rt} in
/-- **Texts in which nothing begins change no section.** The scan with them in front, and with marks of their parts,
takes the same way to the end of the first section, which reads them or leaves them behind; from there on the marks
are gone. -/
theorem scan_ahead {rows : List Str} (nl : ∀ row ∈ rows, '\n' ∉ row) {w a : Text} {marks : Completion} (inert : Inert w.str)
    (gap : Gap a.str) (extra : BufferMarks marks) {r : Reading} (h : Unmixed rt r) (buffered : Buffered r)
    (blank : r.newSection.whereSet = .leaf) (start : r.start = false) :
    Abreast (scan rt rows (ahead w a marks r)) (scan rt rows r) := by
  have start' : (ahead w a marks r).start = false := start
  induction rows generalizing r with
  | nil =>
    change Abreast (finish rt (ahead w a marks r)) (finish rt r)
    obtain ⟨r₁, first, run⟩ := addNewSection_end rt (ahead w a marks r)
    obtain ⟨r₂, second, run'⟩ := addNewSection_end rt r
    unfold finish
    rw [Proc.get_bind, Proc.get_bind, start, start', if_neg Bool.false_ne_true]
    rcases endOf_ahead inert gap extra h buffered blank with ⟨s, stored, stored'⟩ | ⟨fault, fault', failed, failed'⟩
    · rw [stored] at run
      rw [stored'] at run'
      rw [Proc.bind_ok run, Proc.bind_ok run']
      apply Abreast.ok
      rw [first.dataset, second.dataset, stored, stored']
      rfl
    · rw [failed] at run
      rw [failed'] at run'
      rw [Proc.bind_error run, Proc.bind_error run']
      exact .error
  | cons row rows ih =>
    have nl' : ∀ row ∈ rows, '\n' ∉ row := fun x mem => nl x (List.mem_cons_of_mem _ mem)
    rw [scan_cons]
    cases tagged : isSectionTag row with
    | true =>
      obtain ⟨r₁, first, run⟩ := readRow_ends rt tagged start'
      obtain ⟨r₂, second, run'⟩ := readRow_ends rt tagged start
      rcases endOf_ahead inert gap extra h buffered blank with ⟨s, stored, stored'⟩ | ⟨fault, fault', failed, failed'⟩
      · rw [stored] at run
        rw [stored'] at run'
        obtain ⟨w', a', unnoticed, unmixed, same⟩ := Ended.ahead inert gap h buffered stored stored' first second
        rw [Proc.bind_ok run, Proc.bind_ok run', same]
        apply Abreast.of_outcome
        exact scan_along rt nl' unnoticed unmixed
      · rw [failed] at run
        rw [failed'] at run'
        rw [Proc.bind_error run, Proc.bind_error run']
        exact .error
    | false =>
      have step := readRow_ahead rt (w := w) (a := a) extra tagged r
      cases run : readRow rt row r with
      | ok u r' =>
        rw [run] at step
        obtain ⟨whereSet, kept, -⟩ := readRow_inside tagged run
        rw [Proc.bind_ok step, Proc.bind_ok run]
        apply ih nl' (readRow_unmixed h (nl row List.mem_cons_self) (by simp [tagged]) run)
          (readRow_buffered tagged run buffered).1
        · rw [whereSet]
          exact blank
        · rw [kept]
          exact start
        · exact kept.trans start
      | error fault r' =>
        rw [run] at step
        rw [Proc.bind_error step, Proc.bind_error run]
        exact .error

/-! ## Calm rows -/

/-- Rows in front of a section of which it notices nothing. `part` is the part a tag has opened, which
is not known in front of the first; `w` and `a` are what the buffers hold, `vars` the variables. -/
inductive Calm : Option DatasetPart → Vars → Text → Text → List Str → Prop
  | done {part : Option DatasetPart} {vars : Vars} {w a : Text} (inert : Inert w.str) (gap : Gap a.str) :
      Calm part vars w a []
  | idle {part : Option DatasetPart} {vars : Vars} {w a : Text} {row : Str} {rows : List Str} (kind : rowKind row = .idle)
      (later : Calm part vars w a rows) : Calm part vars w a (row :: rows)
  | definition {part : Option DatasetPart} {vars vars' : Vars} {w a : Text} {row : Str} {rows : List Str} {m : Match}
      (kind : rowKind row = .definition m) (made : defined rt row m vars = .ok vars') (later : Calm part vars' w a rows) :
      Calm part vars w a (row :: rows)
  | tag {part : Option DatasetPart} {vars : Vars} {w a : Text} {row text : Str} {rows : List Str} (kind : rowKind row = .tag text)
      (later : Calm ((partOf text).or part) vars w a rows) : Calm part vars w a (row :: rows)
  | free {vars : Vars} {w a : Text} {row row' : Str} {rows : List Str} (kind : rowKind row = .data)
      (made : substituteRow vars row = .ok row') (free : regexec regKeyVal (rowStr row') = none)
      (later : Calm (some .otherTag) vars w a rows) : Calm (some .otherTag) vars w a (row :: rows)
  | wheres {vars : Vars} {w a : Text} {row row' : Str} {rows : List Str} (kind : rowKind row = .data)
      (made : substituteRow vars row = .ok row') (later : Calm (some .whereTag) vars (w ++ rowText row') a rows) :
      Calm (some .whereTag) vars w a (row :: rows)
  | attributes {vars : Vars} {w a : Text} {row row' : Str} {rows : List Str} (kind : rowKind row = .data)
      (made : substituteRow vars row = .ok row') (later : Calm (some .selectTag) vars w (a ++ rowText row') rows) :
      Calm (some .selectTag) vars w a (row :: rows)

variable {rt}

/-- A data row of a part other than `[section]`. -/
theorem data_run {row row' : Str} {r : Reading} (kind : rowKind row = .data) (made : substituteRow r.vars row = .ok row')
    {part : DatasetPart} (at' : r.readingPart = part) (ne : part ≠ .sectionTag) :
    readRow rt row r = .ok () (rowAction rt part row' r) := by
  rw [readRow_eq, kind]
  simp only [addRow_run, made]
  rw [rowStep_part rt at' ne]

/-- The state behind calm rows: what they leave is in the buffers and the marks of these. -/
theorem Calm.run {part : Option DatasetPart} {rows : List Str} {r : Reading}
    (calm : Calm rt part r.vars r.whereBuf r.attributeBuf rows) (others : ∀ row ∈ rows, isSectionTag row = false)
    (at' : ∀ q, part = some q → r.readingPart = q) :
    ∃ w' a' marks vars' q, Inert w'.str ∧ Gap a'.str ∧
      (∀ part, part ≠ .whereTag → part ≠ .selectTag → marks part = r.complete part) ∧
      readRows rt rows r = .ok () { r with
        whereBuf := w', attributeBuf := a', complete := marks, vars := vars', readingPart := q } := by
  generalize held : r.vars = vars, held₁ : r.whereBuf = w, held₂ : r.attributeBuf = a at calm ⊢
  induction calm generalizing r with
  | done inert gap =>
    subst held held₁ held₂
    exact ⟨_, _, r.complete, _, r.readingPart, inert, gap, fun _ _ _ => rfl, rfl⟩
  | @idle part vars w a row rows kind later ih =>
    have first : readRow rt row r = .ok () r := by
      rw [readRow_eq, kind]
      rfl
    obtain ⟨w', a', marks, vars', q, inert, gap, extra, run⟩ :=
      ih (fun x mem => others x (List.mem_cons_of_mem _ mem)) at' held held₁ held₂
    exact ⟨w', a', marks, vars', q, inert, gap, extra, (Proc.bind_ok first).trans run⟩
  | @definition part vars vars₁ w a row rows m kind step later ih =>
    have first : readRow rt row r = .ok () { r with vars := vars₁ } := by
      rw [readRow_eq, kind]
      simp only [defineVariable_run, held, step]
    obtain ⟨w', a', marks, vars', q, inert, gap, extra, run⟩ :=
      ih (fun x mem => others x (List.mem_cons_of_mem _ mem)) (r := { r with vars := vars₁ }) at' rfl held₁ held₂
    exact ⟨w', a', marks, vars', q, inert, gap, extra, (Proc.bind_ok first).trans run⟩
  | @tag part vars w a row text rows kind later ih =>
    have other : ¬ text = "[section]".toList := by
      have inside := others row List.mem_cons_self
      unfold isSectionTag at inside
      rw [kind] at inside
      simpa using inside
    have first : readRow rt row r = .ok () (((partOf text).map r.setPart).getD r) := by
      rw [readRow_eq, kind]
      simp only [partTracking_run, if_neg other]
    have later' := fun x mem => others x (List.mem_cons_of_mem _ mem)
    cases opened : partOf text with
    | none =>
      rw [opened] at first ih
      obtain ⟨w', a', marks, vars', q, inert, gap, extra, run⟩ := ih later' at' held held₁ held₂
      exact ⟨w', a', marks, vars', q, inert, gap, extra, (Proc.bind_ok first).trans run⟩
    | some p =>
      rw [opened] at first ih
      obtain ⟨w', a', marks, vars', q, inert, gap, extra, run⟩ :=
        ih later' (r := r.setPart p) (fun _ same => Option.some.inj same) held held₁ held₂
      exact ⟨w', a', marks, vars', q, inert, gap, extra, (Proc.bind_ok first).trans run⟩
  | @free vars w a row row' rows kind subst free later ih =>
    have first : readRow rt row r = .ok () r := by
      rw [data_run kind (held ▸ subst) (at' _ rfl) (by decide)]
      simp only [rowAction, free]
    obtain ⟨w', a', marks, vars', q, inert, gap, extra, run⟩ :=
      ih (fun x mem => others x (List.mem_cons_of_mem _ mem)) at' held held₁ held₂
    exact ⟨w', a', marks, vars', q, inert, gap, extra, (Proc.bind_ok first).trans run⟩
  | @wheres vars w a row row' rows kind subst later ih =>
    have first : readRow rt row r = .ok () ({ r with whereBuf := r.whereBuf ++ rowText row' }.mark .whereTag) :=
      data_run kind (held ▸ subst) (at' _ rfl) (by decide)
    obtain ⟨w', a', marks, vars', q, inert, gap, extra, run⟩ :=
      ih (fun x mem => others x (List.mem_cons_of_mem _ mem)) (r := { r with whereBuf := r.whereBuf ++ rowText row' }.mark .whereTag)
        at' held (congrArg (· ++ rowText row') held₁) held₂
    refine ⟨w', a', marks, vars', q, inert, gap, fun p ne ne' => ?_, (Proc.bind_ok first).trans run⟩
    rw [extra p ne ne']
    simp only [Reading.mark, Completion.put, if_neg ne]
  | @attributes vars w a row row' rows kind subst later ih =>
    have first : readRow rt row r = .ok () ({ r with attributeBuf := r.attributeBuf ++ rowText row' }.mark .selectTag) :=
      data_run kind (held ▸ subst) (at' _ rfl) (by decide)
    obtain ⟨w', a', marks, vars', q, inert, gap, extra, run⟩ :=
      ih (fun x mem => others x (List.mem_cons_of_mem _ mem))
        (r := { r with attributeBuf := r.attributeBuf ++ rowText row' }.mark .selectTag)
        at' held held₁ (congrArg (· ++ rowText row') held₂)
    refine ⟨w', a', marks, vars', q, inert, gap, fun p ne ne' => ?_, (Proc.bind_ok first).trans run⟩
    rw [extra p ne ne']
    simp only [Reading.mark, Completion.put, if_neg ne']

/-! ## Sections behind calm rows -/

/-- The definitions among rows that are read are valid. -/
theorem readRow_vars {row : Str} {r r' : Reading} (inside : isSectionTag row = false) (run : readRow rt row r = .ok () r') :
    rowVars rt row r.vars = .ok r'.vars := by
  unfold rowVars
  cases readRow_effect run with
  | idle kind => rw [kind]
  | definition kind made =>
    rw [kind]
    exact made
  | @part text kind =>
    rw [kind]
    cases partOf text <;> rfl
  | first kind => exact absurd (isSectionTag_iff.2 kind) (by simp [inside])
  | next kind => exact absurd (isSectionTag_iff.2 kind) (by simp [inside])
  | parameter kind made at' found set => rw [kind, (setParameter_leaves set).vars]
  | added kind => rw [kind, (rowAction_leaves _ _ r).1.vars]

theorem readRows_vars {rows : List Str} {r r' : Reading} (others : ∀ row ∈ rows, isSectionTag row = false)
    (run : readRows rt rows r = .ok () r') : defineAll rt rows r.vars = .ok r'.vars := by
  induction rows generalizing r with
  | nil =>
    cases run
    rfl
  | cons row rows ih =>
    obtain ⟨⟨⟩, r₁, first, rest⟩ := Proc.of_bind_ok run
    rw [defineAll, readRow_vars (others row List.mem_cons_self) first]
    exact ih (fun x mem => others x (List.mem_cons_of_mem _ mem)) rest

/-- Variables defined by rows are those of an empty part. -/
theorem partText_defined {rows : List Str} (nl : ∀ row ∈ rows, '\n' ∉ row) {vars vars' : Vars} (h : PartText rt [] vars)
    (made : defineAll rt rows vars = .ok vars') : PartText rt [] vars' := by
  induction rows generalizing vars with
  | nil =>
    cases made
    exact h
  | cons row rows ih =>
    have nl' : ∀ row ∈ rows, '\n' ∉ row := fun x mem => nl x (List.mem_cons_of_mem _ mem)
    rw [defineAll] at made
    cases step : rowVars rt row vars with
    | error fault =>
      rw [step] at made
      cases made
    | ok vars₁ =>
      rw [step] at made
      refine ih nl' ?_ made
      unfold rowVars at step
      split at step
      · rename_i m kind
        apply h.take ⟨nl row List.mem_cons_self, .inl (by simp [isDefinition, kind])⟩
        simp only [takeRow, kind, step]
        rfl
      · cases step
        exact h

/-- The first `[section]` row behind rows that left texts and marks. -/
theorem opened_ahead {c : SQLTextContainer} {tag : Str} (tagged : isSectionTag tag = true) (w a : Text) (marks : Completion)
    (vars : Vars) (part : DatasetPart) :
    readRow rt tag { begin part c with whereBuf := w, attributeBuf := a, complete := marks, vars } =
      .ok () (ahead w a marks (shift c.dataset (opening vars))) := by
  have same : (fun part => marks part || Completion.empty part) = marks := by
    funext part
    exact Bool.or_false _
  rw [readRow_eq, isSectionTag_iff.1 tagged]
  simp only [partTracking_run, begin, if_true]
  simp [ahead, behind, shift, opening, Reading.setPart, SQLTextContainer.fresh, same]

/-- Scans that go abreast give the same answer. -/
theorem Abreast.answers {c : SQLTextContainer} {sections : Except Fault (List DatasetSection)} {b : Bool}
    {x y : EStateM.Result Fault Reading Bool} (abreast : Abreast x y) (h : Answers c sections b (answer y)) :
    Answers c sections b (answer x) := by
  cases abreast with
  | ok dataset =>
    cases h with
    | stored stored => exact .stored (dataset.trans stored)
  | error =>
    cases h with
    | failed => exact .failed

variable (rt) in
/-- From a `[section]` row on the sections are those of their rows. -/
theorem opened_answers (c : SQLTextContainer) (rows : List Str) (vars : Vars) :
    Answers c (sectionsOf rt (rows.splitOnP isSectionTag) vars) true (answer (scan rt rows (shift c.dataset (opening vars)))) := by
  change Answers c _ true (answer ((readRows rt rows >>= fun _ => finish rt) _))
  rw [finish_section]
  have moved := readSection_shift rt c.dataset rows
  rcases sections_run rt rows vars with ⟨r, stored, run, dataset, same⟩ | ⟨fault, fault', r, run, same⟩
  · rw [Proc.bind_ok (moved.ok run), same]
    apply Answers.stored
    rw [← dataset]
    rfl
  · rw [Proc.bind_error (moved.error run), same]
    exact .failed

variable (rt) in
/-- A text read as its sections are on their own, whatever `reading_part` starts with. -/
def Local (c : SQLTextContainer) (text : Str) : Prop :=
  ∀ unset, Answers c (localSections rt (text.splitOn '\n')) ((text.splitOn '\n').any isSectionTag) (read rt unset (some text) c)

variable (rt) in
/-- The rows in front of a section are calm, unless a definition among them is not valid. -/
def EarlyCalm (c : SQLTextContainer) (early : List Str) : Prop :=
  ∀ vars, defineAll rt early .leaf = .ok vars → Calm rt none .leaf c.whereBuf c.attributeBuf early

/-- Rows of a file have no line feed. -/
theorem split_lines {text : Str} {row : Str} (mem : row ∈ text.splitOn '\n') : '\n' ∉ row := by
  intro inside
  have := mem_part mem _ inside
  simp at this

/-- Behind calm rows the sections are read as they are on their own. -/
theorem EarlyCalm.reads {c : SQLTextContainer} {text : Str} (calm : EarlyCalm rt c (earlyRows (text.splitOn '\n')))
    (some : (text.splitOn '\n').any isSectionTag = true) : Local rt c text := by
  intro unset
  have lines : ∀ row ∈ text.splitOn '\n', '\n' ∉ row := fun row mem => split_lines mem
  rw [read_eq, some]
  generalize text.splitOn '\n' = rows at calm some lines
  rcases splitOnP_cases rows with ⟨-, others⟩ | ⟨early, tag, rest, rfl, others, tagged, split⟩
  · have none : rows.any isSectionTag = false := by simpa using others
    rw [some] at none
    cases none
  · rw [takeWhile_tag others tagged] at calm
    rw [localSections_some split, scan_append]
    cases made : defineAll rt early .leaf with
    | error fault =>
      cases run : readRows rt early (begin unset c) with
      | error fault' r =>
        rw [Proc.bind_error run]
        exact .failed
      | ok u r =>
        have defined := readRows_vars others run
        cases made.symm.trans defined
    | ok vars =>
      obtain ⟨w, a, marks, vars', part, inert, gap, extra, run⟩ :=
        Calm.run (r := begin unset c) (calm vars made) others (fun _ same => by cases same)
      obtain rfl : vars = vars' := Except.ok.inj (made.symm.trans (readRows_vars others run))
      change Answers c (sectionsOf rt (rest.splitOnP isSectionTag) vars) true _
      rw [Proc.bind_ok run]
      change Answers c _ true (answer (((readRow rt tag >>= fun _ => readRows rt rest) >>= fun _ => finish rt)
        { begin part c with whereBuf := w, attributeBuf := a, complete := marks, vars }))
      rw [bind_assoc, Proc.bind_ok (opened_ahead tagged w a marks vars part)]
      have defined : PartText rt [] vars :=
        partText_defined (fun row mem => lines row (List.mem_append_left _ mem)) (.nil rt) made
      refine Abreast.answers (scan_ahead ?_ inert gap extra ?_ ?_ rfl rfl) (opened_answers rt c rest vars)
      · intro row mem
        exact lines row (List.mem_append_right _ (List.mem_cons_of_mem _ mem))
      · exact ⟨defined, defined, fun bit => (by cases bit), fun bit => (by cases bit)⟩
      · exact ⟨fun _ => rfl, fun _ => rfl⟩

end SQLTextContainer

end SqlHandler
