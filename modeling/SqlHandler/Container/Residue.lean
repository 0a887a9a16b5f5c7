import SqlHandler.Container.Parts

/-!
# Texts left in the buffers

`_where` and `_attribute` are members of the container, and `addNewSection` alone empties
them. A scan that starts with texts in them runs beside the one that starts without, each
part read behind what lies in its buffer (`behind`), and takes the same way as long as
what is made of the parts is the same (`Unnoticed`).
-/

namespace SqlHandler
open Posix Text Stl

namespace SQLTextContainer
variable (rt : Runtime)

/-! ## The end of a section -/

/-- The error of a section without a required part. -/
def missingFault : Fault := .error ⟨.besError,
  "SQL Handler: Unable to complete dataset scan. Section has missing elements.".toList⟩

/-- What the end of a section makes of the text of `[where]`. -/
def constraintsOf (t : Text) : Except Fault SQLConstraintSet :=
  match SQLQuery.loadConstraints rt.shape t with
  | .ok cs _ => .ok cs
  | .error fault _ => .error fault

/-- And of the text of `[select]`, which has to name something. -/
def attributesOf (t : Text) : Except Fault SQLAttributeSetByName :=
  match SQLQuery.loadAttributes rt.shape t with
  | .ok as _ => if as.toList.isEmpty then .error missingFault else .ok as
  | .error fault _ => .error fault

/-- The section with its `[select]` part, if nothing that is required is missing. -/
def selectEnd (r : Reading) (s : DatasetSection) : Except Fault DatasetSection :=
  (if r.complete .selectTag then attributesOf rt r.attributeBuf else .error missingFault).bind fun as =>
    if [DatasetPart.sectionTag, .api, .server, .fromTag].all r.complete then
      .ok { s with query := { s.query with select := as } }
    else .error missingFault

/-- The section with its `[where]` part, if it has one. -/
def whereEnd (r : Reading) : Except Fault DatasetSection :=
  if r.complete .whereTag then (constraintsOf rt r.whereBuf).map r.newSection.setWhere else .ok r.newSection

/-- The section `addNewSection` stores. -/
def endOf (r : Reading) : Except Fault DatasetSection := (whereEnd rt r).bind (selectEnd rt r)

/-- What it leaves in `_attribute`. -/
def attributeLeft (r : Reading) : Text :=
  if r.complete .selectTag then
    match SQLQuery.loadAttributes rt.shape r.attributeBuf with
    | .ok _ _ => []
    | .error _ t => t
  else r.attributeBuf

/-- What it leaves in the buffers, whether it stores the section or not. -/
def endLeft (r : Reading) : Text × Text :=
  if r.complete .whereTag then
    match SQLQuery.loadConstraints rt.shape r.whereBuf with
    | .ok _ _ => ([], attributeLeft rt r)
    | .error _ t => (t, r.attributeBuf)
  else (r.whereBuf, attributeLeft rt r)

/-- The state behind the end of a section. -/
structure Ended (r r' : Reading) : Prop where
  wheres : r'.whereBuf = (endLeft rt r).1
  attributes : r'.attributeBuf = (endLeft rt r).2
  dataset : r'.dataset = r.dataset ++ (match endOf rt r with | .ok s => [s] | .error _ => [])
  start : r'.start = r.start
  vars : r'.vars = r.vars

/-- The check of the marks at the end of `addNewSection`. -/
def checkMarks : Proc Reading Unit := do
  if requirements.all (← get).complete then
    modify fun r => { r with dataset := r.dataset ++ [r.newSection] }
  else throw missingFault

theorem addNewSection_eq : addNewSection rt = (do addWhere rt; addSelect rt; checkMarks) := rfl

theorem checkMarks_run (r : Reading) : checkMarks r =
    if requirements.all r.complete then .ok () { r with dataset := r.dataset ++ [r.newSection] }
    else .error missingFault r := by
  unfold checkMarks
  rw [Proc.get_bind]
  split <;> rfl

/-- The `[where]` part is loaded, or its error ends the section. -/
theorem addWhere_end (r : Reading) :
    (∃ fault t, r.complete .whereTag = true ∧ SQLQuery.loadConstraints rt.shape r.whereBuf = .error fault t ∧
      addWhere rt r = .error fault { r with whereBuf := t }) ∨
    ∃ r', addWhere rt r = .ok () r' ∧
      whereEnd rt r = .ok r'.newSection ∧
      (r.complete .whereTag = true → ∃ cs t, SQLQuery.loadConstraints rt.shape r.whereBuf = .ok cs t) ∧
      r'.whereBuf = (if r.complete .whereTag then [] else r.whereBuf) ∧
      (∀ part, part ≠ .whereTag → r'.complete part = r.complete part) ∧ r'.attributeBuf = r.attributeBuf ∧
      r'.dataset = r.dataset ∧ r'.start = r.start ∧ r'.vars = r.vars := by
  rw [addWhere_run]
  unfold whereEnd
  cases bit : r.complete .whereTag with
  | false => exact .inr ⟨r, rfl, rfl, nofun, rfl, fun _ _ => rfl, rfl, rfl, rfl, rfl⟩
  | true =>
    cases run : SQLQuery.loadConstraints rt.shape r.whereBuf with
    | error fault t => exact .inl ⟨fault, t, rfl, rfl, rfl⟩
    | ok cs t =>
      right
      obtain ⟨section', attributes, dataset, start⟩ := putWhere_section cs r
      refine ⟨putWhere cs r, rfl, ?_, ?_, ?_, ?_, attributes, dataset, start, ?_⟩
      · simp only [constraintsOf, run, if_true, section']
        rfl
      · exact fun _ => ⟨cs, t, rfl⟩
      · unfold putWhere
        split <;> rfl
      · intro part ne
        exact putWhere_complete cs r ne
      · unfold putWhere
        split <;> rfl

theorem putAttributes_left (as : SQLAttributeSetByName) (r : Reading) :
    (putAttributes as r).whereBuf = r.whereBuf ∧ (putAttributes as r).attributeBuf = [] ∧
      (putAttributes as r).vars = r.vars := by
  unfold putAttributes
  split <;> exact ⟨rfl, rfl, rfl⟩

/-- The `[select]` part is loaded and the marks are checked, or an error ends the section. -/
theorem addSelect_end (r : Reading) : ∃ r', r'.whereBuf = r.whereBuf ∧ r'.attributeBuf = attributeLeft rt r ∧
    r'.start = r.start ∧ r'.vars = r.vars ∧
    match selectEnd rt r r.newSection with
    | .ok s => (addSelect rt >>= fun _ => checkMarks) r = .ok () r' ∧ r'.dataset = r.dataset ++ [s]
    | .error fault => (addSelect rt >>= fun _ => checkMarks) r = .error fault r' ∧ r'.dataset = r.dataset := by
  have ran := addSelect_run rt r
  unfold selectEnd attributeLeft attributesOf
  cases bit : r.complete .selectTag with
  | false =>
    rw [bit] at ran
    refine ⟨r, rfl, rfl, rfl, rfl, ?_, rfl⟩
    rw [Proc.bind_ok ran, checkMarks_run, if_neg]
    simp [requirements, bit]
  | true =>
    cases load : SQLQuery.loadAttributes rt.shape r.attributeBuf with
    | error fault t =>
      rw [bit, load] at ran
      exact ⟨{ r with attributeBuf := t }, rfl, rfl, rfl, rfl, Proc.bind_error ran, rfl⟩
    | ok as t =>
      rw [bit, load] at ran
      obtain ⟨section', dataset, start⟩ := putAttributes_section as r
      obtain ⟨wheres, attributes, vars⟩ := putAttributes_left as r
      by_cases empty : as.toList.isEmpty = true
      · -- the bit of `[select]` is withdrawn
        have withdrawn : (putAttributes as r).complete .selectTag = false := by
          simp [putAttributes, empty, Completion.put]
        have marks : ¬ requirements.all (putAttributes as r).complete = true := by simp [requirements, withdrawn]
        refine ⟨putAttributes as r, wheres, attributes, start, vars, ?_⟩
        simp only [empty, if_true]
        refine ⟨?_, dataset⟩
        rw [Proc.bind_ok ran, checkMarks_run, if_neg marks]
      · have kept : (putAttributes as r).complete = r.complete := by
          unfold putAttributes
          rw [if_neg empty]
          rfl
        have marks : requirements.all (putAttributes as r).complete =
          [DatasetPart.sectionTag, .api, .server, .fromTag].all r.complete := by
          rw [kept]
          simp [requirements, bit]
        by_cases whole : [DatasetPart.sectionTag, .api, .server, .fromTag].all r.complete = true
        · refine ⟨{ putAttributes as r with dataset := (putAttributes as r).dataset ++ [(putAttributes as r).newSection] },
            wheres, attributes, start, vars, ?_⟩
          simp only [if_neg empty, if_true]
          change match (if _ then _ else _ : Except Fault DatasetSection) with | .ok s => _ | .error fault => _
          rw [if_pos whole]
          refine ⟨?_, ?_⟩
          · rw [Proc.bind_ok ran, checkMarks_run, if_pos (marks.trans whole)]
          · simp only [section', dataset]
        · refine ⟨putAttributes as r, wheres, attributes, start, vars, ?_⟩
          simp only [if_neg empty, if_true]
          change match (if _ then _ else _ : Except Fault DatasetSection) with | .ok s => _ | .error fault => _
          rw [if_neg whole]
          refine ⟨?_, dataset⟩
          rw [Proc.bind_ok ran, checkMarks_run, if_neg (by rw [marks]; exact whole)]

theorem selectEnd_congr {r r' : Reading} (attributes : r'.attributeBuf = r.attributeBuf)
    (marks : ∀ part, part ≠ .whereTag → r'.complete part = r.complete part) (s : DatasetSection) :
    selectEnd rt r' s = selectEnd rt r s ∧ attributeLeft rt r' = attributeLeft rt r := by
  have select := marks .selectTag (by decide)
  have others : [DatasetPart.sectionTag, .api, .server, .fromTag].all r'.complete =
      [DatasetPart.sectionTag, .api, .server, .fromTag].all r.complete := by
    simp [marks]
  unfold selectEnd attributeLeft
  rw [attributes, select, others]
  exact ⟨rfl, rfl⟩

/-- What `addNewSection` does, whether it stores the section or not. -/
theorem addNewSection_end (r : Reading) : ∃ r', Ended rt r r' ∧ addNewSection rt r = match endOf rt r with
    | .ok _ => .ok () r'
    | .error fault => .error fault r' := by
  rw [addNewSection_eq]
  rcases addWhere_end rt r with ⟨fault, t, bit, load, ran⟩ |
    ⟨r₁, ran, loaded, returned, wheres, marks, attributes, dataset, start, vars⟩
  · have ended : endOf rt r = .error fault := by
      simp only [endOf, whereEnd, bit, if_true, constraintsOf, load]
      rfl
    refine ⟨{ r with whereBuf := t }, ⟨?_, ?_, ?_, rfl, rfl⟩, ?_⟩
    · simp only [endLeft, bit, if_true, load]
    · simp only [endLeft, bit, if_true, load]
    · rw [ended, List.append_nil]
    · rw [ended, Proc.bind_error ran]
  · obtain ⟨same, left⟩ := selectEnd_congr rt attributes marks r₁.newSection
    have ended : endOf rt r = selectEnd rt r₁ r₁.newSection := by
      unfold endOf
      rw [loaded, same]
      rfl
    have lefts : endLeft rt r = (r₁.whereBuf, attributeLeft rt r₁) := by
      unfold endLeft
      rw [left, wheres]
      cases bit : r.complete .whereTag with
      | false => rfl
      | true =>
        obtain ⟨cs, t, load⟩ := returned bit
        simp only [if_true, load]
    obtain ⟨r₂, wheres₂, attributes₂, start₂, vars₂, rest⟩ := addSelect_end rt r₁
    rw [Proc.bind_ok ran, ended]
    rw [← wheres₂, ← attributes₂] at lefts
    refine ⟨r₂, ⟨?_, ?_, ?_, start₂.trans start, vars₂.trans vars⟩, ?_⟩
    · rw [lefts]
    · rw [lefts]
    · rw [ended, ← dataset]
      split at rest
      · exact rest.2
      · rw [List.append_nil]
        exact rest.2
    · split at rest
      · exact rest.1
      · exact rest.1

/-! ## The texts of parts -/

/-- The text of a part and the variables, behind one more row. -/
def takeRow (s : Text × Vars) (row : Str) : Except Fault (Text × Vars) :=
  match rowKind row with
  | .definition m => (defined rt row m s.2).map fun vars => (s.1, vars)
  | .data => (substituteRow s.2 row).map fun row' => (s.1 ++ rowText row', s.2)
  | _ => .ok s

def isDefinition (row : Str) : Bool :=
  match rowKind row with
  | .definition _ => true
  | _ => false

/-- A row that a `[where]` or `[select]` part takes, or a definition. -/
def IsPartRow (row : Str) : Prop := '\n' ∉ row ∧ (isDefinition row = true ∨ isData row = true)

/-- What rows can give to a part, and the variables behind them. -/
def PartText (t : Text) (vars : Vars) : Prop :=
  ∃ rows : List Str, (∀ row ∈ rows, IsPartRow row) ∧ rows.foldlM (takeRow rt) ([], .leaf) = .ok (t, vars)

theorem PartText.nil : PartText rt [] .leaf := ⟨[], by simp, rfl⟩

variable {rt} in
theorem PartText.take {t t' : Text} {vars vars' : Vars} {row : Str} (h : PartText rt t vars) (part : IsPartRow row)
    (step : takeRow rt (t, vars) row = .ok (t', vars')) : PartText rt t' vars' := by
  obtain ⟨rows, parts, run⟩ := h
  refine ⟨rows ++ [row], ?_, ?_⟩
  · intro x mem
    rcases List.mem_append.1 mem with mem | mem
    · exact parts x mem
    · exact List.mem_singleton.1 mem ▸ part
  · rw [List.foldlM_append, run]
    change (takeRow rt (t, vars) row >>= pure) = _
    rw [step]
    rfl

theorem takeRow_definition {row : Str} {t b : Text} {s : Text × Vars} {vars : Vars} (definition : isDefinition row = true)
    (step : takeRow rt (t, vars) row = .ok s) : takeRow rt (b, vars) row = .ok (b, s.2) := by
  unfold isDefinition at definition
  unfold takeRow at step ⊢
  cases kind : rowKind row with
  | definition m =>
    simp only [kind] at step ⊢
    cases made : defined rt row m vars with
    | error fault =>
      rw [made] at step
      cases step
    | ok vars' =>
      rw [made] at step
      cases step
      rfl
  | _ => simp [kind] at definition

theorem takeRow_other {row : Str} {t : Text} {s : Text × Vars} {vars : Vars} (other : isDefinition row = false)
    (step : takeRow rt (t, vars) row = .ok s) : s.2 = vars := by
  unfold isDefinition at other
  unfold takeRow at step
  cases kind : rowKind row with
  | definition m => simp [kind] at other
  | data =>
    simp only [kind] at step
    cases made : substituteRow vars row with
    | error fault =>
      rw [made] at step
      cases step
    | ok row' =>
      rw [made] at step
      cases step
      rfl
  | _ =>
    simp only [kind] at step
    cases step
    rfl

/-- The definitions alone make the same variables. -/
theorem takeRows_definitions {rows : List Str} {t b : Text} {s : Text × Vars} {vars : Vars}
    (run : rows.foldlM (takeRow rt) (t, vars) = .ok s) :
    (rows.filter isDefinition).foldlM (takeRow rt) (b, vars) = .ok (b, s.2) := by
  induction rows generalizing t vars with
  | nil =>
    cases run
    rfl
  | cons row rows ih =>
    rw [List.foldlM_cons] at run
    cases step : takeRow rt (t, vars) row with
    | error fault =>
      rw [step] at run
      cases run
    | ok s₁ =>
      rw [step] at run
      obtain ⟨t₁, vars₁⟩ := s₁
      cases definition : isDefinition row with
      | true =>
        rw [List.filter_cons_of_pos definition, List.foldlM_cons, takeRow_definition rt definition step]
        exact ih run
      | false =>
        obtain rfl : vars₁ = vars := takeRow_other rt definition step
        rw [List.filter_cons_of_neg (by simp [definition])]
        exact ih run

variable {rt} in
theorem PartText.cleared {t : Text} {vars : Vars} (h : PartText rt t vars) : PartText rt [] vars := by
  obtain ⟨rows, parts, run⟩ := h
  exact ⟨rows.filter isDefinition, fun row mem => parts row (List.mem_filter.1 mem).1, takeRows_definitions rt run⟩

/-- The buffers hold the texts of parts, those of marked ones not empty. -/
structure Unmixed (r : Reading) : Prop where
  wheres : PartText rt r.whereBuf r.vars
  attributes : PartText rt r.attributeBuf r.vars
  whereBit : r.complete .whereTag = true → r.whereBuf ≠ []
  selectBit : r.complete .selectTag = true → r.attributeBuf ≠ []

theorem begin_unmixed (unset : DatasetPart) (dataset : List DatasetSection) : Unmixed rt (begin unset ⟨[], [], dataset⟩) :=
  ⟨.nil rt, .nil rt, nofun, nofun⟩

variable {rt} in
theorem Unmixed.define {r : Reading} (h : Unmixed rt r) {row : Str} {m : Match} {vars : Vars} (nl : '\n' ∉ row)
    (kind : rowKind row = .definition m) (made : defined rt row m r.vars = .ok vars) : Unmixed rt { r with vars } := by
  have part : IsPartRow row := ⟨nl, .inl (by simp [isDefinition, kind])⟩
  have step : ∀ t, takeRow rt (t, r.vars) row = .ok (t, vars) := by
    intro t
    simp only [takeRow, kind, made]
    rfl
  exact ⟨h.wheres.take part (step _), h.attributes.take part (step _), h.whereBit, h.selectBit⟩

variable {rt} in
theorem Unmixed.untouched {r r' : Reading} (h : Unmixed rt r) (wheres : Untouched .whereTag r r')
    (attributes : Untouched .selectTag r r') (vars : r'.vars = r.vars) : Unmixed rt r' := by
  refine ⟨?_, ?_, ?_, ?_⟩
  · rw [wheres.2.1, vars]
    exact h.wheres
  · rw [attributes.2.1, vars]
    exact h.attributes
  · rw [wheres.2.1, wheres.1 _ (by decide)]
    exact h.whereBit
  · rw [attributes.2.1, attributes.1 _ (by decide)]
    exact h.selectBit

variable {rt} in
theorem PartText.append {t : Text} {vars : Vars} (h : PartText rt t vars) {row row' : Str} (nl : '\n' ∉ row)
    (kind : rowKind row = .data) (made : substituteRow vars row = .ok row') : PartText rt (t ++ rowText row') vars := by
  refine h.take ⟨nl, .inr (by simp [isData, kind])⟩ ?_
  simp only [takeRow, kind, made]
  rfl

theorem append_row_ne (t : Text) (row : Str) : t ++ rowText row ≠ [] := by
  simp [rowText, Text.of]

variable {rt} in
/-- What a data row keeps. -/
theorem Unmixed.data {r r' : Reading} (h : Unmixed rt r) {row : Str} (nl : '\n' ∉ row) (kind : rowKind row = .data)
    (run : readRow rt row r = .ok () r') : Unmixed rt r' := by
  have known : DatasetPart.whereTag ∈ tagParts ∧ DatasetPart.selectTag ∈ tagParts := by decide
  obtain ⟨row', made, ⟨-, m, -, set⟩ | ⟨-, rfl⟩⟩ := data_effect kind run
  · exact h.untouched (setParameter_untouched set known.1 (by decide)) (setParameter_untouched set known.2 (by decide))
      (setParameter_leaves set).vars
  · have vars : (rowAction rt r.readingPart row' r).vars = r.vars := (rowAction_leaves _ _ _).1.vars
    by_cases wheres : r.readingPart = .whereTag
    · rw [wheres]
      exact ⟨h.wheres.append nl kind made, h.attributes, fun _ => append_row_ne _ _, h.selectBit⟩
    · by_cases attributes : r.readingPart = .selectTag
      · rw [attributes]
        exact ⟨h.wheres, h.attributes.append nl kind made, h.whereBit, fun _ => append_row_ne _ _⟩
      · exact h.untouched (rowAction_untouched _ _ _ known.1 (Ne.symm wheres))
          (rowAction_untouched _ _ _ known.2 (Ne.symm attributes)) vars

/-! ## Two scans -/

/-- The scan with texts in front of what its buffers hold. -/
def behind (w a : Text) (r : Reading) : Reading :=
  { r with whereBuf := w ++ r.whereBuf, attributeBuf := a ++ r.attributeBuf }

/-- What is made of a part is the same with the texts in front of it. -/
structure Unnoticed (w a : Text) : Prop where
  wheres : ∀ t vars, t ≠ [] → PartText rt t vars → constraintsOf rt (w ++ t) = constraintsOf rt t
  attributes : ∀ t vars, t ≠ [] → PartText rt t vars → attributesOf rt (a ++ t) = attributesOf rt t

theorem setParameter_behind (w a : Text) (key val : Str) (r : Reading) :
    setParameter key val (behind w a r) = (setParameter key val r).map (behind w a) := by
  unfold setParameter
  simp only [apply_ite (Option.map (behind w a)), apply_ite (behind w a), Option.map_some, Option.map_none]
  rfl

theorem rowAction_behind (w a : Text) (part : DatasetPart) (row : Str) (r : Reading) :
    rowAction rt part row (behind w a r) = behind w a (rowAction rt part row r) := by
  unfold rowAction
  split
  · split <;> rfl
  · unfold appendRow behind
    split
    · simp only [Reading.mark, List.append_assoc]
    · rfl
    · simp only [Reading.mark, List.append_assoc]
    · rfl

theorem rowStep_behind (w a : Text) (row : Str) (r : Reading) :
    rowStep rt row (behind w a r) = (rowStep rt row r).map (behind w a) := by
  unfold rowStep
  have part : (behind w a r).readingPart = r.readingPart := rfl
  rw [part]
  split
  · split
    · rfl
    · rw [setParameter_behind]
      cases setParameter _ _ r <;> rfl
  · rw [rowAction_behind]
    rfl

/-- A row that is not the end of a section. -/
theorem readRow_behind (w a : Text) {row : Str} {r : Reading} (inside : isSectionTag row = true → r.start = true) :
    readRow rt row (behind w a r) = match readRow rt row r with
      | .ok u r' => .ok u (behind w a r')
      | .error fault r' => .error fault (behind w a r') := by
  rw [readRow_eq]
  unfold isSectionTag at inside
  cases kind : rowKind row with
  | idle => rfl
  | definition m =>
    simp only [defineVariable_run]
    have vars : (behind w a r).vars = r.vars := rfl
    rw [vars]
    cases defined rt row m r.vars <;> rfl
  | tag text =>
    rw [kind] at inside
    simp only [partTracking_run]
    split
    · rename_i tag
      have start : r.start = true := inside (by simp [tag])
      have start' : (behind w a r).start = true := start
      rw [if_pos start, if_pos start']
      rfl
    · cases partOf text <;> rfl
  | data =>
    simp only [addRow_run]
    have vars : (behind w a r).vars = r.vars := rfl
    rw [vars]
    cases substituteRow r.vars row with
    | error fault => rfl
    | ok row' =>
      dsimp only
      rw [rowStep_behind]
      cases rowStep rt row' r <;> rfl

variable {rt} in
theorem readRow_unmixed {row : Str} {r r' : Reading} (h : Unmixed rt r) (nl : '\n' ∉ row)
    (inside : isSectionTag row = true → r.start = true) (run : readRow rt row r = .ok () r') : Unmixed rt r' := by
  cases readRow_effect run with
  | idle => exact h
  | definition kind made => exact h.define nl kind made
  | @part text =>
    cases partOf text with
    | none => exact h
    | some part => exact ⟨h.wheres, h.attributes, h.whereBit, h.selectBit⟩
  | first => exact ⟨h.wheres, h.attributes, h.whereBit, h.selectBit⟩
  | next kind start =>
    have started := inside (isSectionTag_iff.2 kind)
    rw [start] at started
    cases started
  | parameter kind => exact h.data nl kind run
  | added kind => exact h.data nl kind run

variable {rt} in
/-- The section that is stored is the same. -/
theorem endOf_behind {w a : Text} (unnoticed : Unnoticed rt w a) {r : Reading} (h : Unmixed rt r) :
    endOf rt (behind w a r) = endOf rt r := by
  have wheres : whereEnd rt (behind w a r) = whereEnd rt r := by
    unfold whereEnd
    change (if r.complete .whereTag then (constraintsOf rt (w ++ r.whereBuf)).map r.newSection.setWhere else _) = _
    split
    · rename_i bit
      rw [unnoticed.wheres _ _ (h.whereBit bit) h.wheres]
    · rfl
  have select : ∀ s, selectEnd rt (behind w a r) s = selectEnd rt r s := by
    intro s
    unfold selectEnd
    change (if r.complete .selectTag then attributesOf rt (a ++ r.attributeBuf) else .error missingFault).bind _ = _
    cases bit : r.complete .selectTag with
    | true =>
      rw [unnoticed.attributes _ _ (h.selectBit bit) h.attributes]
      rfl
    | false => rfl
  unfold endOf
  rw [wheres]
  cases whereEnd rt r with
  | ok s => exact select s
  | error fault => rfl

/-- A section that is stored leaves the buffers of the parts it does not have. -/
theorem endLeft_stored {r : Reading} {s : DatasetSection} (stored : endOf rt r = .ok s) : endLeft rt r =
    (if r.complete .whereTag then [] else r.whereBuf, if r.complete .selectTag then [] else r.attributeBuf) := by
  unfold endOf whereEnd at stored
  unfold endLeft
  have attributes : ∀ s', selectEnd rt r s' = .ok s →
      attributeLeft rt r = if r.complete .selectTag then [] else r.attributeBuf := by
    intro s' ended
    unfold attributeLeft
    split
    · rename_i bit
      unfold selectEnd attributesOf at ended
      rw [bit] at ended
      cases load : SQLQuery.loadAttributes rt.shape r.attributeBuf with
      | ok as t => rfl
      | error fault t =>
        rw [load] at ended
        cases ended
    · rfl
  cases bit : r.complete .whereTag with
  | false =>
    rw [bit] at stored
    rw [attributes _ stored]
    rfl
  | true =>
    rw [bit] at stored
    unfold constraintsOf at stored
    cases load : SQLQuery.loadConstraints rt.shape r.whereBuf with
    | ok cs t =>
      rw [load] at stored
      simp only [if_true]
      rw [attributes _ stored]
    | error fault t =>
      rw [load] at stored
      cases stored

/-- The row that ends a section. -/
theorem readRow_ends {row : Str} (tagged : isSectionTag row = true) {r : Reading} (start : r.start = false) :
    ∃ r', Ended rt r r' ∧ readRow rt row r = match endOf rt r with
      | .ok _ => .ok () ({ r' with complete := .empty, newSection := .blank }.setPart .sectionTag)
      | .error fault => .error fault r' := by
  obtain ⟨r', ended, run⟩ := addNewSection_end rt r
  refine ⟨r', ended, ?_⟩
  rw [readRow_eq, isSectionTag_iff.1 tagged]
  simp only [partTracking_run, if_true, start, Bool.false_eq_true, if_false, run]
  cases endOf rt r <;> rfl

/-- The scans take the same way: both go on, one behind texts that are not noticed, or both
fail, with the same sections. -/
inductive Along {α : Type} : EStateM.Result Fault Reading α → EStateM.Result Fault Reading α → Prop
  | ok {x : α} {w a : Text} {r : Reading} (unnoticed : Unnoticed rt w a) (unmixed : Unmixed rt r) :
      Along (.ok x (behind w a r)) (.ok x r)
  | error {fault : Fault} {r r' : Reading} (dataset : r.dataset = r'.dataset) : Along (.error fault r) (.error fault r')

variable {rt} in
theorem Unnoticed.cleared {w a : Text} (h : Unnoticed rt w a) (wheres attributes : Bool) :
    Unnoticed rt (if wheres then [] else w) (if attributes then [] else a) := by
  constructor
  · cases wheres with
    | true => exact fun _ _ _ _ => rfl
    | false => exact h.wheres
  · cases attributes with
    | true => exact fun _ _ _ _ => rfl
    | false => exact h.attributes

variable {rt} in
/-- The end of a section, in both scans. -/
theorem Ended.along {w a : Text} (unnoticed : Unnoticed rt w a) {r r₁ r₂ : Reading} (h : Unmixed rt r)
    {s : DatasetSection} (stored : endOf rt r = .ok s) (first : Ended rt (behind w a r) r₁) (second : Ended rt r r₂) :
    ∃ w' a', Unnoticed rt w' a' ∧ PartText rt r₂.whereBuf r₂.vars ∧ PartText rt r₂.attributeBuf r₂.vars ∧
      r₁.toSQLTextContainer = ⟨w' ++ r₂.whereBuf, a' ++ r₂.attributeBuf, r₂.dataset⟩ ∧
      r₁.start = r₂.start ∧ r₁.vars = r₂.vars := by
  have same := endOf_behind unnoticed h
  have left := endLeft_stored rt stored
  have left' := endLeft_stored rt (same.trans stored)
  have wheres : r₁.whereBuf = (if r.complete .whereTag then [] else w) ++ r₂.whereBuf := by
    rw [first.wheres, second.wheres, left, left']
    change (if r.complete .whereTag then [] else w ++ r.whereBuf) = _
    cases r.complete .whereTag <;> rfl
  have attributes : r₁.attributeBuf = (if r.complete .selectTag then [] else a) ++ r₂.attributeBuf := by
    rw [first.attributes, second.attributes, left, left']
    change (if r.complete .selectTag then [] else a ++ r.attributeBuf) = _
    cases r.complete .selectTag <;> rfl
  have dataset : r₁.dataset = r₂.dataset := by
    rw [first.dataset, second.dataset, same]
    rfl
  refine ⟨_, _, unnoticed.cleared (r.complete .whereTag) (r.complete .selectTag), ?_, ?_, ?_,
    first.start.trans second.start.symm, first.vars.trans second.vars.symm⟩
  · rw [second.wheres, second.vars, left]
    dsimp only
    split
    · exact h.wheres.cleared
    · exact h.wheres
  · rw [second.attributes, second.vars, left]
    dsimp only
    split
    · exact h.attributes.cleared
    · exact h.attributes
  · rw [← wheres, ← attributes, ← dataset]

theorem readRow_along {w a : Text} (unnoticed : Unnoticed rt w a) {r : Reading} (h : Unmixed rt r) {row : Str}
    (nl : '\n' ∉ row) : Along rt (readRow rt row (behind w a r)) (readRow rt row r) := by
  by_cases inside : isSectionTag row = true → r.start = true
  · rw [readRow_behind rt w a inside]
    cases run : readRow rt row r with
    | ok u r' => exact .ok unnoticed (readRow_unmixed h nl inside run)
    | error fault r' => exact .error rfl
  · obtain ⟨tagged, start⟩ := Classical.not_imp.1 inside
    obtain ⟨r₁, first, run⟩ := readRow_ends rt tagged (r := behind w a r) (by simpa [behind] using start)
    obtain ⟨r₂, second, run'⟩ := readRow_ends rt tagged (r := r) (by simpa using start)
    rw [run, run', endOf_behind unnoticed h]
    cases stored : endOf rt r with
    | error fault =>
      refine .error ?_
      rw [first.dataset, second.dataset, endOf_behind unnoticed h]
      rfl
    | ok s =>
      obtain ⟨w', a', unnoticed', wheres, attributes, container, start', vars⟩ :=
        Ended.along unnoticed h stored first second
      have same : { r₁ with complete := .empty, newSection := .blank }.setPart .sectionTag =
          behind w' a' ({ r₂ with complete := .empty, newSection := .blank }.setPart .sectionTag) := by
        simp only [Reading.setPart, behind, container, start', vars]
      dsimp only
      rw [same]
      exact .ok unnoticed' ⟨wheres, attributes, fun bit => (by cases bit), fun bit => (by cases bit)⟩

theorem readRows_along {rows : List Str} (nl : ∀ row ∈ rows, '\n' ∉ row) {w a : Text} (unnoticed : Unnoticed rt w a)
    {r : Reading} (h : Unmixed rt r) : Along rt (readRows rt rows (behind w a r)) (readRows rt rows r) := by
  induction rows generalizing w a r with
  | nil => exact .ok unnoticed h
  | cons row rows ih =>
    change Along rt ((readRow rt row >>= fun _ => readRows rt rows) _) ((readRow rt row >>= fun _ => readRows rt rows) _)
    have step := readRow_along rt unnoticed h (nl row List.mem_cons_self)
    revert step
    generalize first : readRow rt row (behind w a r) = x, second : readRow rt row r = y
    rintro (⟨unnoticed', h'⟩ | dataset)
    · rw [Proc.bind_ok first, Proc.bind_ok second]
      exact ih (fun x mem => nl x (List.mem_cons_of_mem _ mem)) unnoticed' h'
    · rw [Proc.bind_error first, Proc.bind_error second]
      exact .error dataset

/-- What a call answers or throws, and the sections behind it. -/
def outcome {α : Type} : EStateM.Result Fault Reading α → Except Fault α × List DatasetSection
  | .ok x r => (.ok x, r.dataset)
  | .error fault r => (.error fault, r.dataset)

theorem finish_along {w a : Text} (unnoticed : Unnoticed rt w a) {r : Reading} (h : Unmixed rt r) :
    outcome (finish rt (behind w a r)) = outcome (finish rt r) := by
  unfold finish
  rw [Proc.get_bind, Proc.get_bind]
  have start : (behind w a r).start = r.start := rfl
  rw [start]
  split
  · rfl
  · obtain ⟨r₁, first, run⟩ := addNewSection_end rt (behind w a r)
    obtain ⟨r₂, second, run'⟩ := addNewSection_end rt r
    have same := endOf_behind unnoticed h
    have dataset : r₁.dataset = r₂.dataset := by
      rw [first.dataset, second.dataset, same]
      rfl
    rw [same] at run
    cases ended : endOf rt r with
    | ok s =>
      rw [ended] at run run'
      rw [Proc.bind_ok run, Proc.bind_ok run']
      exact congrArg (Except.ok true, ·) dataset
    | error fault =>
      rw [ended] at run run'
      rw [Proc.bind_error run, Proc.bind_error run']
      exact congrArg (Except.error fault, ·) dataset

/-- A scan behind texts that are not noticed ends as the one without them. -/
theorem scan_along {rows : List Str} (nl : ∀ row ∈ rows, '\n' ∉ row) {w a : Text} (unnoticed : Unnoticed rt w a)
    {r : Reading} (h : Unmixed rt r) : outcome (scan rt rows (behind w a r)) = outcome (scan rt rows r) := by
  change outcome ((readRows rt rows >>= fun _ => finish rt) _) = outcome ((readRows rt rows >>= fun _ => finish rt) _)
  have along := readRows_along rt nl unnoticed h
  revert along
  generalize first : readRows rt rows (behind w a r) = x, second : readRows rt rows r = y
  rintro (⟨unnoticed', h'⟩ | dataset)
  · rw [Proc.bind_ok first, Proc.bind_ok second]
    exact finish_along rt unnoticed' h'
  · rw [Proc.bind_error first, Proc.bind_error second]
    exact congrArg (Except.error _, ·) dataset

end SQLTextContainer

end SqlHandler
