import SqlHandler.Container.Dataset
import SqlHandler.Container.Grammar

/-!
# What a row does to a scan

A row is idle, a definition, a tag or a data row, by its letters alone (`rowKind`). The
functions of the scan run on a state with two buffers, a section under construction and
a completion diary; the run lemmas below say what each of them makes of that state, and
the rest of the development uses them in place of the functions.
-/

namespace SqlHandler
open Posix Text Stl

/-! ## The kinds of rows -/

inductive RowKind where
  | idle
  | definition (m : Match)
  | tag (text : Str)
  | data

/-- Which branch of the loop a row takes. -/
def rowKind (row : Str) : RowKind :=
  if row = [] then .idle
  else match regexec regComments (rowStr row) with
    | some _ => .idle
    | none => match regexec regDefVar (rowStr row) with
      | some m => .definition m
      | none => match regexec regTags (rowStr row) with
        | some m => .tag (((m.group 1).getD ⟨0, 0⟩).text row)
        | none => .data

/-- A row holding the tag `[section]`. -/
def isSectionTag (row : Str) : Bool :=
  match rowKind row with
  | .tag text => text == "[section]".toList
  | _ => false

namespace SQLTextContainer
variable (rt : Runtime)

theorem readRow_eq (row : Str) : readRow rt row = match rowKind row with
    | .idle => return ()
    | .definition m => defineVariable rt row m
    | .tag text => partTracking rt text
    | .data => addRow rt row := by
  unfold readRow rowKind
  split
  · rfl
  · cases regexec regComments (rowStr row) with
    | some m => rfl
    | none =>
      cases regexec regDefVar (rowStr row) with
      | some m => rfl
      | none => cases regexec regTags (rowStr row) <;> rfl

theorem readRows_append (rows rows' : List Str) :
    readRows rt (rows ++ rows') = (do readRows rt rows; readRows rt rows') := by
  induction rows with
  | nil => rfl
  | cons row rows ih =>
    funext r
    change (readRow rt row >>= fun _ => readRows rt (rows ++ rows')) r = _
    rw [ih]
    change _ = ((readRow rt row >>= fun _ => readRows rt rows) >>= fun _ => readRows rt rows') r
    cases run : readRow rt row r with
    | ok a t => rw [Proc.bind_ok run]; exact (by
        cases run' : readRows rt rows t with
        | ok b u => rw [Proc.bind_ok run', Proc.bind_ok (by rw [Proc.bind_ok run, run'])]
        | error f u => rw [Proc.bind_error run', Proc.bind_error (by rw [Proc.bind_ok run, run'])])
    | error f t => rw [Proc.bind_error run, Proc.bind_error (Proc.bind_error run)]

/-! ## Definitions and tags -/

/-- The variables after a definition. -/
def defined (row : Str) (m : Match) (vars : Vars) : Except Fault Vars :=
  match m.group 1, m.group 2 with
  | some key, some val =>
    if key.text row = val.text row then
      .error (.error ⟨.besError, "SQL Handler: Unable to define variable with its declaration: ".toList ++ row⟩)
    else .ok (insert rt.shape (byKey Prod.fst) (key.text row, val.text row) vars)
  | _, _ => .error (.error ⟨.besInternalError,
      "SQLTextContainer: row doesn't contain a valid variable definition: ".toList ++ row⟩)

theorem defineVariable_run (row : Str) (m : Match) (r : Reading) : defineVariable rt row m r =
    match defined rt row m r.vars with
    | .ok vars => .ok () { r with vars }
    | .error fault => .error fault r := by
  unfold defineVariable defined
  cases m.group 1 with
  | none => rfl
  | some key =>
    cases m.group 2 with
    | none => rfl
    | some val =>
      simp only
      split <;> rfl

/-- The part a tag other than `[section]` opens. -/
def partOf (tag : Str) : Option DatasetPart :=
  if tag = "[select]".toList then some .selectTag
  else if tag = "[from]".toList then some .fromTag
  else if tag = "[where]".toList then some .whereTag
  else if tag = "[other]".toList then some .otherTag
  else none

theorem partTracking_run (tag : Str) (r : Reading) : partTracking rt tag r =
    if tag = "[section]".toList then
      if r.start then .ok () ({ r with start := false }.setPart .sectionTag)
      else match addNewSection rt r with
        | .ok _ r => .ok () ({ r with complete := .empty, newSection := .blank }.setPart .sectionTag)
        | .error fault r => .error fault r
    else .ok () (((partOf tag).map r.setPart).getD r) := by
  unfold partTracking partOf
  split
  · rw [Proc.get_bind]
    cases r.start with
    | true => rfl
    | false =>
      change (addNewSection rt >>= _) r = _
      cases run : addNewSection rt r with
      | ok a r' => rw [Proc.bind_ok run]; rfl
      | error fault r' => rw [Proc.bind_error run]; rfl
  · split
    · rfl
    · split
      · rfl
      · split
        · rfl
        · split <;> rfl

/-! ## Key and value -/

/-- The text of a span of what was read. -/
theorem row_text_at {row p w t : Str} (h : rowStr row = p ++ w ++ t) :
    (Span.mk p.length (p.length + w.length)).text row = w := by
  have read : Text.cStr (of .dataset row) = p ++ w ++ t := by rw [Text.cStr, str_of, ← h]; rfl
  have := substr_at read
  rwa [str_substr, str_of] at this

/-- What the key group of `_SQLH_DATASET_REG_KEY_VAL` can hold. -/
def IsKeyText (key : Str) : Prop :=
  (∀ c ∈ key, varChar c = true) ∨ key ∈ ["!=".toList, "<=".toList, ">=".toList, "~=".toList, "*".toList]

/-- What its value group can hold. -/
def IsValText (val : Str) : Prop :=
  val ∈ ["==".toList, ">=".toList, "<=".toList, "~=".toList, "!=".toList] ∨ (val ≠ [] ∧ ∀ c ∈ val, keyValChar c = true)

theorem IsValText.ne_nil {val : Str} (h : IsValText val) : val ≠ [] := by
  rcases h with mem | ⟨ne, -⟩
  · rintro rfl
    exact absurd mem (by decide)
  · exact ne

/-- A run of the engine, by its parts; no more of the spaces could stand before the value. -/
theorem exec_keyVal {i : Nat} {w t : Str} {g : Groups} (h : exec regKeyVal i w t = some g) :
    ∃ sp₁ key sp₂ sp₃ val, w = sp₁ ++ (key ++ (sp₂ ++ '=' :: (sp₃ ++ val))) ∧ i = 0 ∧ (∀ c ∈ sp₁, c = ' ') ∧
      (∀ c ∈ sp₂, c = ' ') ∧ (∀ c ∈ sp₃, c = ' ') ∧ IsKeyText key ∧ IsValText val ∧
      g.lookup 1 = some ⟨sp₁.length, sp₁.length + key.length⟩ ∧
      g.lookup 2 = some ⟨(sp₁ ++ (key ++ (sp₂ ++ '=' :: sp₃))).length, (sp₁ ++ (key ++ (sp₂ ++ '=' :: sp₃))).length + val.length⟩ ∧
      ∀ sp v, sp₃ ++ val = sp ++ v → (∀ c ∈ sp, c = ' ') → IsValText v → sp.length ≤ sp₃.length := by
  obtain ⟨bol, w₁, g₁, _, rfl, rfl, h₁, h, -⟩ := exec_seq h
  obtain ⟨sp₁, w₂, _, _, rfl, rfl, h₂, h, -⟩ := exec_seq h
  obtain ⟨key, w₃, gk, _, rfl, rfl, h₃, h, -⟩ := exec_seq h
  obtain ⟨sp₂, w₄, _, _, rfl, rfl, h₄, h, -⟩ := exec_seq h
  obtain ⟨eq, w₅, _, _, rfl, rfl, h₅, h, -⟩ := exec_seq h
  obtain ⟨sp₃, val, _, gv, rfl, rfl, h₆, h₇, longest⟩ := exec_seq h
  obtain ⟨rfl, rfl, rfl⟩ := parses_bol.1 (exec_sound h₁)
  obtain ⟨lead, rfl⟩ := parses_spaces.1 (exec_sound h₂)
  obtain ⟨gk, rfl, keyParse⟩ := parses_group.1 (exec_sound h₃)
  obtain ⟨middle, rfl⟩ := parses_spaces.1 (exec_sound h₄)
  obtain ⟨rfl, rfl⟩ := parses_lit.1 (exec_sound h₅)
  obtain ⟨trail, rfl⟩ := parses_spaces.1 (exec_sound h₆)
  obtain ⟨gv, rfl, valParse⟩ := parses_group.1 (exec_sound h₇)
  have keyText : IsKeyText key ∧ gk = [] := by
    rcases parses_alt.1 keyParse with h | h
    · obtain ⟨letters, rfl⟩ := parses_star_set.1 h
      exact ⟨.inl letters, rfl⟩
    · obtain ⟨mem, rfl⟩ := parses_words.1 h
      exact ⟨.inr mem, rfl⟩
  have valText : IsValText val ∧ gv = [] := by
    rcases parses_alt.1 valParse with h | h
    · obtain ⟨mem, rfl⟩ := parses_words.1 h
      exact ⟨.inl mem, rfl⟩
    · obtain ⟨ne, letters, rfl⟩ := parses_plus_set.1 h
      exact ⟨.inr ⟨ne, letters⟩, rfl⟩
  obtain ⟨keyText, rfl⟩ := keyText
  obtain ⟨valText, rfl⟩ := valText
  refine ⟨sp₁, key, sp₂, sp₃, val, rfl, rfl, lead, middle, trail, keyText, valText, ?_, ?_, ?_⟩
  · simp [List.lookup_cons]
  · simp
    omega
  · intro sp v same spaces text
    by_contra lt
    refine longest sp v same (by omega) ⟨⟨_, parses_spaces.2 ⟨spaces, rfl⟩⟩, ?_⟩
    change Matches _ _ _ _
    rw [matches_group, matches_alt, matches_words, matches_plus_set]
    exact text

/-- The groups of a `KEY=VALUE` row. -/
theorem keyVal_parts {row : Str} {m : Match} (h : regexec regKeyVal (rowStr row) = some m) :
    ∃ sp₁ key sp₂ sp₃ val t k v, rowStr row = sp₁ ++ (key ++ (sp₂ ++ '=' :: (sp₃ ++ val))) ++ t ∧ (∀ c ∈ sp₁, c = ' ') ∧
      (∀ c ∈ sp₂, c = ' ') ∧ (∀ c ∈ sp₃, c = ' ') ∧ IsKeyText key ∧ IsValText val ∧
      m.group 1 = some k ∧ k.text row = key ∧ m.group 2 = some v ∧ v.text row = val := by
  obtain ⟨p, w, t, e, so, -, run⟩ := search_exec h
  obtain ⟨sp₁, key, sp₂, sp₃, val, rfl, start, lead, middle, trail, keyText, valText, group₁, group₂, -⟩ := exec_keyVal run
  obtain rfl : p = [] := List.eq_nil_of_length_eq_zero (by omega)
  rw [List.nil_append] at e
  refine ⟨sp₁, key, sp₂, sp₃, val, t, _, _, e, lead, middle, trail, keyText, valText, group₁, ?_, group₂, ?_⟩
  · have split : rowStr row = sp₁ ++ key ++ (sp₂ ++ '=' :: (sp₃ ++ val) ++ t) := by rw [e]; simp
    exact row_text_at split
  · have split : rowStr row = sp₁ ++ (key ++ (sp₂ ++ '=' :: sp₃)) ++ val ++ t := by rw [e]; simp
    exact row_text_at split

/-- The groups of a `KEY=VALUE` row are set, and its value is not empty. -/
theorem keyVal_found {row : Str} {m : Match} (h : regexec regKeyVal (rowStr row) = some m) :
    ∃ k v, m.group 1 = some k ∧ m.group 2 = some v ∧ v.text row ≠ [] := by
  obtain ⟨_, _, _, _, _, _, k, v, -, -, -, -, -, valText, group₁, -, group₂, rfl⟩ := keyVal_parts h
  exact ⟨k, v, group₁, group₂, valText.ne_nil⟩

/-! ## Data rows -/

/-- What a reserved key does, `none` for another one. -/
def setParameter (key val : Str) (r : Reading) : Option Reading :=
  let s := r.newSection
  if key = "api".toList then
    let r := (r.setSection { s with api := val }).mark .api
    some (if r.complete .server then r.mark .sectionTag else r)
  else if key = "server".toList then
    let r := (r.setSection { s with server := val }).mark .server
    some (if r.complete .api then r.mark .sectionTag else r)
  else if key = "port".toList then some ((r.setSection { s with port := val }).mark .port)
  else if key = "dbname".toList then some ((r.setSection { s with dbname := val }).mark .dbname)
  else if key = "user".toList then some ((r.setSection { s with user := val }).mark .user)
  else if key = "pass".toList then some ((r.setSection { s with pass := val }).mark .pass)
  else none

theorem addParameter_run (row key val : Str) (r : Reading) : addParameter row key val r =
    match setParameter key val r with
    | some r' => .ok () r'
    | none => .error (reservedFault row) r := by
  unfold addParameter setParameter
  rw [Proc.get_bind]
  by_cases api : key = "api".toList
  · simp only [api, if_true]
    rw [Proc.bind_ok (Proc.modify_run _ r), Proc.get_bind]
    split <;> rfl
  · by_cases server : key = "server".toList
    · simp only [server, if_true, if_neg (show ¬ "server".toList = "api".toList by decide)]
      rw [Proc.bind_ok (Proc.modify_run _ r), Proc.get_bind]
      split <;> rfl
    · simp only [api, server, if_false]
      split
      · rfl
      · split
        · rfl
        · split
          · rfl
          · split <;> rfl

/-- What a row does in another part than `[section]`. -/
def rowAction (part : DatasetPart) (row : Str) (r : Reading) : Reading :=
  match part with
  | .otherTag => match regexec regKeyVal (rowStr row) with
    | some m => (r.setSection { r.newSection with
        other := insert rt.shape (byKey Prod.fst)
          (((m.group 1).getD ⟨0, 0⟩).text row, ((m.group 2).getD ⟨0, 0⟩).text row) r.newSection.other }).mark .otherTag
    | none => r
  | part => appendRow row part r

theorem rowAction_append {part : DatasetPart} (h : part ≠ .otherTag) (row : Str) (r : Reading) :
    rowAction rt part row r = appendRow row part r := by
  unfold rowAction
  split
  · exact absurd rfl h
  · rfl

/-- What a row does once its variables are substituted. -/
def rowStep (row : Str) (r : Reading) : Except Fault Reading :=
  match r.readingPart with
  | .sectionTag => match regexec regKeyVal (rowStr row) with
    | none => .error (freeFormFault row)
    | some m =>
      match setParameter (((m.group 1).getD ⟨0, 0⟩).text row) (((m.group 2).getD ⟨0, 0⟩).text row) r with
      | some r' => .ok r'
      | none => .error (reservedFault row)
  | part => .ok (rowAction rt part row r)

/-- A data row substitutes its variables and takes its step. -/
theorem addRow_run (row : Str) (r : Reading) : addRow rt row r =
    match substituteRow r.vars row with
    | .error fault => .error fault r
    | .ok row => match rowStep rt row r with
      | .ok r' => .ok () r'
      | .error fault => .error fault r := by
  unfold addRow
  rw [Proc.get_bind]
  cases substituteRow r.vars row with
  | error fault => rfl
  | ok row =>
    change (match regexec regKeyVal (rowStr row) with
      | some m => addKeyValue rt row m
      | none => addFreeForm row) r = _
    unfold rowStep rowAction
    cases e : regexec regKeyVal (rowStr row) with
    | none =>
      simp only
      unfold addFreeForm
      rw [Proc.get_bind]
      cases r.readingPart <;> simp only [e] <;> rfl
    | some m =>
      obtain ⟨k, v, group₁, group₂, -⟩ := keyVal_found e
      simp only [addKeyValue, group₁, group₂]
      rw [Proc.get_bind]
      cases part : r.readingPart with
      | sectionTag =>
        simp only [addParameter_run, e, group₁, group₂, Option.getD_some]
        cases setParameter (k.text row) (v.text row) r <;> rfl
      | _ =>
        simp only [e, group₁, group₂, Option.getD_some]
        rfl

/-! ## The end of a section -/

/-- The `[where]` part loaded. -/
def putWhere (cs : SQLConstraintSet) (r : Reading) : Reading :=
  let r := { r.setSection (r.newSection.setWhere cs) with whereBuf := [] }
  if cs.toList.isEmpty then { r with complete := r.complete.put .whereTag false } else r

/-- The `[select]` part loaded. -/
def putAttributes (as : SQLAttributeSetByName) (r : Reading) : Reading :=
  let r := { r.putSelect as with attributeBuf := [] }
  if as.toList.isEmpty then { r with complete := r.complete.put .selectTag false } else r

theorem addWhere_run (r : Reading) : addWhere rt r =
    if r.complete .whereTag then
      match SQLQuery.loadConstraints rt.shape r.whereBuf with
      | .ok cs _ => .ok () (putWhere cs r)
      | .error fault t => .error fault { r with whereBuf := t }
    else .ok () r := by
  unfold addWhere
  rw [Proc.get_bind]
  cases r.complete .whereTag with
  | false => rfl
  | true =>
    simp only [if_true]
    cases run : SQLQuery.loadConstraints rt.shape r.whereBuf with
    | error fault t =>
      have zoomed : Proc.zoom (fun r : Reading => r.whereBuf) (fun r t => { r with whereBuf := t })
          (SQLQuery.loadConstraints rt.shape) r = .error fault { r with whereBuf := t } := Proc.zoom_error run
      rw [Proc.bind_error zoomed]
    | ok cs t =>
      have zoomed : Proc.zoom (fun r : Reading => r.whereBuf) (fun r t => { r with whereBuf := t })
          (SQLQuery.loadConstraints rt.shape) r = .ok cs { r with whereBuf := t } := Proc.zoom_ok run
      rw [Proc.bind_ok zoomed, Proc.bind_ok (Proc.modify_run _ _), Proc.get_bind]
      simp only [putWhere]
      split <;> split <;> first | rfl | contradiction

theorem addSelect_run (r : Reading) : addSelect rt r =
    if r.complete .selectTag then
      match SQLQuery.loadAttributes rt.shape r.attributeBuf with
      | .ok as _ => .ok () (putAttributes as r)
      | .error fault t => .error fault { r with attributeBuf := t }
    else .ok () r := by
  unfold addSelect
  rw [Proc.get_bind]
  cases r.complete .selectTag with
  | false => rfl
  | true =>
    simp only [if_true]
    cases run : SQLQuery.loadAttributes rt.shape r.attributeBuf with
    | error fault t =>
      have zoomed : Proc.zoom (fun r : Reading => r.attributeBuf) (fun r t => { r with attributeBuf := t })
          (SQLQuery.loadAttributes rt.shape) r = .error fault { r with attributeBuf := t } := Proc.zoom_error run
      rw [Proc.bind_error zoomed]
    | ok as t =>
      have zoomed : Proc.zoom (fun r : Reading => r.attributeBuf) (fun r t => { r with attributeBuf := t })
          (SQLQuery.loadAttributes rt.shape) r = .ok as { r with attributeBuf := t } := Proc.zoom_ok run
      rw [Proc.bind_ok zoomed, Proc.bind_ok (Proc.modify_run _ _), Proc.get_bind]
      simp only [putAttributes]
      split <;> split <;> first | rfl | contradiction

/-! ## What a row can do -/

/-- What a row that was read did to the state. -/
inductive RowEffect (row : Str) (r : Reading) : Reading → Prop
  | idle (kind : rowKind row = .idle) : RowEffect row r r
  | definition {m : Match} {vars : Vars} (kind : rowKind row = .definition m) (made : defined rt row m r.vars = .ok vars) :
      RowEffect row r { r with vars }
  | part {text : Str} (kind : rowKind row = .tag text) (other : text ≠ "[section]".toList) :
      RowEffect row r (((partOf text).map r.setPart).getD r)
  | first (kind : rowKind row = .tag "[section]".toList) (start : r.start = true) :
      RowEffect row r ({ r with start := false }.setPart .sectionTag)
  | next {r₁ : Reading} (kind : rowKind row = .tag "[section]".toList) (start : r.start = false)
      (stored : addNewSection rt r = .ok () r₁) :
      RowEffect row r ({ r₁ with complete := .empty, newSection := .blank }.setPart .sectionTag)
  | parameter {row' : Str} {m : Match} {r' : Reading} (kind : rowKind row = .data) (made : substituteRow r.vars row = .ok row')
      (at' : r.readingPart = .sectionTag) (found : regexec regKeyVal (rowStr row') = some m)
      (set : setParameter (((m.group 1).getD ⟨0, 0⟩).text row') (((m.group 2).getD ⟨0, 0⟩).text row') r = some r') :
      RowEffect row r r'
  | added {row' : Str} (kind : rowKind row = .data) (made : substituteRow r.vars row = .ok row')
      (at' : r.readingPart ≠ .sectionTag) : RowEffect row r (rowAction rt r.readingPart row' r)

variable {rt}

theorem readRow_effect {row : Str} {r r' : Reading} (run : readRow rt row r = .ok () r') : RowEffect rt row r r' := by
  rw [readRow_eq] at run
  cases kind : rowKind row with
  | idle =>
    rw [kind] at run
    cases run
    exact .idle kind
  | definition m =>
    rw [kind] at run
    simp only [defineVariable_run] at run
    split at run
    · rename_i vars made
      cases run
      exact .definition kind made
    · cases run
  | tag text =>
    rw [kind] at run
    simp only [partTracking_run] at run
    split at run
    · rename_i tagged
      subst tagged
      split at run
      · rename_i start
        cases run
        exact .first kind start
      · rename_i start
        split at run
        · rename_i stored
          cases run
          exact .next kind (by simpa using start) stored
        · cases run
    · rename_i other
      cases run
      exact .part kind other
  | data =>
    rw [kind] at run
    simp only [addRow_run] at run
    split at run
    · cases run
    · rename_i row' made
      split at run
      · rename_i r₁ step
        cases run
        unfold rowStep at step
        split at step
        · rename_i at'
          split at step
          · cases step
          · rename_i m found
            split at step
            · rename_i set
              cases step
              exact .parameter kind made at' found set
            · cases step
        · rename_i at'
          cases step
          exact .added kind made at'
      · cases run

end SQLTextContainer

end SqlHandler
