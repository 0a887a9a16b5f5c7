import SqlHandler.Container.Parts

/-!
# Comments and blank rows

A comment and an empty row are skipped. A row of spaces is neither: it is a data row of the
part that is open, a mistake in `[section]`, text in `[select]`, `[from]` and `[where]`, and
nothing in any other part. Behind a row of `[from]` a further one makes a difference of spaces
only, and states that differ in spaces of their `[from]` texts run alike.
-/

namespace SqlHandler
open Posix Text Stl

/-- An expression whose words all hold a letter finds nothing where the letter is not. -/
theorem regexec_without {r : Regex} {c : Char} (holds : ∀ i w t g, Parses r i w t g → c ∈ w) {s : Str} (absent : c ∉ s) :
    regexec r s = none := by
  unfold regexec
  rw [search_none]
  rintro p w t g rfl parse
  exact absent (List.mem_append_left _ (List.mem_append_right _ (holds _ _ _ _ parse)))

namespace SQLTextContainer
variable {rt : Runtime}

/-! ## The rows -/

/-- Optional spaces, a `#`, anything. -/
def IsComment (row : Str) : Prop := ∃ sp rest, row = sp ++ '#' :: rest ∧ ∀ c ∈ sp, c = ' '

/-- Spaces, or nothing. -/
def IsBlank (row : Str) : Prop := ∀ c ∈ row, c = ' '

theorem IsBlank.without {row : Str} (h : IsBlank row) {c : Char} (ne : c ≠ ' ') : c ∉ row := fun mem => ne (h c mem)

theorem IsBlank.read {row : Str} (h : IsBlank row) : rowStr row = row := by
  have noNul : Char.ofNat 0 ∉ row := h.without (by decide)
  have whole := rowStr_append noNul []
  rwa [List.append_nil, show rowStr [] = [] from rfl, List.append_nil] at whole

theorem nil_idle : rowKind [] = .idle := by
  unfold rowKind
  rw [if_pos rfl]

theorem IsComment.idle {row : Str} (h : IsComment row) : rowKind row = .idle := by
  obtain ⟨sp, rest, rfl, spaces⟩ := h
  have noNul : Char.ofNat 0 ∉ sp ++ ['#'] := by
    intro mem
    rcases List.mem_append.1 mem with mem | mem
    · exact absurd (spaces _ mem) (by decide)
    · exact absurd (List.mem_singleton.1 mem) (by decide)
  have read : rowStr (sp ++ '#' :: rest) = [] ++ (sp ++ ['#']) ++ rowStr rest := by
    rw [List.nil_append, ← rowStr_append noNul]
    simp
  have word : Matches regComments 0 (sp ++ ['#']) (rowStr rest) := by
    simp only [regComments, SqlHandler.spaces, matches_seq, matches_star_lit, matches_lit]
    exact ⟨[], _, rfl, ⟨[], .bol⟩, sp, ['#'], rfl, spaces, rfl⟩
  obtain ⟨g, parse⟩ := word
  unfold rowKind
  rw [if_neg (by simp)]
  cases found : regexec regComments (rowStr (sp ++ '#' :: rest)) with
  | some m => rfl
  | none =>
    rw [read] at found
    exact absurd parse (search_none.1 found [] _ _ g rfl)

theorem regComments_letter (i : Nat) (w t : Str) (g : Groups) (h : Parses regComments i w t g) : '#' ∈ w := by
  have here : Matches regComments i w t := ⟨g, h⟩
  simp only [regComments, matches_seq, matches_lit] at here
  obtain ⟨_, _, rfl, -, _, _, rfl, -, rfl⟩ := here
  simp

theorem regDefVar_letter (i : Nat) (w t : Str) (g : Groups) (h : Parses regDefVar i w t g) : '$' ∈ w := by
  have here : Matches regDefVar i w t := ⟨g, h⟩
  simp only [regDefVar, matches_seq, matches_group, matches_lit] at here
  obtain ⟨_, _, rfl, -, _, _, rfl, -, _, _, rfl, -, _, _, rfl, ⟨_, _, rfl, rfl, -⟩, -⟩ := here
  simp

theorem regVar_letter (i : Nat) (w t : Str) (g : Groups) (h : Parses regVar i w t g) : '$' ∈ w := by
  have here : Matches regVar i w t := ⟨g, h⟩
  simp only [regVar, matches_seq, matches_group, matches_lit] at here
  obtain ⟨_, _, rfl, rfl, -⟩ := here
  simp

theorem regTags_letter (i : Nat) (w t : Str) (g : Groups) (h : Parses regTags i w t g) : '[' ∈ w := by
  have here : Matches regTags i w t := ⟨g, h⟩
  simp only [regTags, matches_seq, matches_group, matches_lit] at here
  obtain ⟨_, _, rfl, -, _, _, rfl, -, _, _, rfl, ⟨_, _, rfl, rfl, -⟩, -⟩ := here
  simp

theorem regKeyVal_letter (i : Nat) (w t : Str) (g : Groups) (h : Parses regKeyVal i w t g) : '=' ∈ w := by
  have here : Matches regKeyVal i w t := ⟨g, h⟩
  simp only [regKeyVal, matches_seq, matches_group, matches_lit] at here
  obtain ⟨_, _, rfl, -, _, _, rfl, -, _, _, rfl, -, _, _, rfl, -, _, _, rfl, rfl, -⟩ := here
  simp

/-- A data row without a variable. -/
def isLiteral (row : Str) : Bool := isData row && (regexec regVar (rowStr row)).isNone

theorem literal_data {row : Str} (literal : isLiteral row = true) :
    rowKind row = .data ∧ ∀ vars, substituteRow vars row = .ok row := by
  unfold isLiteral isData at literal
  rw [Bool.and_eq_true, Option.isNone_iff_eq_none] at literal
  obtain ⟨data, none⟩ := literal
  constructor
  · cases kind : rowKind row with
    | data => rfl
    | _ => simp [kind] at data
  · intro vars
    unfold substituteRow substituteAll
    rw [none]

/-- A row without the letters of a comment, a tag and a variable is one. -/
theorem literal_plain {row : Str} (ne : row ≠ []) (noComment : '#' ∉ row) (noTag : '[' ∉ row) (noVar : '$' ∉ row) :
    isLiteral row = true := by
  have without : ∀ {c : Char}, c ∉ row → c ∉ rowStr row := fun absent mem => absent ((rowStr_front row).mem mem)
  have kind : rowKind row = .data := by
    unfold rowKind
    rw [if_neg ne, regexec_without regComments_letter (without noComment), regexec_without regDefVar_letter (without noVar),
      regexec_without regTags_letter (without noTag)]
  unfold isLiteral isData
  rw [kind, regexec_without regVar_letter (without noVar)]
  rfl

/-- A row of spaces is a data row. -/
theorem IsBlank.data {row : Str} (h : IsBlank row) (ne : row ≠ []) : rowKind row = .data := by
  unfold rowKind
  rw [if_neg ne, h.read, regexec_without regComments_letter (h.without (by decide)),
    regexec_without regDefVar_letter (h.without (by decide)), regexec_without regTags_letter (h.without (by decide))]

theorem IsBlank.substituted {row : Str} (h : IsBlank row) (vars : Vars) : substituteRow vars row = .ok row := by
  unfold substituteRow substituteAll
  rw [h.read, regexec_without regVar_letter (h.without (by decide))]

theorem IsBlank.free {row : Str} (h : IsBlank row) : regexec regKeyVal (rowStr row) = none := by
  rw [h.read]
  exact regexec_without regKeyVal_letter (h.without (by decide))

/-- What a row of spaces does. -/
theorem blank_run {row : Str} (h : IsBlank row) (ne : row ≠ []) (r : Reading) : readRow rt row r =
    if r.readingPart = .sectionTag then .error (freeFormFault row) r
    else if r.readingPart = .otherTag then .ok () r
    else .ok () (appendRow row r.readingPart r) := by
  rw [readRow_eq, h.data ne]
  simp only [addRow_run, h.substituted]
  unfold rowStep rowAction
  cases r.readingPart <;> simp [h.free]

/-! ## Up to spaces in `[from]` -/

/-- A text without its spaces. -/
def squeezed (t : Text) : Text := t.filter fun l => l.char ≠ ' '

theorem squeezed_append (a b : Text) : squeezed (a ++ b) = squeezed a ++ squeezed b := List.filter_append ..

theorem squeezed_squeezed (t : Text) : squeezed (squeezed t) = squeezed t := by
  unfold squeezed
  rw [List.filter_filter]
  simp

/-- A section with no spaces in the text of its `[from]`. -/
def squeezeFrom (s : DatasetSection) : DatasetSection :=
  { s with query := { s.query with fromText := squeezed s.query.fromText } }

/-- The same of all sections of a scan. -/
def squeezeAll (r : Reading) : Reading :=
  { r with newSection := squeezeFrom r.newSection, dataset := r.dataset.map squeezeFrom }

theorem squeezeFrom_twice (s : DatasetSection) : squeezeFrom (squeezeFrom s) = squeezeFrom s := by
  unfold squeezeFrom
  simp only [squeezed_squeezed]

theorem squeezeAll_twice (r : Reading) : squeezeAll (squeezeAll r) = squeezeAll r := by
  unfold squeezeAll
  simp only [squeezeFrom_twice, List.map_map, Function.comp_def]

/-- The results are alike: the same answer or the same fault, with states alike. -/
def squeezeResult {α : Type} : EStateM.Result Fault Reading α → EStateM.Result Fault Reading α
  | .ok a r => .ok a (squeezeAll r)
  | .error fault r => .error fault (squeezeAll r)

/-- What `x` does is the same for states that are alike. -/
def Respects {α : Type} (x : Proc Reading α) : Prop := ∀ r, squeezeResult (x r) = squeezeResult (x (squeezeAll r))

theorem Respects.alike {α : Type} {x : Proc Reading α} (h : Respects x) {r r' : Reading}
    (same : squeezeAll r = squeezeAll r') : squeezeResult (x r) = squeezeResult (x r') := by
  rw [h r, h r', same]

theorem Respects.pure {α : Type} (a : α) : Respects (pure a : Proc Reading α) := by
  intro r
  change EStateM.Result.ok a (squeezeAll r) = .ok a (squeezeAll (squeezeAll r))
  rw [squeezeAll_twice]

theorem Respects.bind {α β : Type} {x : Proc Reading α} {f : α → Proc Reading β} (hx : Respects x)
    (hf : ∀ a, Respects (f a)) : Respects (x >>= f) := by
  intro r
  have first := hx r
  cases run : x r with
  | error fault r₁ =>
    cases run' : x (squeezeAll r) with
    | error fault' r₂ =>
      rw [run, run'] at first
      rw [Proc.bind_error run, Proc.bind_error run']
      simp only [squeezeResult, EStateM.Result.error.injEq] at first ⊢
      exact first
    | ok a r₂ =>
      rw [run, run'] at first
      cases first
  | ok a r₁ =>
    cases run' : x (squeezeAll r) with
    | error fault' r₂ =>
      rw [run, run'] at first
      cases first
    | ok b r₂ =>
      rw [run, run'] at first
      simp only [squeezeResult, EStateM.Result.ok.injEq] at first
      obtain ⟨rfl, same⟩ := first
      rw [Proc.bind_ok run, Proc.bind_ok run']
      exact (hf a).alike same

theorem squeezeAll_congr {r r' : Reading} (container : r'.whereBuf = r.whereBuf ∧ r'.attributeBuf = r.attributeBuf)
    (dataset : r'.dataset.map squeezeFrom = r.dataset.map squeezeFrom)
    (section' : squeezeFrom r'.newSection = squeezeFrom r.newSection) (start : r'.start = r.start)
    (complete : r'.complete = r.complete) (part : r'.readingPart = r.readingPart) (vars : r'.vars = r.vars) :
    squeezeAll r' = squeezeAll r := by
  obtain ⟨⟨_, _, _⟩, _, _, _, _, _⟩ := r
  obtain ⟨⟨_, _, _⟩, _, _, _, _, _⟩ := r'
  simp only [squeezeAll, Reading.mk.injEq, SQLTextContainer.mk.injEq] at *
  exact ⟨⟨container.1, container.2, dataset⟩, start, section', complete, part, vars⟩

theorem stored_twice (l : List DatasetSection) : (l.map squeezeFrom).map squeezeFrom = l.map squeezeFrom := by
  simp only [List.map_map, Function.comp_def, squeezeFrom_twice]

theorem putWhere_squeezed (cs : SQLConstraintSet) (r : Reading) :
    squeezeAll (putWhere cs (squeezeAll r)) = squeezeAll (putWhere cs r) := by
  have section' : squeezeFrom ((squeezeFrom r.newSection).setWhere cs) = squeezeFrom (r.newSection.setWhere cs) := by
    unfold squeezeFrom DatasetSection.setWhere
    simp only [squeezed_squeezed]
  unfold putWhere
  split
  · exact squeezeAll_congr ⟨rfl, rfl⟩ (stored_twice _) section' rfl rfl rfl rfl
  · exact squeezeAll_congr ⟨rfl, rfl⟩ (stored_twice _) section' rfl rfl rfl rfl

theorem putAttributes_squeezed (as : SQLAttributeSetByName) (r : Reading) :
    squeezeAll (putAttributes as (squeezeAll r)) = squeezeAll (putAttributes as r) := by
  have section' : squeezeFrom ((squeezeAll r).putSelect as).newSection = squeezeFrom (r.putSelect as).newSection := by
    unfold squeezeAll squeezeFrom Reading.putSelect Reading.setSection
    simp only [squeezed_squeezed]
  unfold putAttributes
  split
  · exact squeezeAll_congr ⟨rfl, rfl⟩ (stored_twice _) section' rfl rfl rfl rfl
  · exact squeezeAll_congr ⟨rfl, rfl⟩ (stored_twice _) section' rfl rfl rfl rfl

theorem addWhere_respects : Respects (addWhere rt) := by
  intro r
  rw [addWhere_run, addWhere_run]
  have bit : (squeezeAll r).complete = r.complete := rfl
  have buffer : (squeezeAll r).whereBuf = r.whereBuf := rfl
  rw [bit, buffer]
  split
  · cases SQLQuery.loadConstraints rt.shape r.whereBuf with
    | ok cs t => exact congrArg (EStateM.Result.ok ()) (putWhere_squeezed cs r).symm
    | error fault t =>
      refine congrArg (EStateM.Result.error fault) (Eq.symm ?_)
      exact squeezeAll_congr ⟨rfl, rfl⟩ (stored_twice _) (squeezeFrom_twice _) rfl rfl rfl rfl
  · exact Respects.pure () r

theorem addSelect_respects : Respects (addSelect rt) := by
  intro r
  rw [addSelect_run, addSelect_run]
  have bit : (squeezeAll r).complete = r.complete := rfl
  have buffer : (squeezeAll r).attributeBuf = r.attributeBuf := rfl
  rw [bit, buffer]
  split
  · cases SQLQuery.loadAttributes rt.shape r.attributeBuf with
    | ok as t => exact congrArg (EStateM.Result.ok ()) (putAttributes_squeezed as r).symm
    | error fault t =>
      refine congrArg (EStateM.Result.error fault) (Eq.symm ?_)
      exact squeezeAll_congr ⟨rfl, rfl⟩ (stored_twice _) (squeezeFrom_twice _) rfl rfl rfl rfl
  · exact Respects.pure () r

theorem addNewSection_respects : Respects (addNewSection rt) := by
  apply addWhere_respects.bind
  intro _
  apply addSelect_respects.bind
  intro _ r
  rw [Proc.get_bind, Proc.get_bind]
  have bit : (squeezeAll r).complete = r.complete := rfl
  rw [bit]
  split
  · rw [Proc.modify_run, Proc.modify_run]
    unfold squeezeResult squeezeAll
    simp [squeezeFrom_twice]
  · change EStateM.Result.error _ (squeezeAll r) = .error _ (squeezeAll (squeezeAll r))
    rw [squeezeAll_twice]

theorem partTracking_respects (tag : Str) : Respects (partTracking rt tag) := by
  intro r
  rw [partTracking_run, partTracking_run]
  have start : (squeezeAll r).start = r.start := rfl
  rw [start]
  split
  · split
    · refine congrArg (EStateM.Result.ok ()) (Eq.symm ?_)
      exact squeezeAll_congr ⟨rfl, rfl⟩ (stored_twice _) (squeezeFrom_twice _) rfl rfl rfl rfl
    · have add : squeezeResult (addNewSection rt r) = squeezeResult (addNewSection rt (squeezeAll r)) :=
        addNewSection_respects r
      cases run : addNewSection rt r with
      | ok a r₁ =>
        cases run' : addNewSection rt (squeezeAll r) with
        | ok b r₂ =>
          rw [run, run'] at add
          have same : squeezeAll r₁ = squeezeAll r₂ := by
            simp only [squeezeResult, EStateM.Result.ok.injEq] at add
            exact add.2
          refine congrArg (EStateM.Result.ok ()) ?_
          simp only [squeezeAll, Reading.mk.injEq, SQLTextContainer.mk.injEq] at same
          obtain ⟨⟨wheres, attributes, dataset⟩, start', -, -, -, vars⟩ := same
          exact squeezeAll_congr ⟨wheres, attributes⟩ dataset rfl start' rfl rfl vars
        | error fault r₂ =>
          rw [run, run'] at add
          cases add
      | error fault r₁ =>
        cases run' : addNewSection rt (squeezeAll r) with
        | ok b r₂ =>
          rw [run, run'] at add
          cases add
        | error fault' r₂ =>
          rw [run, run'] at add
          exact add
  · refine congrArg (EStateM.Result.ok ()) (Eq.symm ?_)
    cases partOf tag <;>
      exact squeezeAll_congr ⟨rfl, rfl⟩ (stored_twice _) (squeezeFrom_twice _) rfl rfl rfl rfl

theorem appendRow_squeezed (row : Str) (part : DatasetPart) (r : Reading) :
    squeezeAll (appendRow row part (squeezeAll r)) = squeezeAll (appendRow row part r) := by
  unfold appendRow
  split
  · exact squeezeAll_congr ⟨rfl, rfl⟩ (stored_twice _) (squeezeFrom_twice _) rfl rfl rfl rfl
  · refine squeezeAll_congr ⟨rfl, rfl⟩ (stored_twice _) ?_ rfl rfl rfl rfl
    unfold squeezeAll squeezeFrom Reading.setSection Reading.mark
    simp only [squeezed_append, squeezed_squeezed]
  · exact squeezeAll_congr ⟨rfl, rfl⟩ (stored_twice _) (squeezeFrom_twice _) rfl rfl rfl rfl
  · exact squeezeAll_twice r

theorem rowAction_squeezed (part : DatasetPart) (row : Str) (r : Reading) :
    squeezeAll (rowAction rt part row (squeezeAll r)) = squeezeAll (rowAction rt part row r) := by
  unfold rowAction
  split
  · split
    · refine squeezeAll_congr ⟨rfl, rfl⟩ (stored_twice _) ?_ rfl rfl rfl rfl
      unfold squeezeAll squeezeFrom Reading.setSection Reading.mark
      simp only [squeezed_squeezed]
    · exact squeezeAll_twice r
  · exact appendRow_squeezed row _ r

theorem setParameter_squeezed (key val : Str) (r : Reading) :
    (setParameter key val (squeezeAll r)).map squeezeAll = (setParameter key val r).map squeezeAll := by
  have step : ∀ (s s' : DatasetSection) (part : DatasetPart), squeezeFrom s' = squeezeFrom s →
      squeezeAll (((squeezeAll r).setSection s').mark part) = squeezeAll ((r.setSection s).mark part) :=
    fun s s' part same => squeezeAll_congr ⟨rfl, rfl⟩ (stored_twice _) same rfl rfl rfl rfl
  have again : ∀ (s s' : DatasetSection) (part part' : DatasetPart), squeezeFrom s' = squeezeFrom s →
      squeezeAll ((((squeezeAll r).setSection s').mark part).mark part') =
        squeezeAll (((r.setSection s).mark part).mark part') :=
    fun s s' part part' same => squeezeAll_congr ⟨rfl, rfl⟩ (stored_twice _) same rfl rfl rfl rfl
  have bits : ∀ (s s' : DatasetSection) (part p : DatasetPart),
      (((squeezeAll r).setSection s').mark part).complete p = ((r.setSection s).mark part).complete p :=
    fun _ _ _ _ => rfl
  have twice : squeezeFrom (squeezeAll r).newSection = squeezeFrom r.newSection := squeezeFrom_twice _
  have fields : ∀ f : DatasetSection → DatasetSection, (∀ s, squeezeFrom (f s) = f (squeezeFrom s)) →
      squeezeFrom (f (squeezeAll r).newSection) = squeezeFrom (f r.newSection) := by
    intro f commutes
    rw [commutes, commutes, twice]
  unfold setParameter
  split
  · simp only [Option.map_some]
    rw [bits { r.newSection with api := val }]
    split
    · exact congrArg some (again _ _ _ _ (fields (fun s => { s with api := val }) fun _ => rfl))
    · exact congrArg some (step _ _ _ (fields (fun s => { s with api := val }) fun _ => rfl))
  · split
    · simp only [Option.map_some]
      rw [bits { r.newSection with server := val }]
      split
      · exact congrArg some (again _ _ _ _ (fields (fun s => { s with server := val }) fun _ => rfl))
      · exact congrArg some (step _ _ _ (fields (fun s => { s with server := val }) fun _ => rfl))
    · split
      · exact congrArg some (step _ _ _ (fields (fun s => { s with port := val }) fun _ => rfl))
      · split
        · exact congrArg some (step _ _ _ (fields (fun s => { s with dbname := val }) fun _ => rfl))
        · split
          · exact congrArg some (step _ _ _ (fields (fun s => { s with user := val }) fun _ => rfl))
          · split
            · exact congrArg some (step _ _ _ (fields (fun s => { s with pass := val }) fun _ => rfl))
            · rfl

theorem rowStep_squeezed (row : Str) (r : Reading) :
    (rowStep rt row (squeezeAll r)).map squeezeAll = (rowStep rt row r).map squeezeAll := by
  unfold rowStep
  have part : (squeezeAll r).readingPart = r.readingPart := rfl
  rw [part]
  split
  · cases regexec regKeyVal (rowStr row) with
    | none => rfl
    | some m =>
      have sets := setParameter_squeezed (((m.group 1).getD ⟨0, 0⟩).text row) (((m.group 2).getD ⟨0, 0⟩).text row) r
      simp only
      cases set : setParameter (((m.group 1).getD ⟨0, 0⟩).text row) (((m.group 2).getD ⟨0, 0⟩).text row) r with
      | none =>
        rw [set, Option.map_none, Option.map_eq_none_iff] at sets
        rw [sets]
      | some r₁ =>
        rw [set, Option.map_some] at sets
        obtain ⟨r₂, set', same⟩ := Option.map_eq_some_iff.1 sets
        rw [set']
        exact congrArg Except.ok same
  · exact congrArg Except.ok (rowAction_squeezed _ row r)

theorem addRow_respects (row : Str) : Respects (addRow rt row) := by
  intro r
  rw [addRow_run, addRow_run]
  have vars : (squeezeAll r).vars = r.vars := rfl
  rw [vars]
  cases substituteRow r.vars row with
  | error fault => exact congrArg (EStateM.Result.error fault) (squeezeAll_twice r).symm
  | ok row' =>
    have steps : (rowStep rt row' (squeezeAll r)).map squeezeAll = (rowStep rt row' r).map squeezeAll :=
      rowStep_squeezed row' r
    simp only
    cases step : rowStep rt row' r with
    | error fault =>
      cases step' : rowStep rt row' (squeezeAll r) with
      | error fault' =>
        rw [step, step'] at steps
        cases steps
        exact congrArg (EStateM.Result.error fault) (squeezeAll_twice r).symm
      | ok r₂ =>
        rw [step, step'] at steps
        cases steps
    | ok r₁ =>
      cases step' : rowStep rt row' (squeezeAll r) with
      | error fault' =>
        rw [step, step'] at steps
        cases steps
      | ok r₂ =>
        rw [step, step'] at steps
        exact congrArg (EStateM.Result.ok ()) (Except.ok.inj steps).symm

theorem readRow_respects (row : Str) : Respects (readRow rt row) := by
  rw [readRow_eq]
  split
  · exact Respects.pure ()
  · rename_i m _
    intro r
    rw [defineVariable_run, defineVariable_run]
    have vars : (squeezeAll r).vars = r.vars := rfl
    rw [vars]
    cases defined rt row m r.vars with
    | ok vars =>
      refine congrArg (EStateM.Result.ok ()) (Eq.symm ?_)
      exact squeezeAll_congr ⟨rfl, rfl⟩ (stored_twice _) (squeezeFrom_twice _) rfl rfl rfl rfl
    | error fault => exact congrArg (EStateM.Result.error fault) (squeezeAll_twice r).symm
  · exact partTracking_respects _
  · exact addRow_respects row

theorem readRows_respects (rows : List Str) : Respects (readRows rt rows) := by
  induction rows with
  | nil => exact Respects.pure ()
  | cons row rows ih => exact (readRow_respects row).bind fun _ => ih

theorem finish_respects : Respects (finish rt) := by
  intro r
  unfold finish
  rw [Proc.get_bind, Proc.get_bind]
  have start : (squeezeAll r).start = r.start := rfl
  rw [start]
  split
  · exact Respects.pure false r
  · exact (addNewSection_respects.bind fun _ => Respects.pure true) r

/-! ## A row put in -/

/-- Both calls fail, or both answer the same with the same sections up to spaces in `[from]`. -/
inductive SameSections : EStateM.Result Fault SQLTextContainer Bool → EStateM.Result Fault SQLTextContainer Bool → Prop
  | returned {b : Bool} {c c' : SQLTextContainer} (same : c.dataset.map squeezeFrom = c'.dataset.map squeezeFrom) :
      SameSections (.ok b c) (.ok b c')
  | failed {fault fault' : Fault} {c c' : SQLTextContainer} : SameSections (.error fault c) (.error fault' c')

theorem sameSections_of {x y : EStateM.Result Fault Reading Bool} (h : squeezeResult x = squeezeResult y) :
    SameSections (answer x) (answer y) := by
  cases x with
  | ok b r =>
    cases y with
    | ok b' r' =>
      simp only [squeezeResult, EStateM.Result.ok.injEq] at h
      obtain ⟨rfl, same⟩ := h
      simp only [squeezeAll, Reading.mk.injEq, SQLTextContainer.mk.injEq] at same
      exact .returned same.1.2.2
    | error fault r' => cases h
  | error fault r =>
    cases y with
    | ok b r' => cases h
    | error fault' r' => exact .failed

/-- A place where a row of spaces is no text of a part that counts it: the open part takes no free form
rows, as `[other]` and, before the first tag, a parameter that `reading_part` happens to name; or it is
`[from]` behind a row of its own. -/
structure TakesBlanks (r : Reading) : Prop where
  notSection : r.readingPart ≠ .sectionTag
  notSelect : r.readingPart ≠ .selectTag
  notWhere : r.readingPart ≠ .whereTag
  behindFrom : r.readingPart = .fromTag → r.complete .fromTag = true

theorem blank_spaces {row : Str} (h : IsBlank row) : squeezed (rowText row) = [] := by
  unfold squeezed rowText of
  rw [List.filter_eq_nil_iff]
  intro l mem
  obtain ⟨c, inRow, rfl⟩ := List.mem_map.1 mem
  rcases List.mem_cons.1 inRow with rfl | inRow
  · decide
  · simp [h c inRow]

theorem blank_alike {row : Str} (h : IsBlank row) (ne : row ≠ []) {r : Reading} (place : TakesBlanks r) :
    ∃ r', readRow rt row r = .ok () r' ∧ squeezeAll r' = squeezeAll r := by
  rw [blank_run h ne, if_neg place.notSection]
  split
  · exact ⟨r, rfl, rfl⟩
  · refine ⟨_, rfl, ?_⟩
    unfold appendRow
    split
    · rename_i part
      exact absurd part place.notSelect
    · rename_i part
      refine squeezeAll_congr ⟨rfl, rfl⟩ rfl ?_ rfl (put_same (place.behindFrom part)) rfl rfl
      unfold squeezeFrom Reading.setSection Reading.mark
      simp only [squeezed_append, blank_spaces h, List.append_nil]
    · rename_i part
      exact absurd part place.notWhere
    · rfl

/-- At any other place the row is an error, or it is counted as a row of the part and, in `[select]` and
`[where]`, stands in its text. -/
theorem blank_counts {row : Str} (h : IsBlank row) (ne : row ≠ []) {r r' : Reading} (run : readRow rt row r = .ok () r')
    (same : squeezeAll r' = squeezeAll r) : TakesBlanks r := by
  rw [blank_run h ne] at run
  split at run
  · cases run
  · rename_i notSection
    have longer : ∀ t : Text, t ++ rowText row ≠ t := by
      intro t same
      have none : rowText row = [] := List.append_right_eq_self.1 same
      cases none
    split at run
    · rename_i other
      exact ⟨notSection, by rw [other]; decide, by rw [other]; decide, fun from' => by rw [other] at from'; cases from'⟩
    · cases run
      unfold appendRow at same
      constructor
      · exact notSection
      · intro part
        simp only [part] at same
        exact longer r.attributeBuf (congrArg (fun r : Reading => r.attributeBuf) same)
      · intro part
        simp only [part] at same
        exact longer r.whereBuf (congrArg (fun r : Reading => r.whereBuf) same)
      · intro part
        simp only [part] at same
        have bit := congrArg (fun r : Reading => r.complete .fromTag) same
        simpa [squeezeAll, Reading.mark, Completion.put] using bit.symm

/-- The rest of the file does not tell states apart that are alike. -/
theorem rest_alike {r r' : Reading} (same : squeezeAll r' = squeezeAll r) (post : List Str) :
    SameSections (answer ((readRows rt post >>= fun _ => finish rt) r))
      (answer ((readRows rt post >>= fun _ => finish rt) r')) :=
  sameSections_of (((readRows_respects post).bind fun _ => finish_respects).alike same.symm)

variable {text text' : Str} {pre post : List Str} {row : Str} (unset : DatasetPart) (c : SQLTextContainer)

/-- The scan with a row put in. -/
theorem read_insert (rows' : text'.splitOn '\n' = pre ++ row :: post) :
    read rt unset (some text') c =
      answer ((readRows rt pre >>= fun _ => readRow rt row >>= fun _ => readRows rt post >>= fun _ => finish rt)
        (begin unset c)) := by
  rw [read_eq, rows', scan_append]
  change answer ((readRows rt pre >>= fun _ => (readRow rt row >>= fun _ => readRows rt post) >>= fun _ => finish rt) _) = _
  simp only [bind_assoc]

/-- **A comment or a blank row put into a file changes nothing**, if it is a comment or empty, or
stands where rows of spaces do not count. In `[section]` a row of spaces is an error, so there it
changes nothing only in a file that cannot be read. At every other place the row itself is counted as
a row of its part, an error or not; what then becomes of the file is left open. -/
theorem inserted_row (rt : Runtime) (unset : DatasetPart) (c : SQLTextContainer) {text text' : Str} {pre post : List Str}
    {row : Str} (rows : text.splitOn '\n' = pre ++ post) (rows' : text'.splitOn '\n' = pre ++ row :: post) :
    (IsComment row ∨ row = [] ∨ (IsBlank row ∧ ∀ r, readRows rt pre (begin unset c) = .ok () r → TakesBlanks r) →
      SameSections (read rt unset (some text) c) (read rt unset (some text') c)) ∧
    (IsBlank row → row ≠ [] → (∃ r, readRows rt pre (begin unset c) = .ok () r ∧ r.readingPart = .sectionTag) →
      (SameSections (read rt unset (some text) c) (read rt unset (some text') c) ↔
        ∃ fault c', read rt unset (some text) c = .error fault c')) ∧
    (IsBlank row → row ≠ [] → ∀ r, readRows rt pre (begin unset c) = .ok () r →
      ((∃ r', readRow rt row r = .ok () r' ∧ squeezeAll r' = squeezeAll r) ↔ TakesBlanks r)) := by
  have plain : read rt unset (some text) c =
      answer ((readRows rt pre >>= fun _ => readRows rt post >>= fun _ => finish rt) (begin unset c)) := by
    rw [read_eq, rows, scan_append]
  rw [plain, read_insert unset c rows', ← and_assoc]
  refine ⟨?_, fun blank ne r _ => ⟨fun ⟨r', run, same⟩ => blank_counts blank ne run same, blank_alike blank ne⟩⟩
  cases ran : readRows rt pre (begin unset c) with
  | error fault r =>
    rw [Proc.bind_error ran, Proc.bind_error ran]
    refine ⟨fun _ => .failed, ?_⟩
    rintro - - ⟨_, read, -⟩
    cases read
  | ok a r =>
    rw [Proc.bind_ok ran, Proc.bind_ok ran]
    constructor
    · intro place
      obtain ⟨r', step, same⟩ : ∃ r', readRow rt row r = .ok () r' ∧ squeezeAll r' = squeezeAll r := by
        have idle : rowKind row = .idle → ∃ r', readRow rt row r = .ok () r' ∧ squeezeAll r' = squeezeAll r := by
          intro kind
          refine ⟨r, ?_, rfl⟩
          rw [readRow_eq, kind]
          rfl
        rcases place with comment | rfl | ⟨blank, place⟩
        · exact idle comment.idle
        · exact idle nil_idle
        · by_cases ne : row = []
          · exact idle (ne ▸ nil_idle)
          · exact blank_alike blank ne (place r rfl)
      rw [Proc.bind_ok step]
      exact rest_alike same post
    · rintro blank ne ⟨r', read, part⟩
      cases read
      have step : readRow rt row r = .error (freeFormFault row) r := by rw [blank_run blank ne, if_pos part]
      rw [Proc.bind_error step]
      cases run : (readRows rt post >>= fun _ => finish rt) r with
      | ok b r' =>
        refine ⟨fun same => ?_, fun ⟨_, _, failed⟩ => ?_⟩
        · cases same
        · cases failed
      | error fault r' => exact ⟨fun _ => ⟨_, _, rfl⟩, fun _ => .failed⟩

/-- `sample` with a comment before its last row. -/
def commented : Str := "[section]\napi=a\nserver=s\n[select]\nx\n[from]\n # a table\nt".toList

theorem commented_same : SameSections (read (.reuse 1) .api (some sample) .fresh)
    (read (.reuse 1) .api (some commented) .fresh) := by
  have rows : sample.splitOn '\n' = ["[section]".toList, "api=a".toList, "server=s".toList, "[select]".toList,
      "x".toList, "[from]".toList] ++ ["t".toList] := by rfl
  have rows' : commented.splitOn '\n' = ["[section]".toList, "api=a".toList, "server=s".toList, "[select]".toList,
      "x".toList, "[from]".toList] ++ " # a table".toList :: ["t".toList] := by rfl
  exact (inserted_row (.reuse 1) .api .fresh rows rows').1
    (.inl ⟨[' '], " a table".toList, rfl, fun c mem => List.mem_singleton.1 mem⟩)

/-- `sample` with a row of two spaces behind its parameters. -/
def spaced : Str := "[section]\napi=a\nserver=s\n  \n[select]\nx\n[from]\nt".toList

/-- It is `sample` with a blank row put in, and cannot be read. -/
theorem spaced_differs : sample.splitOn '\n' = (spaced.splitOn '\n').eraseIdx 3 ∧
    (spaced.splitOn '\n')[3]? = some [' ', ' '] ∧
    ¬ SameSections (read (.reuse 1) .api (some sample) .fresh) (read (.reuse 1) .api (some spaced) .fresh) := by
  refine ⟨by rfl, by rfl, ?_⟩
  have plain : returned (read (.reuse 1) .api (some sample) .fresh) = some true := by decide +kernel
  have blank : returned (read (.reuse 1) .api (some spaced) .fresh) = none := by decide +kernel
  intro same
  cases run : read (.reuse 1) .api (some sample) .fresh with
  | error fault c =>
    rw [run] at plain
    cases plain
  | ok b c =>
    cases run' : read (.reuse 1) .api (some spaced) .fresh with
    | ok b' c' =>
      rw [run'] at blank
      cases blank
    | error fault c' =>
      rw [run, run'] at same
      cases same

end SQLTextContainer

end SqlHandler
