import SqlHandler.Container.Completeness
import SqlHandler.Container.Conjuncts
import SqlHandler.Container.Select
import SqlHandler.Container.Variables

/-!
# Where the letters of a section come from

A section holds letters of its dataset only. What holds of all letters of a file holds of the
sections read from it (`read_letters`), and no statement that was built changes that
(`buildQuery_letters`): `comparatorSubst` puts in values of the section and literals.
-/

namespace SqlHandler
open Posix Text Stl

/-- The letters a section can put into a statement. -/
def DatasetSection.letters (s : DatasetSection) : Text :=
  s.query.select.toList.flatMap SQLAttribute.letters ++ s.query.fromText ++
    s.whereSet.toList.flatMap SQLConstraint.letters ++ s.other.toList.flatMap fun p => of .dataset p.2

/-- The letters of a section by its parts. -/
structure DatasetSection.Letters (P : Letter → Prop) (s : DatasetSection) : Prop where
  select : ∀ a ∈ s.query.select.toList, ∀ x ∈ a.letters, P x
  fromText : ∀ x ∈ s.query.fromText, P x
  whereSet : ∀ c ∈ s.whereSet.toList, ∀ x ∈ c.letters, P x
  other : ∀ p ∈ s.other.toList, ∀ c ∈ p.2, P ⟨c, .dataset⟩

theorem DatasetSection.letters_iff {P : Letter → Prop} {s : DatasetSection} : (∀ x ∈ s.letters, P x) ↔ s.Letters P := by
  simp only [letters, List.mem_append, List.mem_flatMap]
  constructor
  · intro all
    constructor
    · exact fun a mem x inText => all x (.inl (.inl (.inl ⟨a, mem, inText⟩)))
    · exact fun x mem => all x (.inl (.inl (.inr mem)))
    · exact fun c mem x inText => all x (.inl (.inr ⟨c, mem, inText⟩))
    · exact fun p mem c inText => all ⟨c, .dataset⟩ (.inr ⟨p, mem, List.mem_map_of_mem inText⟩)
  · rintro parts x (((⟨a, mem, inText⟩ | mem) | ⟨c, mem, inText⟩) | ⟨p, mem, inText⟩)
    · exact parts.select a mem x inText
    · exact parts.fromText x mem
    · exact parts.whereSet c mem x inText
    · obtain ⟨c, inValue, rfl⟩ := List.mem_map.1 inText
      exact parts.other p mem c inValue

namespace SQLTextContainer
variable {rt : Runtime} {P : Letter → Prop}

/-! ## Statements built -/

section Statements
variable (fixed : ∀ c, c ≠ ';' → P ⟨c, .literal⟩)
include fixed

theorem lit_letters {t : String} (free : ';' ∉ t.toList) : ∀ x ∈ lit t, P x := by
  intro x mem
  obtain ⟨c, inText, rfl⟩ := List.mem_map.1 mem
  refine fixed c ?_
  rintro rfl
  exact free inText

theorem substitution_letters {other : OtherMap} {comparator : Str} {subst : Text} (made : substitution other comparator = some subst)
    (others : ∀ p ∈ other.toList, ∀ c ∈ p.2, P ⟨c, .dataset⟩) : ∀ x ∈ subst, P x := by
  unfold substitution at made
  split at made
  · rename_i v found
    cases made
    obtain ⟨p, at', rfl⟩ := Option.map_eq_some_iff.1 found
    intro x mem
    simp only [List.mem_append] at mem
    rcases mem with (mem | mem) | mem
    · exact lit_letters fixed (by decide) x mem
    · obtain ⟨c, inValue, rfl⟩ := List.mem_map.1 mem
      exact others p (find_mem at') c inValue
    · exact lit_letters fixed (by decide) x mem
  · split at made
    · cases made
      exact lit_letters fixed (by decide)
    · split at made
      · cases made
        exact lit_letters fixed (by decide)
      · cases made

theorem substituted_letters {other : OtherMap} {before after : List SQLConstraint} (h : Substituted other before after)
    (others : ∀ p ∈ other.toList, ∀ c ∈ p.2, P ⟨c, .dataset⟩) (all : ∀ c ∈ before, ∀ x ∈ c.letters, P x) :
    ∀ c ∈ after, ∀ x ∈ c.letters, P x := by
  intro c mem x inText
  obtain ⟨b, inBefore, core⟩ := h.core_mem mem
  simp only [SQLConstraint.core, Prod.mk.injEq] at core
  obtain ⟨attr, comparator, value⟩ := core
  have old := all b inBefore
  simp only [SQLConstraint.letters, List.mem_append] at inText old
  rw [attr, comparator, value] at old
  rcases inText with ((inText | inText) | inText) | inText
  · exact old x (.inl (.inl (.inl inText)))
  · exact old x (.inl (.inl (.inr inText)))
  · rcases h.operators c mem with same | set
    · exact all c same x (by simp [SQLConstraint.letters, inText])
    · exact substitution_letters fixed set others x inText
  · exact old x (.inr inText)

theorem setWhere_letters {s : DatasetSection} {t : SQLConstraintSet} (subst : Substituted s.other s.whereSet.toList t.toList)
    (h : s.Letters P) : (s.setWhere t).Letters P where
  select := h.select
  fromText := h.fromText
  whereSet := substituted_letters fixed subst h.other h.whereSet
  other := h.other

theorem buildQuery_letters {www2id : Str → Str} {constraint : Str} {s s' : DatasetSection} {query : Text}
    (run : buildQuery rt www2id constraint s = .ok query s') (h : s.Letters P) : s'.Letters P := by
  obtain ⟨-, -, -, -, t, -, rfl, subst, -⟩ := buildQuery_ok run
  exact setWhere_letters fixed subst h

theorem buildCountQuery_letters {s s' : DatasetSection} {query : Text}
    (run : buildCountQuery rt s = .ok query s') (h : s.Letters P) : s'.Letters P := by
  obtain ⟨-, -, t, rfl, subst, -⟩ := buildCountQuery_ok run
  exact setWhere_letters fixed subst h

end Statements

/-! ## Sections read -/

/-- The letters of an attribute loaded are letters of the text. -/
theorem loadAttributes_letters {shape : Shape} {row left : Text} {select : SQLAttributeSetByName}
    (run : SQLQuery.loadAttributes shape row = .ok select left) : ∀ a ∈ select.toList, ∃ attr i,
      SQLAttribute.make attr i = .ok a ∧ ∀ x ∈ attr, x ∈ row := by
  obtain ⟨found, t, first, last⟩ := Proc.of_bind_ok run
  obtain ⟨cuts, path, rfl⟩ := (StringMatch.matchVector_iff contAttr_cutting).1 first
  have inRow : ∀ groups ∈ cuts.map fun c => StringMatch.extract [contRegAttrGroup] c.2 c.1, ∀ x ∈ groups.headD [], x ∈ row := by
    intro groups mem x inText
    obtain ⟨c, inCuts, rfl⟩ := List.mem_map.1 mem
    have one : (StringMatch.extract [contRegAttrGroup] c.2 c.1).headD [] ∈ StringMatch.extract [contRegAttrGroup] c.2 c.1 :=
      List.mem_cons_self
    exact path.letters.1 c inCuts x (StringMatch.mem_extract one inText)
  generalize (cuts.map fun c => StringMatch.extract [contRegAttrGroup] c.2 c.1) = found at last inRow
  have made : ∀ i (t : SQLAttributeSetByName), (∀ a ∈ t.toList, ∃ attr i, SQLAttribute.make attr i = .ok a ∧ ∀ x ∈ attr, x ∈ row) →
      SQLQuery.insertAttributes shape i t found = .ok select →
      ∀ a ∈ select.toList, ∃ attr i, SQLAttribute.make attr i = .ok a ∧ ∀ x ∈ attr, x ∈ row := by
    clear last
    induction found with
    | nil =>
      intro i t all inserted
      cases inserted
      exact all
    | cons groups found ih =>
      intro i t all inserted
      cases make : SQLAttribute.make (groups.headD []) i with
      | error fault =>
        rw [SQLQuery.insertAttributes, make] at inserted
        cases inserted
      | ok b =>
        rw [SQLQuery.insertAttributes, make] at inserted
        refine ih (fun groups mem => inRow groups (List.mem_cons_of_mem _ mem)) (i + 1) _ ?_ inserted
        intro a mem
        rcases mem_insert shape mem with rfl | mem
        · exact ⟨_, i, make, inRow groups List.mem_cons_self⟩
        · exact all a mem
  cases inserted : SQLQuery.insertAttributes shape 0 .leaf found with
  | error fault =>
    rw [inserted] at last
    cases last
  | ok select' =>
    rw [inserted] at last
    cases last
    exact made 0 .leaf (by simp) inserted

/-- What holds of all letters a scan has stored. -/
structure ReadLetters (P : Letter → Prop) (r : Reading) : Prop where
  whereBuf : ∀ x ∈ r.whereBuf, P x
  attributeBuf : ∀ x ∈ r.attributeBuf, P x
  newSection : r.newSection.Letters P
  dataset : ∀ s ∈ r.dataset, s.Letters P
  vars : ∀ p ∈ r.vars.toList, ∀ c ∈ p.2, P ⟨c, .dataset⟩

theorem ReadLetters.congr {r r' : Reading} (h : ReadLetters P r) (whereBuf : r'.whereBuf = r.whereBuf)
    (attributeBuf : r'.attributeBuf = r.attributeBuf) (query : r'.newSection.query = r.newSection.query)
    (other : r'.newSection.other = r.newSection.other) (dataset : r'.dataset = r.dataset) (vars : r'.vars = r.vars) :
    ReadLetters P r' where
  whereBuf := whereBuf ▸ h.whereBuf
  attributeBuf := attributeBuf ▸ h.attributeBuf
  newSection := by
    refine ⟨query ▸ h.newSection.select, query ▸ h.newSection.fromText, ?_, other ▸ h.newSection.other⟩
    unfold DatasetSection.whereSet
    rw [query]
    exact h.newSection.whereSet
  dataset := dataset ▸ h.dataset
  vars := vars ▸ h.vars

theorem setParameter_letters {key val : Str} {r r' : Reading} (set : setParameter key val r = some r')
    (h : ReadLetters P r) : ReadLetters P r' := by
  unfold setParameter at set
  split at set
  · cases set
    split <;> exact h.congr rfl rfl rfl rfl rfl rfl
  · split at set
    · cases set
      split <;> exact h.congr rfl rfl rfl rfl rfl rfl
    · repeat' split at set
      all_goals cases set
      all_goals exact h.congr rfl rfl rfl rfl rfl rfl

theorem blank_letters (P : Letter → Prop) : DatasetSection.blank.Letters P := by
  constructor <;> simp [DatasetSection.blank, DatasetSection.whereSet]

theorem addWhere_letters {r r' : Reading} (run : addWhere rt r = .ok () r') (h : ReadLetters P r) : ReadLetters P r' := by
  rw [addWhere_run] at run
  split at run
  · split at run
    · rename_i cs t load
      cases run
      have conditions : (r.newSection.setWhere cs).Letters P := by
        refine ⟨h.newSection.select, h.newSection.fromText, ?_, h.newSection.other⟩
        exact fun c mem x inText => h.whereBuf x ((loadConstraints_grammar load c mem).letters x inText)
      unfold putWhere
      split <;> exact ⟨by simp, h.attributeBuf, conditions, h.dataset, h.vars⟩
    · cases run
  · cases run
    exact h

theorem addSelect_letters {r r' : Reading} (run : addSelect rt r = .ok () r') (h : ReadLetters P r) : ReadLetters P r' := by
  rw [addSelect_run] at run
  split at run
  · split at run
    · rename_i as t load
      cases run
      have attributes : ({ r.newSection with query := { r.newSection.query with select := as } } : DatasetSection).Letters P := by
        refine ⟨fun a mem x inText => ?_, h.newSection.fromText, h.newSection.whereSet, h.newSection.other⟩
        obtain ⟨attr, i, make, inRow⟩ := loadAttributes_letters load a mem
        exact h.attributeBuf x (inRow x (SQLAttribute.make_letters make x inText))
      unfold putAttributes
      split <;> exact ⟨h.whereBuf, by simp, attributes, h.dataset, h.vars⟩
    · cases run
  · cases run
    exact h

theorem addNewSection_letters {r r' : Reading} (run : addNewSection rt r = .ok () r') (h : ReadLetters P r) : ReadLetters P r' := by
  obtain ⟨⟨⟩, r₁, first, rest⟩ := Proc.of_bind_ok run
  obtain ⟨⟨⟩, r₂, second, last⟩ := Proc.of_bind_ok rest
  have kept := addSelect_letters second (addWhere_letters first h)
  rw [Proc.get_bind] at last
  split at last
  · cases last
    refine ⟨kept.whereBuf, kept.attributeBuf, kept.newSection, ?_, kept.vars⟩
    intro s mem
    rcases List.mem_append.1 mem with mem | mem
    · exact kept.dataset s mem
    · rw [List.mem_singleton.1 mem]
      exact kept.newSection
  · cases last

/-- A row with its variables substituted has letters of its own and of their values. -/
theorem substituteAll_letters {vars : Vars} {fuel : Nat} {row row' : Str} {Q : Char → Prop} (run : substituteAll vars fuel row = .ok row')
    (values : ∀ p ∈ vars.toList, ∀ c ∈ p.2, Q c) (all : ∀ c ∈ row, Q c) : ∀ c ∈ row', Q c := by
  induction fuel generalizing row with
  | zero => cases run
  | succ fuel ih =>
    rw [substituteAll] at run
    split at run
    · cases run
      exact all
    · rename_i m found
      cases one : variableSubstitution vars row m with
      | error fault =>
        rw [one] at run
        cases run
      | ok row₁ =>
        rw [one] at run
        refine ih run ?_
        unfold variableSubstitution at one
        split at one
        · cases one
        · split at one
          · rename_i at'
            cases one
            intro c mem
            simp only [List.mem_append] at mem
            rcases mem with (mem | mem) | mem
            · exact all c (List.mem_of_mem_take mem)
            · exact values _ (find_mem at') c mem
            · exact all c (List.mem_of_mem_drop (List.mem_of_mem_take mem))
          · cases one

section Rows
variable (space : P ⟨' ', .dataset⟩)
include space

theorem rowText_letters {row : Str} (all : ∀ c ∈ row, P ⟨c, .dataset⟩) : ∀ x ∈ rowText row, P x := by
  intro x mem
  obtain ⟨c, inRow, rfl⟩ := List.mem_map.1 mem
  rcases List.mem_cons.1 inRow with rfl | inRow
  · exact space
  · exact all c inRow

theorem rowAction_letters (part : DatasetPart) {row : Str} {r : Reading} (all : ∀ c ∈ row, P ⟨c, .dataset⟩)
    (h : ReadLetters P r) : ReadLetters P (rowAction rt part row r) := by
  have behind : ∀ buf : Text, (∀ x ∈ buf, P x) → ∀ x ∈ buf ++ rowText row, P x := by
    intro buf held x mem
    rcases List.mem_append.1 mem with mem | mem
    · exact held x mem
    · exact rowText_letters space all x mem
  unfold rowAction
  split
  · split
    · refine ⟨h.whereBuf, h.attributeBuf, ⟨h.newSection.select, h.newSection.fromText, h.newSection.whereSet, ?_⟩, h.dataset, h.vars⟩
      intro p mem c inValue
      rcases mem_insert rt.shape mem with rfl | mem
      · exact all c (Span.mem_text inValue)
      · exact h.newSection.other p mem c inValue
    · exact h
  · unfold appendRow
    split
    · exact ⟨h.whereBuf, behind _ h.attributeBuf, h.newSection, h.dataset, h.vars⟩
    · exact ⟨h.whereBuf, h.attributeBuf, ⟨h.newSection.select, behind _ h.newSection.fromText, h.newSection.whereSet,
        h.newSection.other⟩, h.dataset, h.vars⟩
    · exact ⟨behind _ h.whereBuf, h.attributeBuf, h.newSection, h.dataset, h.vars⟩
    · exact h

theorem RowEffect.letters {row : Str} {r r' : Reading} (effect : RowEffect rt row r r') (all : ∀ c ∈ row, P ⟨c, .dataset⟩)
    (h : ReadLetters P r) : ReadLetters P r' := by
  cases effect with
  | idle => exact h
  | definition kind made =>
    refine ⟨h.whereBuf, h.attributeBuf, h.newSection, h.dataset, ?_⟩
    unfold defined at made
    split at made
    · split at made
      · cases made
      · cases made
        intro p mem c inValue
        rcases mem_insert rt.shape mem with rfl | mem
        · exact all c (Span.mem_text inValue)
        · exact h.vars p mem c inValue
    · cases made
  | @part text =>
    cases partOf text with
    | none => exact h
    | some part => exact h.congr rfl rfl rfl rfl rfl rfl
  | first => exact h.congr rfl rfl rfl rfl rfl rfl
  | next kind start stored =>
    have kept := addNewSection_letters stored h
    exact ⟨kept.whereBuf, kept.attributeBuf, blank_letters P, kept.dataset, kept.vars⟩
  | parameter kind made at' found set => exact setParameter_letters set h
  | added kind made at' => exact rowAction_letters space _ (substituteAll_letters made h.vars all) h

theorem readRows_letters {rows : List Str} {r r' : Reading} (run : readRows rt rows r = .ok () r')
    (all : ∀ row ∈ rows, ∀ c ∈ row, P ⟨c, .dataset⟩) (h : ReadLetters P r) : ReadLetters P r' := by
  induction rows generalizing r with
  | nil =>
    cases run
    exact h
  | cons row rows ih =>
    obtain ⟨⟨⟩, r₁, first, rest⟩ := Proc.of_bind_ok run
    exact ih rest (fun x mem => all x (List.mem_cons_of_mem _ mem))
      (RowEffect.letters space (readRow_effect first) (all row List.mem_cons_self) h)

/-- What holds of the letters of a file holds of the sections read from it. -/
theorem read_letters {unset : DatasetPart} {text : Str} {c c' : SQLTextContainer} {b : Bool}
    (run : read rt unset (some text) c = .ok b c') (all : ∀ x ∈ text, P ⟨x, .dataset⟩) (h : ReadLetters P (begin unset c)) :
    ReadLetters P (begin unset c') := by
  obtain ⟨r, scanned, rfl⟩ := read_ok run
  obtain ⟨⟨⟩, r₁, first, rest⟩ := Proc.of_bind_ok scanned
  have rows : ∀ row ∈ text.splitOn '\n', ∀ x ∈ row, P ⟨x, .dataset⟩ := fun row mem x inRow => all x (part_subset mem x inRow)
  have kept := readRows_letters space first rows h
  have ends : ReadLetters P r := by
    rw [Proc.get_bind] at rest
    split at rest
    · cases rest
      exact kept
    · obtain ⟨⟨⟩, r₂, add, last⟩ := Proc.of_bind_ok rest
      cases last
      exact addNewSection_letters add kept
  exact ⟨ends.whereBuf, ends.attributeBuf, blank_letters P, ends.dataset, by simp [begin]⟩

omit space in
theorem fresh_letters (unset : DatasetPart) : ReadLetters P (begin unset .fresh) :=
  ⟨by simp [begin, fresh], by simp [begin, fresh], blank_letters P, by simp [begin, fresh], by simp [begin]⟩

end Rows

/-! ## Letters of the client -/

/-- No letter of the text is one of the client. -/
def Own (t : Text) : Prop := ∀ x ∈ t, x.origin ≠ .client

/-- A section read from a text, after any statements that were built of it. -/
inductive Served (rt : Runtime) (unset : DatasetPart) (text : Str) : DatasetSection → Prop
  | stored {s : DatasetSection} {c : SQLTextContainer} {b : Bool} (run : read rt unset (some text) .fresh = .ok b c)
      (mem : s ∈ c.dataset) : Served rt unset text s
  | asked {s s' : DatasetSection} {www2id : Str → Str} {constraint : Str} {query : Text} (before : Served rt unset text s)
      (run : buildQuery rt www2id constraint s = .ok query s') : Served rt unset text s'
  | counted {s s' : DatasetSection} {query : Text} (before : Served rt unset text s)
      (run : buildCountQuery rt s = .ok query s') : Served rt unset text s'

/-- Its letters are those of the text. -/
theorem Served.own {unset : DatasetPart} {text : Str} {s : DatasetSection} (served : Served rt unset text s) :
    Own s.letters ∧ (';' ∉ text → ';' ∉ s.letters.str) := by
  let Known : Letter → Prop := fun x => x.origin ≠ .client ∧ (';' ∉ text → x.char ≠ ';')
  have fixed : ∀ c, c ≠ ';' → Known ⟨c, .literal⟩ := fun c ne => ⟨nofun, fun _ => ne⟩
  have known : s.Letters Known := by
    induction served with
    | stored run mem =>
      have space : Known ⟨' ', .dataset⟩ := ⟨nofun, fun _ => by decide⟩
      have all : ∀ x ∈ text, Known ⟨x, .dataset⟩ := fun x mem => ⟨nofun, fun none e => none (e ▸ mem)⟩
      exact (read_letters space run all (fresh_letters unset)).dataset _ mem
    | asked before run ih => exact buildQuery_letters fixed run ih
    | counted before run ih => exact buildCountQuery_letters fixed run ih
  have letters := DatasetSection.letters_iff.2 known
  refine ⟨fun x mem => (letters x mem).1, fun none mem => ?_⟩
  obtain ⟨x, inLetters, e⟩ := List.mem_map.1 mem
  exact (letters x inLetters).2 none e

/-- The section has an attribute `*`. -/
def SelectsAll (select : SQLAttributeSetByName) : Prop := ∃ a ∈ select.toList, a.name.str = ['*']

/-- The names a client can put into a list. -/
def IsAsked (t : Str) : Prop := t = ['*'] ∨ ∀ c ∈ t, nameChar c = true

theorem AttrForm.asked {s full name : Str} (form : AttrForm s full name) : IsAsked name := by
  cases form with
  | path p => exact .inr p.last_ok
  | aliased p lead separator ne ok => exact .inr ok
  | star => exact .inl rfl

/-- What is picked are attributes of the section, or the names asked for. -/
theorem select?_listed {shape : Shape} {all : Bool} {select attr result : SQLAttributeSetByPos} {l : List SQLAttribute}
    {Listed : SQLAttribute → Prop} (asked : ∀ a ∈ l, IsAsked a.name.str) (own : ∀ a ∈ select.toList, Listed a)
    (given : all = true → ∀ a, IsAsked a.attr.str → Listed a) (held : ∀ a ∈ attr.toList, Listed a)
    (run : SQLQuery.select? shape all select attr l = .ok result) : ∀ a ∈ result.toList, Listed a := by
  have more : ∀ {t : SQLAttributeSetByPos} {b : SQLAttribute}, Listed b → (∀ a ∈ t.toList, Listed a) →
      ∀ a ∈ (insert shape attrPosComp b t).toList, Listed a := by
    intro t b new old a mem
    rcases mem_insert shape mem with rfl | mem
    · exact new
    · exact old a mem
  induction l generalizing attr with
  | nil =>
    cases run
    exact held
  | cons b l ih =>
    have rest := fun a mem => asked a (List.mem_cons_of_mem b mem)
    cases all with
    | true =>
      cases make : SQLAttribute.make b.name b.position with
      | error fault =>
        rw [SQLQuery.select?, if_pos rfl, make] at run
        cases run
      | ok a =>
        rw [SQLQuery.select?, if_pos rfl, make] at run
        refine ih rest (more (given rfl a ?_) held) run
        rw [(SQLAttribute.make_ok make).1]
        exact asked b List.mem_cons_self
    | false =>
      rw [SQLQuery.select?, if_neg (by decide)] at run
      cases here : find attrNameComp b select with
      | none =>
        rw [here] at run
        exact ih rest held run
      | some i =>
        rw [here] at run
        exact ih rest (more (own i (find_mem here)) held) run

/-- The attributes listed are those of the section, or with a `*` in it the names asked for. -/
theorem attrToSelect_listed {shape : Shape} {select : SQLAttributeSetByName} {row left : Text} {result : SQLAttributeSetByPos}
    (run : SQLQuery.attrToSelect shape select row = .ok result left) :
    ∀ a ∈ result.toList, a ∈ select.toList ∨ SelectsAll select ∧ IsAsked a.attr.str := by
  obtain ⟨asked, left₁, loaded, rest⟩ := Proc.of_bind_ok run
  obtain ⟨star, everything', name⟩ := SQLQuery.everything_ok
  rw [everything'] at rest
  change (Proc.lift (SQLQuery.select? shape (find attrNameComp star select).isSome select .leaf asked.toList) >>= fun attr =>
    if attr.toList.isEmpty then pure (insertAll shape attrPosComp .leaf select.toList) else pure attr) left₁ = _ at rest
  have names : ∀ a ∈ asked.toList, IsAsked a.name.str := by
    intro a mem
    obtain ⟨attr, i, make, -⟩ := loadAttributes_letters loaded a mem
    exact AttrForm.asked (SQLAttribute.make_ok make).2.2.1
  have selects : (find attrNameComp star select).isSome = true → SelectsAll select := by
    intro some'
    obtain ⟨e, found⟩ := Option.isSome_iff_exists.1 some'
    exact ⟨e, find_mem found, (find_same found).trans name⟩
  cases picked : SQLQuery.select? shape (find attrNameComp star select).isSome select .leaf asked.toList with
  | error fault =>
    rw [picked] at rest
    cases rest
  | ok attr =>
    have listed : ∀ a ∈ attr.toList, a ∈ select.toList ∨ SelectsAll select ∧ IsAsked a.attr.str := select?_listed names
      (fun a mem => .inl mem) (fun all a asked => .inr ⟨selects all, asked⟩) (by simp) picked
    rw [picked] at rest
    change (if attr.toList.isEmpty then (pure (insertAll shape attrPosComp .leaf select.toList) : Proc Text SQLAttributeSetByPos)
      else pure attr) left₁ = _ at rest
    split at rest
    · cases rest
      intro a mem
      rcases mem_insertAll_cases shape mem with mem | mem
      · simp at mem
      · exact .inl mem
    · cases rest
      exact listed

/-- The clause of any conditions of a section; where they have no text at all, only those of the request stand in it. -/
theorem conditions_joined (select : SQLAttributeSetByName) {found : List SQLConstraint} (operators : ∀ c ∈ found, c.operator ≠ [])
    (l : List SQLConstraint) : ∃ ks : List Conjunct, (∀ k ∈ ks, ∃ c ∈ l, k = c.conjunct) ∧
      found.foldl (addCondition select) (joinConditions l) = clauseText (ks ++ found.map (SQLConstraint.conjunctIn select)) := by
  by_cases empty : joinConditions l = []
  · have none : clauseText [] = [] → ([] : List Conjunct) = [] := fun _ => rfl
    exact ⟨[], by simp, empty ▸ conditions_clause select operators none⟩
  · refine ⟨l.map SQLConstraint.conjunct, ?_, ?_⟩
    · intro k mem
      obtain ⟨c, inList, rfl⟩ := List.mem_map.1 mem
      exact ⟨c, inList, rfl⟩
    · rw [joinConditions_eq] at empty ⊢
      exact conditions_clause select operators fun none => absurd none empty

/-- The letters of a conjunct of a request: a name of the section, a comparator or its substitute,
and a value of the grammar. -/
structure Confined (P : Letter → Prop) (k : Conjunct) : Prop where
  attr : ∀ x ∈ k.attr, P x
  operator : (∀ x ∈ k.operator, P x) ∨ k.operator.str ∈ comparators
  value : ∀ x ∈ k.value, valueChar x.char = true

section Parts
variable (fixed : ∀ c, c ≠ ';' → P ⟨c, .literal⟩)
include fixed

/-- What is known of the parts of a statement when something is known of the letters of the section. -/
theorem buildQuery_parts {www2id : Str → Str} {constraint : Str} {s s' : DatasetSection} {query : Text} (h : s.Letters P)
    (run : buildQuery rt www2id constraint s = .ok query s') : ∃ (names : List Text) (ks found : List Conjunct),
      query = lit "SELECT " ++ listed names ++ (lit " FROM " ++ s.query.fromText) ++ whereText (clauseText (ks ++ found)) ++ lit ";" ∧
      (∀ t ∈ names, (∀ x ∈ t, P x) ∨ SelectsAll s.query.select ∧ IsAsked t.str) ∧ (∀ k ∈ ks, ∀ x ∈ k.text, P x) ∧
      ∀ k ∈ found, Confined P k := by
  obtain ⟨attrs, left, found, left', t, select, -, subst, loads, rfl⟩ := buildQuery_ok run
  obtain ⟨loaded, load, substituted⟩ := loads
  have grammar := loadConstraints_grammar load
  have operator : ∀ c ∈ found, (∀ x ∈ c.operator, P x) ∧ c.operator ≠ [] ∨ c.operator.str ∈ comparators := by
    intro c mem
    obtain ⟨b, inLoaded, core⟩ := substituted.core_mem mem
    simp only [SQLConstraint.core, Prod.mk.injEq] at core
    unfold SQLConstraint.operator
    split
    · rename_i set
      rcases substituted.operators c mem with same | made
      · exact absurd (grammar c same).substitute set
      · exact .inl ⟨substitution_letters fixed made h.other, set⟩
    · exact .inr (core.2.1 ▸ (grammar b inLoaded).comparator)
  have operators : ∀ c ∈ found, c.operator ≠ [] := by
    intro c mem
    rcases operator c mem with ⟨-, ne⟩ | comparator
    · exact ne
    · intro empty
      rw [empty] at comparator
      exact (comparator_compChar comparator).1 rfl
  obtain ⟨ks, own, clause⟩ := conditions_joined s.query.select operators t.toList
  refine ⟨attrs.toList.map SQLAttribute.attr, ks, found.map (SQLConstraint.conjunctIn s.query.select), ?_, ?_, ?_, ?_⟩
  · rw [clause, selectClause_eq]
  · intro u mem
    obtain ⟨a, inList, rfl⟩ := List.mem_map.1 mem
    rcases attrToSelect_listed select a inList with inSection | asked
    · exact .inl fun x inText => h.select a inSection x (by simp [SQLAttribute.letters, inText])
    · exact .inr asked
  · intro k mem x inText
    obtain ⟨c, inSet, rfl⟩ := own k mem
    have all := substituted_letters fixed subst h.other h.whereSet c inSet x
    apply all
    simp only [Conjunct.text, SQLConstraint.conjunct, SQLConstraint.operator, List.mem_append] at inText
    simp only [SQLConstraint.letters, SQLAttribute.letters, List.mem_append]
    split at inText <;> tauto
  · intro k mem
    obtain ⟨c, inFound, rfl⟩ := List.mem_map.1 mem
    constructor
    · intro x inText
      simp only [SQLConstraint.conjunctIn] at inText
      cases at' : find attrNameComp c.attr s.query.select with
      | none =>
        rw [at'] at inText
        cases inText
      | some a =>
        rw [at'] at inText
        exact h.select a (find_mem at') x (List.mem_append_left _ (List.mem_append_right _ inText))
    · exact (operator c inFound).imp_left And.left
    · obtain ⟨b, inLoaded, core⟩ := substituted.core_mem inFound
      simp only [SQLConstraint.core, Prod.mk.injEq] at core
      intro x inText
      have inValue : x ∈ b.value := core.2.2 ▸ inText
      exact (grammar b inLoaded).value.letters x.char (List.mem_map_of_mem inValue)

omit fixed in
theorem joined_letters {sep : Text} {l : List Text} (between : ∀ x ∈ sep, P x) (all : ∀ t ∈ l, ∀ x ∈ t, P x) :
    ∀ x ∈ sep.intercalate l, P x := by
  cases l with
  | nil => simp [List.intercalate]
  | cons t l =>
    intro x mem
    rw [intercalate_cons, List.mem_append, List.mem_flatMap] at mem
    rcases mem with mem | ⟨u, inList, mem⟩
    · exact all t List.mem_cons_self x mem
    · rcases List.mem_append.1 mem with mem | mem
      · exact between x mem
      · exact all u (List.mem_cons_of_mem _ inList) x mem

/-- The letters of a statement in front of the last `;`. -/
theorem statement_letters {names : List Text} {source : Text} {ks : List Conjunct} (listed' : ∀ t ∈ names, ∀ x ∈ t, P x)
    (from' : ∀ x ∈ source, P x) (conditions : ∀ k ∈ ks, ∀ x ∈ k.text, P x) :
    ∀ x ∈ lit "SELECT " ++ listed names ++ (lit " FROM " ++ source) ++ whereText (clauseText ks), P x := by
  have word : ∀ t : String, ';' ∉ t.toList → ∀ x ∈ lit t, P x := fun t free => lit_letters fixed free
  intro x mem
  simp only [List.mem_append] at mem
  rcases mem with ((mem | mem) | mem | mem) | mem
  · exact word _ (by decide) x mem
  · exact joined_letters (word "," (by decide)) listed' x mem
  · exact word _ (by decide) x mem
  · exact from' x mem
  · unfold whereText at mem
    split at mem
    · rcases List.mem_append.1 mem with mem | mem
      · exact word _ (by decide) x mem
      · refine joined_letters (word " AND " (by decide)) ?_ x mem
        intro t inTexts
        obtain ⟨k, inClause, rfl⟩ := List.mem_map.1 inTexts
        exact conditions k inClause
    · cases mem

end Parts

/-- White space and the other letters that structure a statement. -/
def structural : Str := [' ', '\t', '\n', '\x0b', '\x0c', '\r', ';', '(', ')', '-', '/', '#', '|']

theorem structural_apart : ∀ c ∈ structural, valueChar c = false ∧ compChar c = false ∧ nameChar c = false ∧ c ≠ '*' := by
  have apart : (structural.all fun c => !valueChar c && !compChar c && !nameChar c && c != '*') = true := by decide
  intro c mem
  simpa [and_assoc] using List.all_eq_true.1 apart c mem

/-- A letter of the client in a statement is one of a value of the grammar, of a comparator, or with a
`*` in the section one of a name asked for; none of them structures the statement. Letters are told apart
by their origins, and the section has none of the client. -/
theorem client_letters {www2id : Str → Str} {constraint : Str} {s s' : DatasetSection} {query : Text} (own : Own s.letters)
    (run : buildQuery rt www2id constraint s = .ok query s') : ∃ (names : List Text) (ks found : List Conjunct),
      query = lit "SELECT " ++ listed names ++ (lit " FROM " ++ s.query.fromText) ++ whereText (clauseText (ks ++ found)) ++ lit ";" ∧
      (∀ t ∈ names, Own t ∨ SelectsAll s.query.select ∧ IsAsked t.str) ∧ (∀ k ∈ ks, Own k.text) ∧
      (∀ k ∈ found, Confined (fun x => x.origin ≠ .client) k) ∧ (∀ x ∈ query, x.origin = .client → x.char ∉ structural) ∧
      (';' ∉ s.letters.str → query.str.count ';' = 1) := by
  -- what is known of a letter of the section
  let Known : Letter → Prop := fun x => x.origin ≠ .client ∧ (';' ∉ s.letters.str → x.char ≠ ';')
  have fixed : ∀ c, c ≠ ';' → Known ⟨c, .literal⟩ := fun c ne => ⟨nofun, fun _ => ne⟩
  have known : s.Letters Known := DatasetSection.letters_iff.1 fun x mem =>
    ⟨own x mem, fun none e => none (e ▸ List.mem_map_of_mem mem)⟩
  obtain ⟨names, ks, found, text, listed', kept, confined⟩ := buildQuery_parts fixed known run
  have named : ∀ t ∈ names, ∀ x ∈ t, Known x ∨ x.char ∉ structural := by
    intro t mem x inText
    rcases listed' t mem with own | ⟨-, asked⟩
    · exact .inl (own x inText)
    · refine .inr fun isStructural => ?_
      have apart := structural_apart x.char isStructural
      have inStr : x.char ∈ t.str := List.mem_map_of_mem inText
      rcases asked with star | letters
      · rw [star, List.mem_singleton] at inStr
        exact apart.2.2.2 inStr
      · rw [letters _ inStr] at apart
        exact absurd apart.2.2.1 (by decide)
  have conditions : ∀ k ∈ ks ++ found, ∀ x ∈ k.text, Known x ∨ x.char ∉ structural := by
    intro k mem x inText
    rcases List.mem_append.1 mem with mem | mem
    · exact .inl (kept k mem x inText)
    · have parts := confined k mem
      simp only [Conjunct.text, List.mem_append] at inText
      rcases inText with (inText | inText) | inText
      · exact .inl (parts.attr x inText)
      · rcases parts.operator with own | comparator
        · exact .inl (own x inText)
        · refine .inr fun isStructural => ?_
          have apart := structural_apart x.char isStructural
          rw [(comparator_compChar comparator).2 x.char (List.mem_map_of_mem inText)] at apart
          exact absurd apart.2.1 (by decide)
      · refine .inr fun isStructural => ?_
        have apart := structural_apart x.char isStructural
        rw [parts.value x inText] at apart
        exact absurd apart.1 (by decide)
  have front := statement_letters (fun c ne => .inl (fixed c ne)) named (fun x mem => .inl (known.fromText x mem)) conditions
  refine ⟨names, ks, found, text, ?_, fun k mem x inText => (kept k mem x inText).1, ?_, ?_, ?_⟩
  · intro t mem
    exact (listed' t mem).imp_left fun all x inText => (all x inText).1
  · intro k mem
    obtain ⟨attr, operator, value⟩ := confined k mem
    exact ⟨fun x inText => (attr x inText).1, operator.imp_left fun all x inText => (all x inText).1, value⟩
  · intro x mem client
    rw [text] at mem
    rcases List.mem_append.1 mem with mem | mem
    · rcases front x mem with known | free
      · exact absurd client known.1
      · exact free
    · rw [origin_of mem] at client
      cases client
  · intro none
    rw [text, str_append, List.count_append]
    have body : ';' ∉ (lit "SELECT " ++ listed names ++ (lit " FROM " ++ s.query.fromText) ++ whereText (clauseText (ks ++ found))).str := by
      intro mem
      obtain ⟨x, inText, e⟩ := List.mem_map.1 mem
      rcases front x inText with known | free
      · exact known.2 none e
      · exact free (by rw [e]; decide)
    rw [List.count_eq_zero.2 body]
    rfl

theorem measured_letters : Own measured.letters := by
  have all : (measured.letters.all fun x => x.origin != .client) = true := by decide +kernel
  intro x mem
  simpa using List.all_eq_true.1 all x mem

theorem dropped_letters : ∃ (query : Text) (s' : DatasetSection),
    buildQuery (.reuse 3) id "x&y=5 ; DROP".toList measured = .ok query s' ∧ query.str.count ';' = 1 := by
  have answer : (match buildQuery (.reuse 3) id "x&y=5 ; DROP".toList measured with
      | .ok _ _ => true
      | .error _ _ => false) = true := by decide +kernel
  split at answer
  · rename_i query s' run
    obtain ⟨names, ks, found, -, -, -, -, -, one⟩ := client_letters measured_letters run
    exact ⟨query, s', run, one (by decide +kernel)⟩
  · cases answer

/-- A section with all columns. -/
def everyColumn : DatasetSection :=
  ⟨[], [], [], [], [], [], ⟨match SQLQuery.loadAttributes .plain (of .dataset " *".toList) with
    | .ok select _ => select
    | .error _ _ => .leaf, of .dataset " t".toList, .leaf⟩, .leaf⟩

/-- A `*` asked for is put into the list as the client wrote it. -/
theorem star_asked : Own everyColumn.letters ∧ ∃ s', buildQuery (.reuse 1) id "*".toList everyColumn =
    .ok (lit "SELECT " ++ of .client "*".toList ++ (lit " FROM " ++ everyColumn.query.fromText) ++ lit ";") s' := by
  have all : (everyColumn.letters.all fun x => x.origin != .client) = true := by decide +kernel
  have answer : (match buildQuery (.reuse 1) id "*".toList everyColumn with
      | .ok query _ => decide (query = lit "SELECT " ++ of .client "*".toList ++ (lit " FROM " ++ everyColumn.query.fromText) ++ lit ";")
      | .error _ _ => false) = true := by decide +kernel
  refine ⟨fun x mem => by simpa using List.all_eq_true.1 all x mem, ?_⟩
  split at answer
  · rename_i query s' run
    rw [decide_eq_true_eq] at answer
    subst answer
    exact ⟨s', run⟩
  · cases answer

end SQLTextContainer

end SqlHandler
