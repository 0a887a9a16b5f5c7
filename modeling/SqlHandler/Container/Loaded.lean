import SqlHandler.Container.Cutting
import SqlHandler.Container.Origins
import SqlHandler.Container.Variables

/-!
# Sections as they were loaded

A section that a scan stores holds what `loadConstraints` and `loadAttributes` made of texts of
the file, and the statements built of it put substitutes in and nothing else (`Served.loaded`). So
its conditions are words of the grammar, in letters of the file (`Served.conditions`).
-/

namespace SqlHandler
open Posix Text Stl

/-- All letters come from the dataset. -/
def OfDataset (t : Text) : Prop := ∀ x ∈ t, x.origin = .dataset

namespace SQLTextContainer
variable {rt : Runtime}

/-- The conditions and the attributes of a section are those of texts of the dataset. -/
structure Loaded (rt : Runtime) (s : DatasetSection) : Prop where
  conditions : ∃ row left cs, SQLQuery.loadConstraints rt.shape row = .ok cs left ∧ OfDataset row ∧
    Substituted s.other cs.toList s.whereSet.toList
  names : ∃ row left, SQLQuery.loadAttributes rt.shape row = .ok s.query.select left ∧ OfDataset row

/-! ## Sections read -/

/-- What a scan keeps: the section under construction has no conditions yet. -/
structure Loading (rt : Runtime) (r : Reading) : Prop where
  letters : ReadLetters (fun x => x.origin = .dataset) r
  blank : r.newSection.whereSet.toList = []
  sections : ∀ s ∈ r.dataset, Loaded rt s

theorem Stored.loaded {r : Reading} {s : DatasetSection} (stored : Stored rt r s) (h : Loading rt r) : Loaded rt s where
  conditions := by
    have loaded := stored.whereLoaded
    split at loaded
    · obtain ⟨left, run⟩ := loaded
      exact ⟨r.whereBuf, left, s.whereSet, run, h.letters.whereBuf, .refl _ _⟩
    · refine ⟨[], [], .leaf, loadConstraints_nil rt.shape, nofun, ?_⟩
      rw [loaded, h.blank]
      exact .refl _ _
  names := by
    obtain ⟨left, run⟩ := stored.selectLoaded
    exact ⟨r.attributeBuf, left, run, h.letters.attributeBuf⟩

theorem addNewSection_loaded {r r' : Reading} (run : addNewSection rt r = .ok () r') (h : Loading rt r) :
    ∀ s ∈ r'.dataset, Loaded rt s := by
  obtain ⟨s, stored, dataset, -⟩ := addNewSection_ok run
  rw [dataset]
  intro s' mem
  rcases List.mem_append.1 mem with mem | mem
  · exact h.sections s' mem
  · rw [List.mem_singleton.1 mem]
    exact stored.loaded h

theorem setParameter_query {key val : Str} {r r' : Reading} (set : setParameter key val r = some r') :
    r'.newSection.query = r.newSection.query := by
  unfold setParameter at set
  split at set
  · cases set
    split <;> rfl
  · split at set
    · cases set
      split <;> rfl
    · repeat' split at set
      all_goals cases set
      all_goals rfl

theorem rowAction_whereSet (part : DatasetPart) (row : Str) (r : Reading) :
    (rowAction rt part row r).newSection.whereSet = r.newSection.whereSet := by
  unfold rowAction
  split
  · split <;> rfl
  · unfold appendRow
    split <;> rfl

theorem RowEffect.loading {row : Str} {r r' : Reading} (effect : RowEffect rt row r r') (h : Loading rt r) : Loading rt r' := by
  have letters := RowEffect.letters (P := fun x => x.origin = .dataset) rfl effect (fun _ _ => rfl) h.letters
  refine ⟨letters, ?_, ?_⟩
  · cases effect with
    | idle => exact h.blank
    | definition => exact h.blank
    | @part text =>
      cases partOf text <;> exact h.blank
    | first => exact h.blank
    | next => rfl
    | parameter kind made at' found set =>
      have blank := h.blank
      unfold DatasetSection.whereSet at blank ⊢
      rw [setParameter_query set]
      exact blank
    | added =>
      rw [rowAction_whereSet]
      exact h.blank
  · cases effect with
    | idle => exact h.sections
    | definition => exact h.sections
    | @part text =>
      cases partOf text <;> exact h.sections
    | first => exact h.sections
    | next kind start stored =>
      have sections := addNewSection_loaded stored h
      exact sections
    | parameter kind made at' found set =>
      rw [(setParameter_leaves set).dataset]
      exact h.sections
    | added =>
      rw [(rowAction_leaves _ _ _).1.dataset]
      exact h.sections

theorem readRows_loading {rows : List Str} {r r' : Reading} (run : readRows rt rows r = .ok () r') (h : Loading rt r) :
    Loading rt r' := by
  induction rows generalizing r with
  | nil =>
    cases run
    exact h
  | cons row rows ih =>
    obtain ⟨⟨⟩, r₁, first, rest⟩ := Proc.of_bind_ok run
    exact ih rest (RowEffect.loading (readRow_effect first) h)

theorem read_loaded {unset : DatasetPart} {text : Str} {c : SQLTextContainer} {b : Bool}
    (run : read rt unset (some text) .fresh = .ok b c) : ∀ s ∈ c.dataset, Loaded rt s := by
  obtain ⟨r, scanned, rfl⟩ := read_ok run
  obtain ⟨⟨⟩, r₁, first, rest⟩ := Proc.of_bind_ok scanned
  have kept : Loading rt r₁ := readRows_loading first ⟨fresh_letters unset, rfl, nofun⟩
  rw [Proc.get_bind] at rest
  split at rest
  · cases rest
    exact kept.sections
  · obtain ⟨⟨⟩, r₂, add, last⟩ := Proc.of_bind_ok rest
    cases last
    exact addNewSection_loaded add kept

/-! ## Sections asked for statements -/

theorem Loaded.setWhere {s : DatasetSection} {t : SQLConstraintSet} (h : Loaded rt s)
    (subst : Substituted s.other s.whereSet.toList t.toList) : Loaded rt (s.setWhere t) where
  conditions := by
    obtain ⟨row, left, cs, load, letters, before⟩ := h.conditions
    exact ⟨row, left, cs, load, letters, before.trans subst⟩
  names := h.names

theorem Served.loaded {unset : DatasetPart} {text : Str} {s : DatasetSection} (served : Served rt unset text s) : Loaded rt s := by
  induction served with
  | stored run mem => exact read_loaded run _ mem
  | asked before run ih =>
    obtain ⟨-, -, -, -, t, -, rfl, subst, -⟩ := buildQuery_ok run
    exact ih.setWhere subst
  | counted before run ih =>
    obtain ⟨-, -, t, rfl, subst, -⟩ := buildCountQuery_ok run
    exact ih.setWhere subst

/-! ## The conditions of a section -/

/-- A condition of a section: a word of the grammar in letters of the file, and its substitute if it has one. -/
structure IsCondition (other : OtherMap) (c : SQLConstraint) : Prop where
  made : SQLAttribute.make c.attr.attr 0 = .ok c.attr
  attr : IsConstrAttr c.attr.attr.str
  comparator : c.comparator.str ∈ comparators
  value : IsConstrVal c.value.str
  letters : OfDataset (c.attr.attr ++ c.comparator ++ c.value)
  substitute : c.substitute = [] ∨ substitution other c.comparator.str = some c.substitute

theorem loadConstraints_made {shape : Shape} {row left : Text} {cs : SQLConstraintSet}
    (run : SQLQuery.loadConstraints shape row = .ok cs left) : ∀ c ∈ cs.toList, SQLAttribute.make c.attr.attr 0 = .ok c.attr := by
  obtain ⟨cuts, path, inserted⟩ := SQLQuery.loadConstraints_iff.1 run
  obtain ⟨constraints, all, elements⟩ := SQLQuery.insertConstraints_ok inserted
  intro c mem
  have made : Except.ok c ∈ constraints.map (Except.ok (ε := Fault)) := List.mem_map_of_mem (elements.mem_iff.1 mem)
  rw [← all] at made
  obtain ⟨groups, -, run⟩ := List.mem_map.1 made
  obtain ⟨makes, -, -⟩ := SQLQuery.made_ok run
  rw [(SQLAttribute.make_ok makes).1]
  exact makes

theorem Loaded.isCondition {s : DatasetSection} (h : Loaded rt s) : ∀ c ∈ s.whereSet.toList, IsCondition s.other c := by
  obtain ⟨row, left, cs, load, letters, subst⟩ := h.conditions
  intro c mem
  obtain ⟨b, inLoaded, core⟩ := subst.core_mem mem
  simp only [SQLConstraint.core, Prod.mk.injEq] at core
  obtain ⟨attr, comparator, value⟩ := core
  have grammar := loadConstraints_grammar load b inLoaded
  have made := loadConstraints_made load b inLoaded
  rw [attr] at made
  refine ⟨made, attr ▸ grammar.attr, comparator ▸ grammar.comparator, value ▸ grammar.value, ?_, ?_⟩
  · intro x inText
    refine letters x (grammar.letters x ?_)
    rw [← attr, ← comparator, ← value] at inText
    simp only [SQLConstraint.letters, SQLAttribute.letters, List.mem_append] at inText ⊢
    tauto
  · rcases subst.operators c mem with same | set
    · exact .inl (loadConstraints_grammar load c same).substitute
    · exact .inr set

/-- A name of the section in letters of the file, none of them a blank or one of a comparator. -/
theorem Loaded.fullName {s : DatasetSection} (h : Loaded rt s) : ∀ a ∈ s.query.select.toList,
    OfDataset a.fullName ∧ ∀ c ∈ a.fullName.str, c ≠ ' ' ∧ compChar c = false := by
  obtain ⟨row, left, load, letters⟩ := h.names
  intro a mem
  obtain ⟨attr, i, make, inRow⟩ := loadAttributes_letters load a mem
  obtain ⟨-, -, form, full, -⟩ := SQLAttribute.make_ok make
  refine ⟨fun x inName => letters x (inRow x (full x inName)), ?_⟩
  have path : ∀ p : AttrPath, ∀ c ∈ p.text, c ≠ ' ' ∧ compChar c = false := by
    intro p c inPath
    refine ⟨(p.letter_ne inPath).1, ?_⟩
    rcases p.letter inPath with name | rfl
    · cases comp : compChar c with
      | false => rfl
      | true =>
        simp only [compChar, Bool.or_eq_true, beq_iff_eq] at comp
        rcases comp with (((rfl | rfl) | rfl) | rfl) | rfl <;> exact absurd name (by decide)
    · decide
  intro c inName
  generalize a.fullName.str = full at form inName
  generalize a.name.str = name at form
  generalize attr.cStr = text at form
  cases form with
  | path p => exact path p c inName
  | aliased p => exact path p c inName
  | star => cases inName

end SQLTextContainer

end SqlHandler
