import SqlHandler.Container.Statements

/-!
# The conditions of a statement

The `WHERE` clause of a statement joins the conditions of the section and behind them those of
the request. The attribute of a condition of the request is looked up in the section; where
it is not found nothing stands for it (`conjuncts_complete_iff`).
-/

namespace SqlHandler
open Posix Text Stl

/-! ## Conjuncts -/

/-- A condition as it stands in a statement. -/
structure Conjunct where
  attr : Text
  operator : Text
  value : Text

namespace Conjunct

def text (k : Conjunct) : Text := k.attr ++ k.operator ++ k.value

/-- A comparator, or what stands for one. -/
def IsOperator (other : OtherMap) (operator : Text) : Prop :=
  operator.str ∈ comparators ∨ ∃ comparator ∈ comparators, SQLTextContainer.substitution other comparator = some operator

/-- No part of the condition is missing. -/
structure Complete (other : OtherMap) (k : Conjunct) : Prop where
  attr : k.attr ≠ []
  operator : IsOperator other k.operator
  value : k.value ≠ []

end Conjunct

theorem SQLTextContainer.substitution_ne {other : OtherMap} {comparator : Str} {subst : Text}
    (made : substitution other comparator = some subst) : subst ≠ [] := by
  unfold substitution at made
  split at made
  · cases made
    simp [lit, of]
  · split at made
    · cases made
      decide
    · split at made
      · cases made
        decide
      · cases made

theorem Conjunct.IsOperator.ne_nil {other : OtherMap} {operator : Text} (h : IsOperator other operator) : operator ≠ [] := by
  rcases h with comparator | ⟨comparator, -, made⟩
  · rintro rfl
    exact (comparator_compChar comparator).1 rfl
  · exact SQLTextContainer.substitution_ne made

/-- A condition of a section, with nothing missing. -/
structure OwnCondition (other : OtherMap) (c : SQLConstraint) : Prop where
  attr : c.attr.attr ≠ []
  comparator : c.comparator.str ∈ comparators
  substitute : c.substitute = [] ∨ SQLTextContainer.substitution other c.comparator.str = some c.substitute
  value : c.value ≠ []

/-- The letters of the three texts of an attribute. -/
def SQLAttribute.letters (a : SQLAttribute) : Text := a.attr ++ a.fullName ++ a.name

/-- They are those of the text it was made of. -/
theorem SQLAttribute.make_letters {attr : Text} {i : Nat} {a : SQLAttribute} (run : make attr i = .ok a) :
    ∀ x ∈ a.letters, x ∈ attr := by
  obtain ⟨rfl, -, -, full, name⟩ := make_ok run
  intro x mem
  simp only [letters, List.mem_append] at mem
  rcases mem with (mem | mem) | mem
  · exact mem
  · exact full x mem
  · exact name x mem

namespace SQLConstraint

/-- A condition of a section in a statement. -/
def conjunct (c : SQLConstraint) : Conjunct := ⟨c.attr.attr, c.operator, c.value⟩

/-- A condition of a request in a statement: its attribute is the one of the section. -/
def conjunctIn (select : SQLAttributeSetByName) (c : SQLConstraint) : Conjunct :=
  ⟨((find attrNameComp c.attr select).map SQLAttribute.fullName).getD [], c.operator, c.value⟩

/-- All letters of a condition. -/
def letters (c : SQLConstraint) : Text := c.attr.letters ++ c.comparator ++ c.substitute ++ c.value

theorem operator_ok {other : OtherMap} {c : SQLConstraint} (comparator : c.comparator.str ∈ comparators)
    (substitute : c.substitute = [] ∨ SQLTextContainer.substitution other c.comparator.str = some c.substitute) :
    Conjunct.IsOperator other c.operator := by
  unfold operator
  split
  · rename_i set
    exact .inr ⟨_, comparator, substitute.resolve_left set⟩
  · exact .inl comparator

end SQLConstraint

theorem OwnCondition.complete {other : OtherMap} {c : SQLConstraint} (h : OwnCondition other c) :
    c.conjunct.Complete other := ⟨h.attr, SQLConstraint.operator_ok h.comparator h.substitute, h.value⟩

/-- A substitute put in leaves the condition complete. -/
theorem OwnCondition.substituted {other : OtherMap} {before after : List SQLConstraint} (subst : Substituted other before after)
    (own : ∀ c ∈ before, OwnCondition other c) : ∀ c ∈ after, OwnCondition other c := by
  intro c mem
  obtain ⟨b, inBefore, core⟩ := subst.core_mem mem
  simp only [SQLConstraint.core, Prod.mk.injEq] at core
  have old := own b inBefore
  refine ⟨core.1 ▸ old.attr, core.2.1 ▸ old.comparator, ?_, core.2.2 ▸ old.value⟩
  rcases subst.operators c mem with same | set
  · exact (own c same).substitute
  · exact .inr set

namespace SQLTextContainer
variable {rt : Runtime}

/-- Conditions with ` AND ` between them. -/
def clauseText (ks : List Conjunct) : Text := (of .literal constrJoin).intercalate (ks.map Conjunct.text)

theorem joinConditions_eq (l : List SQLConstraint) : joinConditions l = clauseText (l.map SQLConstraint.conjunct) := by
  unfold joinConditions clauseText
  cases l with
  | nil => rfl
  | cons c l =>
    rw [List.map_cons, List.map_cons, intercalate_cons, List.map_map]
    have step : ∀ buf : Text, ∀ w : SQLConstraint, buf ++ of .literal constrJoin ++ w.toText = buf ++ (of .literal constrJoin ++ w.toText) :=
      fun buf w => List.append_assoc ..
    simp only [step]
    exact foldl_joined (of .literal constrJoin) SQLConstraint.toText l c.toText

/-- The letters of the conditions are letters of the clause. -/
theorem mem_clauseText {ks : List Conjunct} {k : Conjunct} {x : Letter} (mem : k ∈ ks) (inText : x ∈ k.text) :
    x ∈ clauseText ks := by
  cases ks with
  | nil => cases mem
  | cons first ks =>
    rw [clauseText, List.map_cons, intercalate_cons, List.mem_append]
    rcases List.mem_cons.1 mem with rfl | mem
    · exact .inl inText
    · exact .inr (List.mem_flatMap.2 ⟨k.text, List.mem_map_of_mem mem, List.mem_append_right _ inText⟩)

theorem clauseText_ne {ks : List Conjunct} {k : Conjunct} (mem : k ∈ ks) (text : k.text ≠ []) : clauseText ks ≠ [] := by
  obtain ⟨x, inText⟩ := List.exists_mem_of_ne_nil _ text
  exact List.ne_nil_of_mem (mem_clauseText mem inText)

/-- A round of the loop puts one more condition behind the others. -/
theorem addCondition_clause (select : SQLAttributeSetByName) {ks : List Conjunct} (start : clauseText ks = [] → ks = [])
    (c : SQLConstraint) : addCondition select (clauseText ks) c = clauseText (ks ++ [c.conjunctIn select]) := by
  have behind : addCondition select (clauseText ks) c =
      (if clauseText ks ≠ [] then clauseText ks ++ of .literal constrJoin else clauseText ks) ++ (c.conjunctIn select).text := by
    unfold addCondition SQLConstraint.conjunctIn Conjunct.text
    cases find attrNameComp c.attr select with
    | some ai => simp
    | none => simp
  rw [behind]
  rw [clauseText, clauseText, List.map_append, List.map_singleton, intercalate_concat]
  unfold clauseText at start
  by_cases empty : ks = []
  · subst empty
    rfl
  · rw [if_pos (mt start empty), if_neg (by simpa using empty), List.append_assoc]

theorem conditions_clause (select : SQLAttributeSetByName) {found : List SQLConstraint} (operators : ∀ c ∈ found, c.operator ≠ [])
    {ks : List Conjunct} (start : clauseText ks = [] → ks = []) :
    found.foldl (addCondition select) (clauseText ks) = clauseText (ks ++ found.map (SQLConstraint.conjunctIn select)) := by
  induction found generalizing ks with
  | nil => simp
  | cons c found ih =>
    rw [List.foldl_cons, addCondition_clause select start, ih (fun d mem => operators d (List.mem_cons_of_mem _ mem)),
      List.map_cons, List.append_assoc, List.singleton_append]
    have text : (c.conjunctIn select).text ≠ [] := by
      simp [Conjunct.text, SQLConstraint.conjunctIn, operators c List.mem_cons_self]
    exact fun empty => absurd empty (clauseText_ne (List.mem_append_right _ (List.mem_singleton_self _)) text)

/-- A condition made of a match: the words of the grammar, of the letters of the text. -/
structure OfGrammar (row : Text) (c : SQLConstraint) : Prop where
  attr : IsConstrAttr c.attr.attr.str
  comparator : c.comparator.str ∈ comparators
  value : IsConstrVal c.value.str
  substitute : c.substitute = []
  letters : ∀ x ∈ c.letters, x ∈ row

theorem loadConstraints_grammar {shape : Shape} {row left : Text} {cs : SQLConstraintSet}
    (run : SQLQuery.loadConstraints shape row = .ok cs left) : ∀ c ∈ cs.toList, OfGrammar row c := by
  obtain ⟨cuts, path, inserted⟩ := SQLQuery.loadConstraints_iff.1 run
  obtain ⟨constraints, all, elements⟩ := SQLQuery.insertConstraints_ok inserted
  intro c mem
  have made : Except.ok c ∈ constraints.map (Except.ok (ε := Fault)) :=
    List.mem_map_of_mem (elements.mem_iff.1 mem)
  rw [← all, List.map_map] at made
  obtain ⟨cut, inCuts, run⟩ := List.mem_map.1 made
  obtain ⟨w, p, t, -, -, -, a, comparator, v, stored, attr, comp, value⟩ := constraint_found (path.found cut inCuts)
  obtain ⟨makes, comparators', values⟩ := SQLQuery.made_ok run
  have attrs := (SQLAttribute.make_ok makes).1
  have substitute := congrArg SQLConstraint.substitute (Except.ok.inj ((SQLQuery.made_of makes).symm.trans run))
  have inRow : ∀ t ∈ [a, comparator, v], ∀ x ∈ t, x ∈ row := by
    intro t ht x hx
    rw [← stored] at ht
    exact path.letters.1 cut inCuts x (StringMatch.mem_extract ht hx)
  dsimp only at attrs comparators' values
  rw [stored] at attrs comparators' values
  constructor
  · rw [attrs]
    exact attr ▸ w.attr_ok
  · rw [comparators']
    exact comp ▸ w.comparator_mem
  · rw [values]
    exact value ▸ w.value_ok
  · exact substitute.symm
  · intro x mem
    rw [SQLConstraint.letters, substitute.symm, comparators', values] at mem
    simp only [List.mem_append, List.not_mem_nil, or_false] at mem
    rcases mem with (mem | mem) | mem
    · have inText := SQLAttribute.make_letters makes x mem
      dsimp only at inText
      rw [stored] at inText
      exact inRow a (by simp) x inText
    · exact inRow comparator (by simp) x mem
    · exact inRow v (by simp) x mem

/-! ## Complete conditions -/

/-- The section knows the attribute of the condition by a name of its own, and there is a value. -/
def Usable (select : SQLAttributeSetByName) (c : SQLConstraint) : Prop :=
  ∃ a, find attrNameComp c.attr select = some a ∧ a.fullName ≠ [] ∧ c.value ≠ []

theorem usable_core {select : SQLAttributeSetByName} {c d : SQLConstraint} (same : c.core = d.core) :
    Usable select c ↔ Usable select d := by
  simp only [SQLConstraint.core, Prod.mk.injEq] at same
  unfold Usable
  rw [same.1, same.2.2]

theorem complete_iff {other : OtherMap} {select : SQLAttributeSetByName} {c : SQLConstraint}
    (operator : Conjunct.IsOperator other c.operator) : (c.conjunctIn select).Complete other ↔ Usable select c := by
  unfold SQLConstraint.conjunctIn Usable
  cases find attrNameComp c.attr select with
  | none =>
    refine iff_of_false (fun complete => complete.attr rfl) ?_
    rintro ⟨_, found, -⟩
    cases found
  | some a =>
    constructor
    · exact fun complete => ⟨a, rfl, complete.attr, complete.value⟩
    · rintro ⟨_, e, name, value⟩
      cases e
      exact ⟨name, operator, value⟩

/-- The `WHERE` clause of a statement joins the conditions of the section and those loaded from
the request. None of them lacks a part if and only if each one loaded is known to the section. -/
theorem conjuncts_complete_iff {www2id : Str → Str} {constraint : Str} {s s' : DatasetSection} {query : Text}
    (own : ∀ c ∈ s.whereSet.toList, OwnCondition s.other c) (run : buildQuery rt www2id constraint s = .ok query s') :
    ∃ attrs before found left,
      query = lit "SELECT " ++ attrs ++ (lit " FROM " ++ s.query.fromText) ++
        whereText (clauseText (before.map SQLConstraint.conjunct ++ found.map (SQLConstraint.conjunctIn s.query.select))) ++
        lit ";" ∧
      Substituted s.other s.whereSet.toList before ∧
      Loads rt s (splitConstraint (of .client (www2id constraint))).2 left found ∧
      ((∀ k ∈ before.map SQLConstraint.conjunct ++ found.map (SQLConstraint.conjunctIn s.query.select), k.Complete s.other) ↔
        ∀ loaded left, SQLQuery.loadConstraints rt.shape (splitConstraint (of .client (www2id constraint))).2 = .ok loaded left →
          ∀ c ∈ loaded.toList, Usable s.query.select c) := by
  obtain ⟨attrs, left, found, left', t, -, -, substituted, loads, rfl⟩ := buildQuery_ok run
  have owned := OwnCondition.substituted substituted own
  obtain ⟨loaded, load, subst⟩ := loads
  have grammar := loadConstraints_grammar load
  have operators : ∀ c ∈ found, Conjunct.IsOperator s.other c.operator := by
    intro c mem
    obtain ⟨b, inLoaded, core⟩ := subst.core_mem mem
    simp only [SQLConstraint.core, Prod.mk.injEq] at core
    refine SQLConstraint.operator_ok (core.2.1 ▸ (grammar b inLoaded).comparator) ?_
    rcases subst.operators c mem with same | set
    · exact .inl (grammar c same).substitute
    · exact .inr set
  have start : clauseText (t.toList.map SQLConstraint.conjunct) = [] → t.toList.map SQLConstraint.conjunct = [] := by
    intro empty
    refine List.eq_nil_iff_forall_not_mem.2 fun k mem => clauseText_ne mem ?_ empty
    obtain ⟨c, inSet, rfl⟩ := List.mem_map.1 mem
    simp [Conjunct.text, (owned c inSet).complete.attr]
  refine ⟨selectClause attrs, t.toList, found, left', ?_, substituted, ⟨loaded, load, subst⟩, ?_⟩
  · rw [joinConditions_eq, conditions_clause _ (fun c mem => (operators c mem).ne_nil) start]
  · constructor
    · intro complete loaded' left₁ again c mem
      obtain ⟨rfl, -⟩ := EStateM.Result.ok.inj (again.symm.trans load)
      obtain ⟨d, inFound, core⟩ := subst.core_found mem
      rw [← usable_core core]
      exact (complete_iff (operators d inFound)).1 (complete _ (List.mem_append_right _ (List.mem_map_of_mem inFound)))
    · intro usable k mem
      rcases List.mem_append.1 mem with mem | mem
      · obtain ⟨c, inSet, rfl⟩ := List.mem_map.1 mem
        exact (owned c inSet).complete
      · obtain ⟨c, inFound, rfl⟩ := List.mem_map.1 mem
        obtain ⟨b, inLoaded, core⟩ := subst.core_mem inFound
        rw [complete_iff (operators c inFound), ← usable_core core]
        exact usable loaded left' load b inLoaded

/-- A section with the attributes `x` and `y` and the condition `x>1`. -/
def measured : DatasetSection :=
  ⟨[], [], [], [], [], [], ⟨match SQLQuery.loadAttributes .plain (of .dataset " x, y".toList) with
    | .ok select _ => select
    | .error _ _ => .leaf, of .dataset " t".toList, match SQLQuery.loadConstraints .plain (of .dataset " x>1".toList) with
    | .ok whereSet _ => whereSet
    | .error _ _ => .leaf⟩, .leaf⟩

theorem measured_own : ∀ c ∈ measured.whereSet.toList, OwnCondition measured.other c := by
  have parts : (measured.whereSet.toList.all fun c => decide (c.attr.attr ≠ [] ∧ c.comparator.str ∈ comparators ∧
      c.substitute = [] ∧ c.value ≠ [])) = true := by decide +kernel
  intro c mem
  have here := List.all_eq_true.1 parts c mem
  rw [decide_eq_true_eq] at here
  exact ⟨here.1, here.2.1, .inl here.2.2.1, here.2.2.2⟩

theorem measured_complete : ∃ (query : Text) (s' : DatasetSection) (attrs : Text) (before found : List SQLConstraint) (left : Text),
    buildQuery (.reuse 3) id "x&y=5".toList measured = .ok query s' ∧
      query = lit "SELECT " ++ attrs ++ (lit " FROM " ++ measured.query.fromText) ++ whereText (clauseText
        (before.map SQLConstraint.conjunct ++ found.map (SQLConstraint.conjunctIn measured.query.select))) ++ lit ";" ∧
      Loads (.reuse 3) measured (splitConstraint (of .client "x&y=5".toList)).2 left found := by
  have answer : (match buildQuery (.reuse 3) id "x&y=5".toList measured with
      | .ok _ _ => true
      | .error _ _ => false) = true := by decide +kernel
  split at answer
  · rename_i query s' run
    obtain ⟨attrs, before, found, left, text, -, loads, -⟩ := conjuncts_complete_iff measured_own run
    exact ⟨query, s', attrs, before, found, left, run, text, loads⟩
  · cases answer

/-- A condition on an attribute the section does not have is left without it. -/
theorem bare_condition : (∀ c ∈ measured.whereSet.toList, OwnCondition measured.other c) ∧
    ∃ (query : Text) (s' : DatasetSection), buildQuery (.reuse 3) id "x&z=5".toList measured = .ok query s' ∧
      query.str = "SELECT x FROM  t WHERE x>1 AND =5;".toList := by
  refine ⟨measured_own, ?_⟩
  have answer : (match buildQuery (.reuse 3) id "x&z=5".toList measured with
      | .ok query _ => query.str == "SELECT x FROM  t WHERE x>1 AND =5;".toList
      | .error _ _ => false) = true := by decide +kernel
  split at answer
  · rename_i query s' run
    exact ⟨query, s', run, beq_iff_eq.1 answer⟩
  · cases answer

end SQLTextContainer

end SqlHandler
