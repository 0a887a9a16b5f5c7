import SqlHandler.Container.RoundTrip

/-!
# The statement of a described section

`buildQuery` on the section stored of a description, asked with a written request. The statement
lists the columns asked for and has the conditions of both, so it gives the rows of the table that
meet all of them (`written_asked`).
-/

namespace SqlHandler
open Posix Text Stl

/-! ## Statements -/

/-- A condition of a statement. -/
structure Comparison where
  column : Str
  operator : Str
  value : Str

def Comparison.text (c : Comparison) : Str := c.column ++ c.operator ++ c.value

/-- What a `SELECT` statement says. -/
structure Statement where
  columns : List Str
  table : Str
  conditions : List Comparison

namespace Statement

def whereText (s : Statement) : Str :=
  if s.conditions.isEmpty then [] else " WHERE ".toList ++ constrJoin.intercalate (s.conditions.map Comparison.text)

def text (s : Statement) : Str :=
  "SELECT ".toList ++ [','].intercalate s.columns ++ (" FROM ".toList ++ s.table) ++ s.whereText ++ ";".toList

/-- The rows it gives of the rows of the table. -/
def rows {α : Type} (meaning : Comparison → α → Bool) (s : Statement) (table : List α) : List α :=
  table.filter fun row => s.conditions.all fun c => meaning c row

/-- Only what the conditions mean counts, not their order. -/
theorem rows_eq {α : Type} {meaning : Comparison → α → Bool} {s : Statement} {l l' : List Comparison}
    (same : List.Forall₂ (fun c c' => meaning c = meaning c') s.conditions l) (perm : l.Perm l') (table : List α) :
    s.rows meaning table = table.filter fun row => l'.all fun c => meaning c row := by
  have all : ∀ row, (s.conditions.all fun c => meaning c row) = l'.all fun c => meaning c row := by
    intro row
    rw [← perm.all_eq]
    clear perm
    generalize s.conditions = conditions at same
    induction same with
    | nil => rfl
    | cons here _ ih => rw [List.all_cons, List.all_cons, here, ih]
  unfold rows
  simp only [all]

end Statement

/-! ## Requests -/

/-- What a client asks for: columns by name, and conditions. -/
structure Request where
  columns : List Column
  conditions : List Clause
  grammar : ∀ k ∈ conditions, IsConstrAttr k.name.text ∧ IsConstrVal k.value

namespace Request

def columnRow (q : Request) : Str := [','].intercalate (q.columns.map Column.text)

/-- The conditions, with a `&` in front. -/
def conditionRow (q : Request) : Str := q.conditions.flatMap fun k => '&' :: k.text

def text (q : Request) : Str := q.columnRow ++ q.conditionRow

end Request

namespace Column

theorem columnRow_letters (ks : List Column) : ∀ c ∈ [','].intercalate (ks.map text), c ≠ '&' := by
  have letter : ∀ k : Column, ∀ c ∈ k.text, c ≠ '&' := by
    intro k c mem
    rintro rfl
    exact absurd (k.letter _ mem) (by decide)
  cases ks with
  | nil => exact List.forall_mem_nil _
  | cons k ks =>
    intro c mem
    rw [List.map_cons, intercalate_cons, List.flatMap_map] at mem
    rcases List.mem_append.1 mem with mem | mem
    · exact letter k c mem
    · obtain ⟨j, -, mem⟩ := List.mem_flatMap.1 mem
      rcases List.mem_cons.1 mem with rfl | mem
      · decide
      · exact letter j c mem

end Column

/-! ## What a description says of a request -/

namespace Description
open SQLTextContainer

/-- What stands for a comparator in a statement. -/
def operator (d : Description) (comparator : Str) : Option Str :=
  match (d.others.map keyed).find? fun p => p.1 = comparator with
  | some p => some (" ".toList ++ p.2 ++ " ".toList)
  | none =>
    if comparator = "!=".toList then some "<>".toList
    else if comparator = "~=".toList then some " LIKE ".toList
    else none

theorem operator_ne (d : Description) (comparator : Str) : d.operator comparator ≠ some [] := by
  unfold operator
  split
  · simp
  · split
    · decide
    · split <;> decide

/-- The full name of the column with a name. -/
def fullName (d : Description) (name : Str) : Str :=
  ((d.columns.find? fun k => k.name = name).map fun k => k.path.text).getD []

/-- A condition of the section. -/
def own (k : Clause) : Comparison := ⟨k.name.text, k.comparator, k.value⟩

/-- A condition of a request. -/
def asked (d : Description) (k : Clause) : Comparison := ⟨d.fullName k.name.last, k.comparator, k.value⟩

/-- The statement that is meant: the columns asked for, or all of them if none is, and the conditions of both. -/
def ask (d : Description) (q : Request) : Statement where
  columns := (orAll (d.columns.filter fun k => decide (k.name ∈ q.columns.map Column.name)) d.columns).map Column.text
  table := ' ' :: d.fromText
  conditions := d.conditions.map own ++ q.conditions.map d.asked

/-- The same condition, maybe with what stands for its comparator. -/
def StandsFor (d : Description) (c c' : Comparison) : Prop :=
  c.column = c'.column ∧ c.value = c'.value ∧ (c.operator = c'.operator ∨ d.operator c'.operator = some c.operator)

/-- The statement says what is meant. -/
structure Means (d : Description) (q : Request) (st : Statement) : Prop where
  columns : st.columns = (d.ask q).columns
  table : st.table = (d.ask q).table
  conditions : ∃ l, List.Forall₂ d.StandsFor st.conditions l ∧ l.Perm (d.ask q).conditions

/-- It has the rows that meet every condition of the section and of the request, if what stands for a
comparator means the same. -/
theorem Means.rows {d : Description} {q : Request} {st : Statement} (meant : d.Means q st) {α : Type} {meaning : Comparison → α → Bool}
    (respected : ∀ c c', d.StandsFor c c' → meaning c = meaning c') (table : List α) : st.rows meaning table =
      table.filter fun row => (d.conditions.all fun k => meaning (own k) row) && q.conditions.all fun k => meaning (d.asked k) row := by
  obtain ⟨l, stands, perm⟩ := meant.conditions
  rw [Statement.rows_eq (stands.imp respected) perm]
  simp only [ask, List.all_append, List.all_map, Function.comp_def]

end Description

namespace SQLTextContainer
variable {rt : Runtime}

theorem splitConstraint_plain {u : Str} (plain : ∀ c ∈ u, c ≠ '&') (origin : Origin) :
    splitConstraint (of origin u) = (of origin u, []) := by
  have none : u.findIdx? (· == '&') = none := List.findIdx?_eq_none_iff.2 fun c mem => by simpa using plain c mem
  unfold splitConstraint
  rw [str_of, none]

theorem splitConstraint_amp {u : Str} (plain : ∀ c ∈ u, c ≠ '&') (w : Str) (origin : Origin) :
    splitConstraint (of origin (u ++ '&' :: w)) =
      (of origin u, if u = [] then of origin ('&' :: w) else of origin w) := by
  have none : u.findIdx? (· == '&') = none := List.findIdx?_eq_none_iff.2 fun c mem => by simpa using plain c mem
  have found : (u ++ '&' :: w).findIdx? (· == '&') = some u.length := by
    rw [List.findIdx?_append, none, List.findIdx?_cons]
    simp
  unfold splitConstraint
  rw [str_of, found]
  cases u with
  | nil => rfl
  | cons c u =>
    have behind : of origin (c :: u ++ '&' :: w) = of origin (c :: u) ++ of origin ('&' :: w) := List.map_append ..
    have length : (c :: u).length = (of origin (c :: u)).length := (List.length_map ..).symm
    rw [if_neg (List.cons_ne_nil c u), behind, length]
    change (List.take _ _, List.drop _ _) = _
    rw [List.take_left, List.drop_length_add_append]
    rfl

/-! ## What is loaded of a request -/

/-- The names of the columns asked for. -/
theorem columns_asked (shape : Shape) (ks : List Column) : ∃ asked left,
    SQLQuery.loadAttributes shape (of .client ([','].intercalate (ks.map Column.text))) = .ok asked left ∧
      ∀ n, n ∈ asked.toList.map SQLAttribute.nameKey ↔ n ∈ ks.map Column.name := by
  cases ks with
  | nil =>
    have none : (([] : List SQLAttribute)).map Except.ok = (recognised (of .client [])).mapIdx fun i x => SQLAttribute.make x i := by
      decide
    obtain ⟨left, run⟩ := AttributeList.loadAttributes_of shape none
    exact ⟨_, left, run, fun n => Iff.rfl⟩
  | cons k ks =>
    have shown := Column.items_shown (List.cons_ne_nil k ks) (List.forall_mem_nil (· = ' ')) (str_of .client _)
    obtain ⟨left, attrs, run, readings, -⟩ := Column.row_loaded shape shown
    refine ⟨_, left, run, fun n => ?_⟩
    rw [← Column.names_eq readings]
    exact mem_keys shape attrs n

/-- Conditions behind a `&` each, as the words of a chain. -/
theorem chain_behind {clauses : List Clause} (grammar : ∀ k ∈ clauses, IsConstrAttr k.name.text ∧ IsConstrVal k.value) :
    ∃ ks : List ConstrWord, (clauses.flatMap fun k => '&' :: k.text) = ks.flatMap ConstrWord.word ∧
      (∀ k ∈ ks, k.front = ['&']) ∧ List.Forall₂ Clause.Word ks clauses := by
  induction clauses with
  | nil => exact ⟨[], rfl, List.forall_mem_nil _, .nil⟩
  | cons k clauses ih =>
    obtain ⟨name, value⟩ := grammar k List.mem_cons_self
    obtain ⟨ks, text, fronts, said⟩ := ih fun j mem => grammar j (List.mem_cons_of_mem _ mem)
    let w := k.word ['&'] (.inr rfl) name value
    have here : Clause.Word w k := ⟨rfl, rfl, rfl⟩
    refine ⟨w :: ks, ?_, List.forall_mem_cons.2 ⟨rfl, fronts⟩, .cons here said⟩
    rw [List.flatMap_cons, List.flatMap_cons, text]
    simp [w, Clause.word, Clause.text, ConstrWord.word, ConstrWord.upTo]

/-- The conditions of a request, with or without the first `&`. -/
theorem conditions_asked (shape : Shape) {k : Clause} {more : List Clause}
    (grammar : ∀ j ∈ k :: more, IsConstrAttr j.name.text ∧ IsConstrVal j.value) (amp : Str) (front : amp = [] ∨ amp = ['&']) :
    ∃ cs left, SQLQuery.loadConstraints shape (of .client (amp ++ k.text ++ more.flatMap fun k => '&' :: k.text)) = .ok cs left ∧
      (cs.toList.map SQLConstraint.reading).Perm ((k :: more).map Clause.reading) := by
  obtain ⟨name, value⟩ := grammar k List.mem_cons_self
  obtain ⟨ks, text, fronts, said⟩ := chain_behind fun j mem => grammar j (List.mem_cons_of_mem _ mem)
  let w := k.word amp front name value
  have here : Clause.Word w k := ⟨rfl, rfl, rfl⟩
  have row : (of .client (amp ++ k.text ++ more.flatMap fun k => '&' :: k.text)).str = (w :: ks).flatMap ConstrWord.word := by
    rw [str_of, List.flatMap_cons, text]
    simp [w, Clause.word, Clause.text, ConstrWord.word, ConstrWord.upTo]
  have behind : ∀ j ∈ (w :: ks).tail, j.front = ['&'] := fronts
  obtain ⟨cuts, left, path, extracts⟩ := words_cut behind row
  obtain ⟨cs, run, perm⟩ := Clause.loaded_of shape path extracts (.cons here said)
  exact ⟨cs, left, run, perm⟩

/-! ## What a statement has of a section -/

/-- What stands for a comparator in the section. -/
theorem Described.operator {d : Description} {s : DatasetSection} (described : Described d s) (comparator : Str) :
    (substitution s.other comparator).map str = d.operator comparator := by
  unfold substitution Description.operator
  rw [described.others]
  cases (d.others.map keyed).find? fun p => p.1 = comparator with
  | some p =>
    change some (str (lit " " ++ of .dataset p.2 ++ lit " ")) = _
    rw [str_append, str_append, str_of]
    rfl
  | none =>
    dsimp only [Option.map_none]
    split
    · rfl
    · split <;> rfl

/-- The column of the section a condition of a request is about. -/
theorem Described.fullName {d : Description} {s : DatasetSection} (described : Described d s) (b : SQLAttribute) :
    (((find attrNameComp b s.query.select).map SQLAttribute.fullName).getD []).str = d.fullName b.name.str := by
  obtain ⟨attrs, readings, -, same⟩ := described.columns
  have pairs : List.Forall₂ (fun (a : SQLAttribute) (k : Column) => a.reading = k.reading) attrs d.columns :=
    List.forall₂_map_left_iff.1 (List.forall₂_map_right_iff.1 (readings ▸ List.forall₂_refl _))
  have byName : ∀ {a : SQLAttribute} {k : Column}, a.reading = k.reading → a.nameKey = k.name ∧ a.fullName.str = k.path.text := by
    intro a k same
    simp only [SQLAttribute.reading, Column.reading, Prod.mk.injEq] at same
    exact ⟨same.2.2, same.2.1⟩
  unfold Description.fullName
  cases found : d.columns.find? fun k => k.name = b.name.str with
  | none =>
    have absent : find attrNameComp b s.query.select = none := by
      refine (find_byKey_none described.ordered).2 fun a mem => ?_
      obtain ⟨k, inColumns, reading⟩ := (forall₂_mem pairs).2 a ((same a).1 mem)
      have other : k.name ≠ b.name.str := by simpa using List.find?_eq_none.1 found k inColumns
      exact (byName reading).1 ▸ other
    rw [absent]
    rfl
  | some k =>
    have name : k.name = b.name.str := by simpa using List.find?_some found
    obtain ⟨a, inAttrs, reading⟩ := (forall₂_mem pairs).1 k (List.mem_of_find?_eq_some found)
    have held : find attrNameComp b s.query.select = some a :=
      (find_byKey described.ordered).2 ⟨(same a).2 inAttrs, (byName reading).1.trans name⟩
    rw [held]
    exact (byName reading).2

theorem Described.names_plain {d : Description} {s : DatasetSection} (described : Described d s) :
    ∀ a ∈ s.query.select.toList, a.name.str ≠ ['*'] := by
  intro a mem star
  obtain ⟨attrs, readings, -, same⟩ := described.columns
  have inNames : a.nameKey ∈ d.columns.map Column.name := Column.names_eq readings ▸ List.mem_map_of_mem ((same a).1 mem)
  obtain ⟨k, -, name⟩ := List.mem_map.1 inNames
  exact k.name_ne (name.trans star)

/-- Constraints that were loaded as conditions, whatever was substituted since. -/
theorem substituted_stand {d : Description} {s : DatasetSection} (described : Described d s) {before after : List SQLConstraint}
    {clauses : List Clause} (subst : Substituted s.other before after) (unset : ∀ c ∈ before, c.substitute = [])
    (perm : (before.map SQLConstraint.reading).Perm (clauses.map Clause.reading)) : ∃ l : List Clause, l.Perm clauses ∧
      List.Forall₂ (fun (c : SQLConstraint) (k : Clause) => c.reading = k.reading ∧
        (c.operator.str = k.comparator ∨ d.operator k.comparator = some c.operator.str)) after l := by
  have readings : (after.map SQLConstraint.reading).Perm (clauses.map Clause.reading) := by
    have cores := subst.same.map fun t : SQLAttribute × Text × Text => (t.1.attr.str, t.1.name.str, t.2.1.str, t.2.2.str)
    rw [List.map_map, List.map_map] at cores
    exact cores.trans perm
  have same : List.Forall₂ (fun z (k : Clause) => z = k.reading) (clauses.map Clause.reading) clauses :=
    List.forall₂_map_left_iff.2 (List.forall₂_refl _)
  obtain ⟨l, all, inClauses⟩ := List.perm_comp_forall₂ readings same
  refine ⟨l, inClauses, ?_⟩
  have all := List.forall₂_map_left_iff.1 all
  refine ((List.forall₂_and_left _ _).2 ⟨subst.operators, all⟩).imp fun c k both => ⟨both.2, ?_⟩
  have comparator : c.comparator.str = k.comparator := by
    have parts := both.2
    simp only [SQLConstraint.reading, Clause.reading, Prod.mk.injEq] at parts
    exact parts.2.2.1
  rw [SQLConstraint.operator]
  split
  · rename_i set
    rcases both.1 with mem | made
    · exact absurd (unset c mem) set
    · exact .inr (by rw [← described.operator, ← comparator, made]; rfl)
  · exact .inl comparator

/-- The texts of the columns asked for. -/
theorem texts_asked {attrs : List SQLAttribute} {ks : List Column} (readings : attrs.map SQLAttribute.reading = ks.map Column.reading)
    {names names' : List Str} (same : ∀ n, n ∈ names ↔ n ∈ names') :
    (orAll (attrs.filter fun a => decide (a.nameKey ∈ names)) attrs).map (fun a => a.attr.str) =
      (orAll (ks.filter fun k => decide (k.name ∈ names')) ks).map Column.text := by
  have pairs : List.Forall₂ (fun (a : SQLAttribute) (k : Column) => a.reading = k.reading) attrs ks :=
    List.forall₂_map_left_iff.1 (List.forall₂_map_right_iff.1 (readings ▸ List.forall₂_refl _))
  have decided : ∀ n, decide (n ∈ names') = decide (n ∈ names) := fun n => decide_eq_decide.2 (same n).symm
  simp only [decided]
  have kept : (attrs.filter fun a => decide (a.nameKey ∈ names)).map (fun a => a.attr.str) =
      (ks.filter fun k => decide (k.name ∈ names)).map Column.text ∧ attrs.map (fun a => a.attr.str) = ks.map Column.text := by
    clear readings
    induction pairs with
    | nil => exact ⟨rfl, rfl⟩
    | @cons a k attrs ks here _ ih =>
      simp only [SQLAttribute.reading, Column.reading, Prod.mk.injEq] at here
      have name : a.nameKey = k.name := here.2.2
      refine ⟨?_, by rw [List.map_cons, List.map_cons, here.1, ih.2]⟩
      rw [List.filter_cons, List.filter_cons, name]
      split
      · rw [List.map_cons, List.map_cons, here.1, ih.1]
      · exact ih.1
  rw [map_orAll, map_orAll, kept.1, kept.2]

theorem str_intercalate (sep : Text) (l : List Text) : str (sep.intercalate l) = (str sep).intercalate (l.map str) := by
  cases l with
  | nil => rfl
  | cons x l =>
    rw [List.map_cons, intercalate_cons, intercalate_cons, str_append, List.flatMap_map]
    unfold str
    rw [List.map_flatMap]
    simp

end SQLTextContainer

/-- The texts of a conjunct. -/
def Conjunct.comparison (k : Conjunct) : Comparison := ⟨k.attr.str, k.operator.str, k.value.str⟩

namespace SQLTextContainer
variable {rt : Runtime}

theorem clauseText_nil {ks : List Conjunct} (texts : ∀ k ∈ ks, k.text ≠ []) (empty : clauseText ks = []) : ks = [] :=
  List.eq_nil_iff_forall_not_mem.2 fun k mem => clauseText_ne mem (texts k mem) empty

theorem whereText_str {ks : List Conjunct} (start : clauseText ks = [] → ks = []) (columns : List Str) (table : Str) :
    (whereText (clauseText ks)).str = Statement.whereText ⟨columns, table, ks.map Conjunct.comparison⟩ := by
  unfold whereText Statement.whereText
  by_cases none : ks = []
  · subst none
    rfl
  · rw [if_pos (mt start none), if_neg (by simpa using none), str_append, clauseText, str_intercalate, List.map_map, List.map_map]
    have text : str ∘ Conjunct.text = Comparison.text ∘ Conjunct.comparison := by
      funext k
      simp [Conjunct.text, Conjunct.comparison, Comparison.text]
    rw [text]
    rfl

/-- What `buildQuery` loads of a request. -/
theorem request_loaded (q : Request) (shape : Shape) : (splitConstraint (of .client q.text)).1 = of .client q.columnRow ∧
    ∃ cs left, SQLQuery.loadConstraints shape (splitConstraint (of .client q.text)).2 = .ok cs left ∧
      (cs.toList.map SQLConstraint.reading).Perm (q.conditions.map Clause.reading) := by
  have plain : ∀ c ∈ q.columnRow, c ≠ '&' := Column.columnRow_letters q.columns
  cases conditions : q.conditions with
  | nil =>
    have text : q.text = q.columnRow := by rw [Request.text, Request.conditionRow, conditions, List.flatMap_nil, List.append_nil]
    rw [text, splitConstraint_plain plain]
    exact ⟨rfl, _, _, loadConstraints_nil shape, .nil⟩
  | cons k more =>
    have text : q.text = q.columnRow ++ '&' :: (k.text ++ more.flatMap fun k => '&' :: k.text) := by
      rw [Request.text, Request.conditionRow, conditions, List.flatMap_cons, List.cons_append]
    have grammar := q.grammar
    rw [conditions] at grammar
    rw [text, splitConstraint_amp plain]
    refine ⟨rfl, ?_⟩
    dsimp only
    split
    · have behind := conditions_asked shape grammar ['&'] (.inr rfl)
      rwa [List.append_assoc, List.singleton_append] at behind
    · have first := conditions_asked shape grammar [] (.inl rfl)
      rwa [List.nil_append] at first

/-- The columns of a statement. -/
theorem Described.select {d : Description} {s : DatasetSection} (described : Described d s) (q : Request) {attrs : SQLAttributeSetByPos}
    {left : Text} (run : SQLQuery.attrToSelect rt.shape s.query.select (of .client q.columnRow) = .ok attrs left) :
    attrs.toList.map (fun a => a.attr.str) = (d.ask q).columns := by
  obtain ⟨own, readings, sorted, same⟩ := described.columns
  have plain : ∀ a ∈ own, a.name.str ≠ ['*'] := fun a mem => described.names_plain a ((same a).2 mem)
  obtain ⟨asked, inAsked, kept⟩ := SQLQuery.attrToSelect_entries sorted described.ordered same plain run
  obtain ⟨asked', left₁, loaded, names⟩ := columns_asked rt.shape q.columns
  obtain ⟨rfl, -⟩ := EStateM.Result.ok.inj (loaded.symm.trans inAsked)
  rw [kept]
  exact texts_asked readings names

theorem selectClause_str (attrs : SQLAttributeSetByPos) :
    (selectClause attrs).str = [','].intercalate (attrs.toList.map fun a => a.attr.str) := by
  rw [selectClause_eq, listed, str_intercalate, List.map_map]
  rfl

/-- There is something to list. -/
theorem ask_columns_ne (d : Description) (q : Request) : [','].intercalate (d.ask q).columns ≠ [] := by
  have some' : ∀ ks : List Column, ks ≠ [] → [','].intercalate (ks.map Column.text) ≠ [] := by
    intro ks ne
    obtain ⟨k, more, rfl⟩ := List.exists_cons_of_ne_nil ne
    rw [List.map_cons, intercalate_cons]
    exact List.append_ne_nil_of_left_ne_nil (List.append_ne_nil_of_left_ne_nil k.path.text_ne _) _
  refine some' _ ?_
  unfold orAll
  split
  · exact d.columns_ne
  · rename_i kept
    exact fun empty => kept (by rw [empty]; rfl)

/-! ## The statement -/

/-- Behind any other statements, the statement built of the section for a written request says what is meant. -/
theorem described_asked {d : Description} {s s' s'' : DatasetSection} (described : Described d s) (later : Later rt s s')
    {q : Request} {www2id : Str → Str} {constraint : Str} {query : Text} (request : www2id constraint = q.text)
    (run : buildQuery rt www2id constraint s' = .ok query s'') : ∃ st : Statement, query.str = st.text ∧ d.Means q st := by
  obtain ⟨t₀, rfl, subst₀⟩ := later.substituted
  obtain ⟨attrs, left, found, left', t, select, -, swaps, ⟨loaded, row, load, swaps', rfl⟩, rfl⟩ := buildQuery_runs run
  rw [request] at select load
  obtain ⟨columns, cs, left₂, load', perm⟩ := request_loaded q rt.shape
  obtain ⟨rfl, -⟩ := EStateM.Result.ok.inj (load'.symm.trans load)
  rw [columns] at select
  have grammar := loadConstraints_grammar load
  have texts := described.select q select
  -- the conditions of the section and of the request
  obtain ⟨l, inSection, own⟩ := substituted_stand described (subst₀.trans swaps.substituted) described.unset described.conditions
  obtain ⟨l', inRequest, others⟩ := substituted_stand described swaps'.substituted (fun c mem => (grammar c mem).substitute) perm
  have operators : ∀ c ∈ row.toList, c.operator ≠ [] := by
    intro c mem empty
    obtain ⟨k, -, -, stands⟩ := (forall₂_mem others).2 c mem
    rw [empty] at stands
    exact stands.elim (fun same => (comparator_compChar k.comparator_mem).1 same.symm) (d.operator_ne k.comparator)
  have ownTexts : ∀ k ∈ t.toList.map SQLConstraint.conjunct, k.text ≠ [] := by
    intro k mem
    obtain ⟨c, inSet, rfl⟩ := List.mem_map.1 mem
    obtain ⟨k, -, reading, -⟩ := (forall₂_mem own).2 c inSet
    simp only [SQLConstraint.reading, Clause.reading, Prod.mk.injEq] at reading
    rw [Conjunct.text, List.append_assoc]
    exact List.append_ne_nil_of_left_ne_nil (mt str_eq_nil.2 (reading.1 ▸ k.name.text_ne)) _
  have otherTexts : ∀ k ∈ row.toList.map (SQLConstraint.conjunctIn s.query.select), k.text ≠ [] := by
    intro k mem
    obtain ⟨c, inSet, rfl⟩ := List.mem_map.1 mem
    simp [Conjunct.text, SQLConstraint.conjunctIn, operators c inSet]
  let ks := t.toList.map SQLConstraint.conjunct ++ row.toList.map (SQLConstraint.conjunctIn s.query.select)
  have texts_ne : ∀ k ∈ ks, k.text ≠ [] := fun k mem => (List.mem_append.1 mem).elim (ownTexts k) (otherTexts k)
  have clause : row.toList.foldl (addCondition s.query.select) (joinConditions t.toList) = clauseText ks := by
    rw [joinConditions_eq, conditions_clause _ operators (clauseText_nil ownTexts)]
  refine ⟨⟨attrs.toList.map fun a => a.attr.str, ' ' :: d.fromText, ks.map Conjunct.comparison⟩, ?_, texts, rfl, ?_⟩
  · have from' : (s.setWhere t₀).query.fromText = rowText d.fromText := described.fromText
    have select : (s.setWhere t₀).query.select = s.query.select := rfl
    rw [from', select, clause, str_append, str_append, str_append, str_append, str_append, selectClause_str, whereText_str (clauseText_nil texts_ne)]
    simp only [lit, rowText, str_of]
    rfl
  · refine ⟨l.map Description.own ++ l'.map d.asked, ?_, (inSection.map _).append (inRequest.map _)⟩
    rw [List.map_append, List.map_map, List.map_map]
    refine List.rel_append (List.forall₂_map_left_iff.2 (List.forall₂_map_right_iff.2 (own.imp fun c k both => ?_)))
      (List.forall₂_map_left_iff.2 (List.forall₂_map_right_iff.2 (others.imp fun c k both => ?_)))
    · obtain ⟨reading, stands⟩ := both
      simp only [SQLConstraint.reading, Clause.reading, Prod.mk.injEq] at reading
      exact ⟨reading.1, reading.2.2.2, stands⟩
    · obtain ⟨reading, stands⟩ := both
      simp only [SQLConstraint.reading, Clause.reading, Prod.mk.injEq] at reading
      exact ⟨(described.fullName c.attr).trans (congrArg d.fullName reading.2.1), reading.2.2.2, stands⟩

/-! ## Without substitutes a statement is built -/

/-- Nothing stands for the comparator of a condition, and there are fewer than the rounds a loop has. -/
structure Plainly (rt : Runtime) (other : OtherMap) (t : SQLConstraintSet) : Prop where
  plain : ∀ c ∈ t.toList, substitution other c.comparator.str = none
  few : t.toList.length < rt.patience

/-- The loop passes over every condition. -/
theorem rounds_plain {other : OtherMap} {t : SQLConstraintSet} (plain : ∀ c ∈ t.toList, substitution other c.comparator.str = none)
    {wi fuel : Nat} (enough : t.toList.length < wi + fuel) (inside : wi ≤ t.toList.length) : substRounds rt other fuel wi t = .ok () t := by
  induction fuel generalizing wi with
  | zero => omega
  | succ fuel ih =>
    rw [substRounds, Proc.get_bind]
    cases at' : t.toList[wi]? with
    | none => rfl
    | some c =>
      simp only [plain c (List.mem_of_getElem? at')]
      have lt : wi < t.toList.length := (List.getElem?_eq_some_iff.1 at').1
      exact ih (by omega) lt

theorem Plainly.run {other : OtherMap} {t : SQLConstraintSet} (h : Plainly rt other t) : comparatorSubst rt other t = .ok () t :=
  rounds_plain h.plain (by simpa using h.few) (Nat.zero_le _)

theorem ownConditions_plain {s : DatasetSection} (h : Plainly rt s.other s.whereSet) :
    ownConditions rt s = .ok (joinConditions s.whereSet.toList) s := by
  unfold ownConditions
  rw [Proc.get_bind]
  cases elements : s.whereSet.toList with
  | nil => rfl
  | cons w more =>
    rw [List.isEmpty_cons, if_neg Bool.false_ne_true, Proc.get_bind, Proc.bind_ok (Proc.zoom_ok h.run), Proc.get_bind]
    simp only [show (s.setWhere s.whereSet).whereSet.toList = w :: more from elements]
    rfl

theorem onLocal_run {σ τ α : Type} {x : Proc τ α} {t t' : τ} {a : α} (run : x t = .ok a t') (s : σ) :
    Proc.onLocal x t s = .ok (a, t') s := by
  unfold Proc.onLocal
  rw [run]
  rfl

theorem loadedConditions_plain {s : DatasetSection} {constraints left : Text} {cs : SQLConstraintSet}
    (load : SQLQuery.loadConstraints rt.shape constraints = .ok cs left) (h : Plainly rt s.other cs) :
    loadedConditions rt constraints s = .ok (cs.toList, left) s := by
  unfold loadedConditions
  rw [Proc.get_bind]
  exact (Proc.bind_ok (onLocal_run load s)).trans (Proc.bind_ok (onLocal_run h.run s))

/-- The attributes of a list are looked for in a section without a `*`. -/
theorem attrToSelect_runs {shape : Shape} {select : SQLAttributeSetByName} {row left : Text} {asked : SQLAttributeSetByName}
    (loaded : SQLQuery.loadAttributes shape row = .ok asked left) (ordered : Ordered SQLAttribute.nameKey select)
    (plain : ∀ a ∈ select.toList, a.name.str ≠ ['*']) : ∃ result, SQLQuery.attrToSelect shape select row = .ok result left := by
  obtain ⟨star, everything, name⟩ := SQLQuery.everything_ok
  have none : find attrNameComp star select = none := by
    refine (find_byKey_none ordered).2 fun a mem => ?_
    change a.name.str ≠ star.name.str
    rw [name]
    exact plain a mem
  unfold SQLQuery.attrToSelect
  rw [Proc.bind_ok loaded, everything]
  change ∃ result, (Proc.lift (SQLQuery.select? shape (find attrNameComp star select).isSome select .leaf asked.toList) >>= fun attr =>
    if attr.toList.isEmpty then pure (insertAll shape attrPosComp .leaf select.toList) else pure attr) left = _
  rw [none, Option.isSome_none, SQLQuery.select?_found]
  let found := insertAll shape attrPosComp .leaf (asked.toList.filterMap fun a => find attrNameComp a select)
  change ∃ result, (if found.toList.isEmpty then
    (pure (insertAll shape attrPosComp .leaf select.toList) : Proc Text SQLAttributeSetByPos) else pure found) left = _
  split
  · exact ⟨_, rfl⟩
  · exact ⟨_, rfl⟩

/-- Conditions without a substitute. -/
theorem plainly_of {d : Description} {s : DatasetSection} (described : Described d s) {t : SQLConstraintSet} {l clauses : List Clause}
    (stand : List.Forall₂ (fun (c : SQLConstraint) (k : Clause) => c.reading = k.reading ∧
      (c.operator.str = k.comparator ∨ d.operator k.comparator = some c.operator.str)) t.toList l) (perm : l.Perm clauses)
    (plain : ∀ k ∈ clauses, d.operator k.comparator = none) (few : clauses.length < rt.patience) : Plainly rt s.other t where
  plain := by
    intro c mem
    obtain ⟨k, inList, reading, -⟩ := (forall₂_mem stand).2 c mem
    simp only [SQLConstraint.reading, Clause.reading, Prod.mk.injEq] at reading
    have none := plain k (perm.mem_iff.1 inList)
    rw [← described.operator, ← reading.2.2.1] at none
    exact Option.map_eq_none_iff.1 none
  few := by
    rw [stand.length_eq, perm.length_eq]
    exact few

/-- Where nothing is substituted, the statement is built. -/
theorem asked_built {d : Description} {s s' : DatasetSection} (described : Described d s) (later : Later rt s s') {q : Request}
    {www2id : Str → Str} {constraint : Str} (request : www2id constraint = q.text)
    (plain : ∀ k ∈ d.conditions ++ q.conditions, d.operator k.comparator = none)
    (few : d.conditions.length < rt.patience ∧ q.conditions.length < rt.patience) :
    ∃ query s'', buildQuery rt www2id constraint s' = .ok query s'' := by
  obtain ⟨t₀, rfl, subst⟩ := later.substituted
  obtain ⟨l, inSection, own⟩ := substituted_stand described subst described.unset described.conditions
  have ownPlain : Plainly rt s.other t₀ :=
    plainly_of described own inSection (fun k mem => plain k (List.mem_append_left _ mem)) few.1
  obtain ⟨columns, cs, left, load, perm⟩ := request_loaded q rt.shape
  obtain ⟨l', inRequest, others⟩ := substituted_stand described (.refl s.other cs.toList)
    (fun c mem => (loadConstraints_grammar load c mem).substitute) perm
  have otherPlain : Plainly rt s.other cs :=
    plainly_of described others inRequest (fun k mem => plain k (List.mem_append_right _ mem)) few.2
  obtain ⟨asked, left₁, names, -⟩ := columns_asked rt.shape q.columns
  obtain ⟨attrs, select⟩ := attrToSelect_runs names described.ordered described.names_plain
  have list_ne : selectClause attrs ≠ [] := by
    refine mt str_eq_nil.2 ?_
    rw [selectClause_str, described.select q select]
    exact ask_columns_ne d q
  have select : SQLQuery.attrToSelect rt.shape (s.setWhere t₀).query.select (splitConstraint (of .client q.text)).1 = .ok attrs left₁ :=
    columns.symm ▸ select
  unfold buildQuery
  rw [request]
  generalize splitConstraint (of .client q.text) = parts at select load
  obtain ⟨attributes, constraints⟩ := parts
  dsimp only at select load ⊢
  rw [Proc.get_bind, Proc.bind_ok (onLocal_run select (s.setWhere t₀))]
  dsimp only
  rw [if_neg list_ne, Proc.bind_ok (ownConditions_plain ownPlain)]
  by_cases none : constraints = []
  · rw [if_pos none]
    exact ⟨_, _, rfl⟩
  · rw [if_neg none]
    have loaded : loadedConditions rt constraints (s.setWhere t₀) = .ok (cs.toList, left) (s.setWhere t₀) :=
      loadedConditions_plain load otherPlain
    rw [Proc.bind_ok loaded]
    exact ⟨_, _, rfl⟩

/-- Whatever was asked of the section before: a statement built for a written request says what is meant and
gives the rows that meet all the conditions, and one is built if nothing is substituted. -/
structure Serves (rt : Runtime) (d : Description) (s : DatasetSection) : Prop where
  meant : ∀ {q : Request} {www2id : Str → Str} {constraint : Str} {s' s'' : DatasetSection} {query : Text}, Later rt s s' →
    www2id constraint = q.text → buildQuery rt www2id constraint s' = .ok query s'' →
    ∃ st : Statement, query.str = st.text ∧ d.Means q st ∧ ∀ {α : Type} {meaning : Comparison → α → Bool},
      (∀ c c', d.StandsFor c c' → meaning c = meaning c') → ∀ table : List α, st.rows meaning table = table.filter fun row =>
        (d.conditions.all fun k => meaning (Description.own k) row) && q.conditions.all fun k => meaning (d.asked k) row
  built : ∀ {q : Request} {www2id : Str → Str} {constraint : Str} {s' : DatasetSection}, Later rt s s' → www2id constraint = q.text →
    (∀ k ∈ d.conditions ++ q.conditions, d.operator k.comparator = none) →
    d.conditions.length < rt.patience ∧ q.conditions.length < rt.patience → ∃ query s'', buildQuery rt www2id constraint s' = .ok query s''

variable (rt) in
/-- From the text of a dataset and the text of a request to the statement: `read` stores a section for each
description, and it serves the description, whatever statements were built of it before. The list of
descriptions is not empty and the buffers are. A condition of the request on a column the section does
not have stands in the statement with an empty name. -/
theorem written_asked (unset : DatasetPart) (before : List DatasetSection) (d : Description) (more : List Description) :
    ∃ stored, read rt unset (some (Description.text (d :: more))) ⟨[], [], before⟩ = .ok true ⟨[], [], before ++ stored⟩ ∧
      List.Forall₂ (Serves rt) (d :: more) stored := by
  obtain ⟨stored, run, described⟩ := written_read rt unset before d more
  refine ⟨stored, run, described.imp fun d s here => ⟨fun later request built => ?_, fun later request plain few =>
    asked_built here later request plain few⟩⟩
  obtain ⟨st, text, meant⟩ := described_asked here later request built
  exact ⟨st, text, meant, fun respected table => meant.rows respected table⟩

/-- `temp&temp<9` -/
def warm : Request where
  columns := [.bare (.single "temp".toList (by decide) (List.all_eq_true.1 (by decide)))]
  conditions := [⟨.single "temp".toList (by decide) (List.all_eq_true.1 (by decide)), "<".toList, "9".toList, by
      intro x mem
      rw [List.mem_singleton.1 mem]
      exact ⟨'t', "emp".toList, rfl, by decide, List.all_eq_true.1 (by decide)⟩,
    by decide, .inl ⟨[], "9".toList, [], rfl, .inl rfl, ⟨by decide, List.all_eq_true.1 (by decide)⟩, .inl rfl⟩⟩]
  grammar := by
    intro k mem
    rw [List.mem_singleton.1 mem]
    exact ⟨⟨[], "temp".toList, [], [], rfl, .inl rfl, List.cons_ne_nil _ _, List.all_eq_true.1 (by decide), .inl rfl, List.forall_mem_nil _⟩,
      [], ['9'], [], [], [], rfl, List.forall_mem_nil _, List.forall_mem_singleton.2 rfl, List.forall_mem_nil _, List.forall_mem_nil _,
      List.forall_mem_nil _⟩

/-- The second section of two is asked. -/
theorem warm_asked : ∃ s s' query s'' st,
    read (.reuse 2) .api (some (Description.text [buoys, moorings])) ⟨[], [], []⟩ = .ok true ⟨[], [], [s, s']⟩ ∧
      buildQuery (.reuse 2) id "temp&temp<9".toList s' = .ok query s'' ∧ query.str = Statement.text st ∧ moorings.Means warm st := by
  obtain ⟨stored, run, serves⟩ := written_asked (.reuse 2) .api [] buoys [moorings]
  obtain ⟨s, rest, -, others, rfl⟩ := List.forall₂_cons_left_iff.1 serves
  obtain ⟨s', rest', here, last, rfl⟩ := List.forall₂_cons_left_iff.1 others
  obtain rfl := List.forall₂_nil_left_iff.1 last
  have request : id "temp&temp<9".toList = warm.text := by decide
  have plain : ∀ k ∈ moorings.conditions ++ warm.conditions, moorings.operator k.comparator = none :=
    List.forall_mem_cons.2 ⟨by decide, List.forall_mem_singleton.2 (by decide)⟩
  obtain ⟨query, s'', built⟩ := here.built .stored request plain (by decide)
  obtain ⟨st, text, meant, -⟩ := here.meant .stored request built
  exact ⟨s, s', query, s'', st, run, built, text, meant⟩

end SQLTextContainer

end SqlHandler
