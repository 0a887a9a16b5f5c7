import SqlHandler.Container.Attributes
import SqlHandler.Container.Description
import SqlHandler.Container.Restriction

/-!
# Descriptions written and read back

`read` takes a dataset apart with regular expressions, row by row, and loads the columns and the
conditions when a section ends. Of a written description it stores a section that says the same,
and nothing else (`written_read`).
-/

namespace SqlHandler
open Posix Text Stl

/-! ## Conditions -/

namespace Clause

theorem value_ne (k : Clause) : k.value ≠ [] := by
  rcases k.value_ok with ⟨sign, whole, fraction, value, -, ⟨ne, -⟩, -⟩ | ⟨q, body, value, -⟩
  · rw [value]
    exact List.append_ne_nil_of_left_ne_nil (List.append_ne_nil_of_right_ne_nil _ ne) _
  · rw [value]
    exact List.cons_ne_nil _ _

/-- What a word of the grammar says. -/
def Word (w : ConstrWord) (k : Clause) : Prop := w.attr = k.name.text ∧ w.comparator = k.comparator ∧ w.value = k.value

/-- Conditions with an ` AND ` in front of each, as stretches of the text. -/
theorem stretches {clauses : List Clause} (grammar : ∀ k ∈ clauses, IsConstrAttr k.name.text ∧ IsConstrVal k.value) {u : Text}
    (text_eq : u.str = clauses.flatMap fun k => constrJoin ++ k.text) : ∃ ts : List Stretch, u = ts.flatMap Stretch.text ∧
      List.Forall₂ Word (ts.filterMap Stretch.word) clauses := by
  induction clauses generalizing u with
  | nil => exact ⟨[], str_eq_nil.1 text_eq, .nil⟩
  | cons k clauses ih =>
    obtain ⟨name, value⟩ := grammar k List.mem_cons_self
    have cut : u.str = ([] ++ ' ' :: "AND".toList) ++ ((' ' :: k.text) ++ clauses.flatMap fun k => constrJoin ++ k.text) := by
      rw [text_eq]
      simp [constrJoin]
    obtain ⟨front, rest, rfl, front_eq, rest_eq⟩ := List.map_eq_append_iff.1 cut
    obtain ⟨body, u', rfl, body_eq, rest_eq⟩ := List.map_eq_append_iff.1 rest_eq
    let v := k.word [] (.inl rfl) name value
    have word : Text.str body = ' ' :: v.word := by
      refine Eq.trans body_eq ?_
      simp [v, Clause.word, Clause.text, ConstrWord.word, ConstrWord.upTo]
    obtain ⟨t, t_text, w, t_word, said⟩ := and_stretch (k := v) (List.forall_mem_nil _) (by decide) rfl k.value_ne front_eq word
    obtain ⟨ts, rfl, all⟩ := ih (fun j mem => grammar j (List.mem_cons_of_mem _ mem)) rest_eq
    refine ⟨t :: ts, by rw [List.flatMap_cons, t_text]; simp, ?_⟩
    rw [List.filterMap_cons_some t_word]
    exact .cons said all

/-- Words that were cut out are loaded as they are said. -/
theorem loaded_of (shape : Shape) {row left : Text} {cuts : List (Text × Match)} {ks : List ConstrWord} {clauses : List Clause}
    (path : StringMatch.Cuts (regexec contRegConstrBase) row cuts left)
    (extracts : List.Forall₂ (fun c k => Extracts (StringMatch.extract constrGroups c.2 c.1) k) cuts ks)
    (said : List.Forall₂ Word ks clauses) : ∃ cs, SQLQuery.loadConstraints shape row = .ok cs left ∧
      (cs.toList.map SQLConstraint.reading).Perm (clauses.map reading) := by
  obtain ⟨constraints, made, readings⟩ := made_of_extracts extracts said
  obtain ⟨cs, inserted⟩ := SQLQuery.insertConstraints_of made .leaf
  refine ⟨cs, SQLQuery.loadConstraints_iff.2 ⟨cuts, path, inserted⟩, ?_⟩
  obtain ⟨constraints', made', perm⟩ := SQLQuery.insertConstraints_ok inserted
  have same : constraints' = constraints :=
    List.map_injective_iff.2 (fun a b eq => Except.ok.inj eq) (made'.symm.trans made)
  rw [← readings, ← same]
  exact perm.map _

/-- Of a row of conditions each one is loaded, and nothing else is. -/
theorem loaded (shape : Shape) {clauses : List Clause} (ne : clauses ≠ [])
    (grammar : ∀ k ∈ clauses, IsConstrAttr k.name.text ∧ IsConstrVal k.value) : ∃ cs left,
      SQLQuery.loadConstraints shape (rowText (constrJoin.intercalate (clauses.map text))) = .ok cs left ∧
      (cs.toList.map SQLConstraint.reading).Perm (clauses.map reading) := by
  obtain ⟨k, more, rfl⟩ := List.exists_cons_of_ne_nil ne
  obtain ⟨name, value⟩ := grammar k List.mem_cons_self
  -- the first condition stands behind the blank `addFreeForm` puts in front of a row
  let w : ConstrWord := { k.word [] (.inl rfl) name value with
    lead := [' ']
    lead_spaces := List.forall_mem_singleton.2 rfl }
  have cut : (rowText (constrJoin.intercalate ((k :: more).map text))).str = w.word ++ more.flatMap fun k => constrJoin ++ k.text := by
    rw [rowText, str_of, List.map_cons, intercalate_cons, List.flatMap_map]
    simp [w, Clause.word, Clause.text, ConstrWord.word, ConstrWord.upTo]
  obtain ⟨body, u, row_eq, body_eq, rest_eq⟩ := List.map_eq_append_iff.1 cut
  obtain ⟨ts, rfl, all⟩ := stretches (fun j mem => grammar j (List.mem_cons_of_mem _ mem)) rest_eq
  have nothing : Plain [] := List.forall_mem_nil _
  have head := Stretch.texts_head ts (.inl rfl : ([] : Text) = [] ∨ _)
  have noNul : NoNul (ts.flatMap Stretch.text ++ []) := Stretch.texts_noNul ts List.not_mem_nil
  rw [List.append_nil] at head noNul
  obtain ⟨m, found, erased, extract⟩ := cut_one [] (ts.flatMap Stretch.text) body_eq nothing List.not_mem_nil noNul (.inl rfl)
    (head.imp_right fun blank => ⟨k.value_ne, blank⟩)
  obtain ⟨cuts, path, extracts⟩ := Stretch.cuts ts nothing List.not_mem_nil nothing List.not_mem_nil (.inl rfl)
  rw [List.nil_append] at found erased extract
  rw [List.nil_append, List.append_nil, ← List.nil_append (ts.flatMap Stretch.text), ← erased] at path
  have here : Word w k := ⟨rfl, rfl, rfl⟩
  rw [row_eq]
  obtain ⟨cs, run, perm⟩ := loaded_of shape (.cut found path) (.cons (a := (_, m)) extract extracts) (.cons here all)
  exact ⟨cs, _, run, perm⟩

end Clause

/-! ## Columns -/

/-- The texts of an attribute: its own, the full name and the look-up name. -/
def SQLAttribute.reading (a : SQLAttribute) : Str × Str × Str := (a.attr.str, a.fullName.str, a.name.str)

namespace Column

/-- What a column says. -/
def reading (k : Column) : Str × Str × Str := (k.text, k.path.text, k.name)

/-- The text is that of a column, maybe behind spaces. -/
def Shown (x : Text) (k : Column) : Prop := ∃ sp : Str, (∀ c ∈ sp, c = ' ') ∧ x.str = sp ++ k.text

theorem Shown.entry {x : Text} {k : Column} (h : Shown x k) : IsEntry x.str := by
  obtain ⟨sp, lead, split⟩ := h
  exact split ▸ k.entry lead

/-- The attribute made of it says what the column says. -/
theorem Shown.reading {x : Text} {k : Column} (h : Shown x k) {i : Nat} {a : SQLAttribute}
    (made : SQLAttribute.make (itemText x) i = .ok a) : a.reading = k.reading := by
  obtain ⟨sp, lead, split⟩ := h
  obtain ⟨-, c, first, plain, star⟩ := k.head
  obtain ⟨w, text⟩ := List.head?_eq_some_iff.1 first
  have shown : (itemText x).str = k.text := by
    rw [text]
    exact itemText_entry (split.trans (by rw [text])) lead ⟨plain.1, star⟩
  have read : (itemText x).cStr = k.text := by
    rw [cStr_of_noNul, shown]
    rw [shown]
    exact fun mem => (attrChar_plain (k.letter _ mem)).2.2.2.2 rfl
  obtain ⟨attr, -, form, -⟩ := SQLAttribute.make_ok made
  rw [read] at form
  obtain ⟨full, name⟩ := form.accepts.unique (k.form (List.forall_mem_nil _)).accepts
  rw [SQLAttribute.reading, attr, shown, full, name]
  rfl

/-- The same of the attributes made of a list. -/
theorem readings_of {l : List Text} {ks : List Column} (shown : List.Forall₂ Shown l ks) {attrs : List SQLAttribute} {i : Nat}
    (made : attrs.map Except.ok = (l.map itemText).mapIdx fun j x => SQLAttribute.make x (i + j)) :
    attrs.map SQLAttribute.reading = ks.map reading := by
  induction shown generalizing attrs i with
  | nil =>
    obtain rfl := List.map_eq_nil_iff.1 made
    rfl
  | cons here _ ih =>
    rw [List.map_cons, List.mapIdx_cons] at made
    obtain ⟨a, rest, rfl, first, others⟩ := List.map_eq_cons_iff.1 made
    rw [List.map_cons, List.map_cons, here.reading first.symm, ih (i := i + 1)]
    rw [others]
    simp only [Nat.add_assoc, Nat.add_comm 1]

/-- The items of a row of columns, behind spaces, are the columns. -/
theorem items_shown {ks : List Column} (ne : ks ≠ []) {sp : Str} (lead : ∀ c ∈ sp, c = ' ') {row : Text}
    (row_eq : row.str = sp ++ [','].intercalate (ks.map text)) : List.Forall₂ Shown (items row) ks := by
  obtain ⟨k, more, rfl⟩ := List.exists_cons_of_ne_nil ne
  have parts : (items row).map str = (sp ++ k.text) :: more.map text := by
    have noComma : ∀ t ∈ (sp ++ k.text) :: more.map text, ',' ∉ t := by
      have plain : ∀ j : Column, ',' ∉ j.text := fun j mem => (attrChar_plain (j.letter _ mem)).1 rfl
      intro t mem comma
      rcases List.mem_cons.1 mem with rfl | mem
      · rcases List.mem_append.1 comma with comma | comma
        · exact absurd (lead _ comma) (by decide)
        · exact plain k comma
      · obtain ⟨j, -, rfl⟩ := List.mem_map.1 mem
        exact plain j comma
    have cut := List.splitOn_intercalate ',' noComma (List.cons_ne_nil _ _)
    rw [items_str, row_eq, List.map_cons, intercalate_cons, ← List.append_assoc, ← intercalate_cons]
    exact cut
  obtain ⟨x, xs, row, first, others⟩ := List.map_eq_cons_iff.1 parts
  rw [row]
  refine .cons ⟨sp, lead, first⟩ ?_
  have same : List.Forall₂ Eq (xs.map str) (more.map text) := others ▸ List.forall₂_refl _
  refine (List.forall₂_map_left_iff.1 (List.forall₂_map_right_iff.1 same)).imp fun x j text => ?_
  exact ⟨[], List.forall_mem_nil _, text⟩

/-- Of such a row the attributes are made one by one. -/
theorem row_loaded (shape : Shape) {ks : List Column} {row : Text} (shown : List.Forall₂ Shown (items row) ks) :
    ∃ (left : Text) (attrs : List SQLAttribute),
      SQLQuery.loadAttributes shape row = .ok (insertAll shape attrNameComp .leaf attrs) left ∧
      attrs.map SQLAttribute.reading = ks.map reading ∧ attrs.Pairwise fun a b => a.position < b.position := by
  have entries : ∀ x ∈ items row, IsEntry x.str := by
    intro x mem
    obtain ⟨k, -, here⟩ := (forall₂_mem shown).2 x mem
    exact here.entry
  obtain ⟨attrs, made, -, -, sorted⟩ := entries_made entries 0
  have all : attrs.map Except.ok = (recognised row).mapIdx fun i x => SQLAttribute.make x i := by
    rw [recognised_entries entries, made]
    simp only [Nat.zero_add]
  obtain ⟨left, run⟩ := AttributeList.loadAttributes_of shape all
  exact ⟨left, attrs, run, readings_of shown made, sorted⟩

/-- They have the names of the columns. -/
theorem names_eq {attrs : List SQLAttribute} {ks : List Column} (readings : attrs.map SQLAttribute.reading = ks.map reading) :
    attrs.map SQLAttribute.nameKey = ks.map name := by
  have names := congrArg (List.map fun t : Str × Str × Str => t.2.2) readings
  rw [List.map_map, List.map_map] at names
  exact names

end Column

namespace Description

/-- Of the row of the columns each one is loaded, and nothing else is. -/
theorem columns_loaded (d : Description) (shape : Shape) : ∃ (select : SQLAttributeSetByName) (left : Text) (attrs : List SQLAttribute),
    SQLQuery.loadAttributes shape (rowText d.columnRow) = .ok select left ∧ Ordered SQLAttribute.nameKey select ∧
      attrs.map SQLAttribute.reading = d.columns.map Column.reading ∧ (attrs.Pairwise fun a b => a.position < b.position) ∧
      ∀ a, a ∈ select.toList ↔ a ∈ attrs := by
  have lead : ∀ c ∈ [' '], c = ' ' := List.forall_mem_singleton.2 rfl
  obtain ⟨left, attrs, run, readings, sorted⟩ := Column.row_loaded shape (Column.items_shown d.columns_ne lead (str_of _ _))
  have distinct : (attrs.map SQLAttribute.nameKey).Nodup := Column.names_eq readings ▸ d.names
  exact ⟨_, left, attrs, run, insertAll_ordered shape attrs (ordered_leaf _), readings, sorted,
    mem_insertAll_apart shape fun a inA b inB same => List.inj_on_of_nodup_map distinct inA inB same⟩

end Description

namespace SQLTextContainer
variable {rt : Runtime}

/-! ## Settings -/

/-- The bit of `[section]` is set where those of the two required settings are. -/
def Both (r : Reading) : Prop := r.complete .api = true → r.complete .server = true → r.complete .sectionTag = true

/-- What a setting leaves alone. -/
structure Apart (r r' : Reading) : Prop where
  leaves : Leaves r r'
  whereBuf : r'.whereBuf = r.whereBuf
  attributeBuf : r'.attributeBuf = r.attributeBuf
  query : r'.newSection.query = r.newSection.query
  other : r'.newSection.other = r.newSection.other
  marks : ∀ part ∈ openParts, r'.complete part = r.complete part

theorem Apart.refl (r : Reading) : Apart r r := ⟨⟨rfl, rfl, rfl, rfl⟩, rfl, rfl, rfl, rfl, fun _ _ => rfl⟩

theorem Apart.trans {r r₁ r₂ : Reading} (h : Apart r r₁) (h' : Apart r₁ r₂) : Apart r r₂ where
  leaves := ⟨h'.leaves.vars.trans h.leaves.vars, h'.leaves.dataset.trans h.leaves.dataset, h'.leaves.start.trans h.leaves.start,
    h'.leaves.part.trans h.leaves.part⟩
  whereBuf := h'.whereBuf.trans h.whereBuf
  attributeBuf := h'.attributeBuf.trans h.attributeBuf
  query := h'.query.trans h.query
  other := h'.other.trans h.other
  marks part mem := (h'.marks part mem).trans (h.marks part mem)

theorem setParameter_exists {key : Str} (reserved : key ∈ reservedKeys) (val : Str) (r : Reading) : ∃ r', setParameter key val r = some r' := by
  simp only [reservedKeys, List.mem_cons, List.not_mem_nil, or_false] at reserved
  rcases reserved with rfl | rfl | rfl | rfl | rfl | rfl <;> exact ⟨_, rfl⟩

theorem mark_apart {r r' : Reading} {part : DatasetPart} (h : Apart r r') (other : part ∉ openParts) : Apart r (r'.mark part) :=
  ⟨⟨h.leaves.vars, h.leaves.dataset, h.leaves.start, h.leaves.part⟩, h.whereBuf, h.attributeBuf, h.query, h.other, fun q mem => by
    have ne : q ≠ part := fun same => other (same ▸ mem)
    simp only [Reading.mark, Completion.put, if_neg ne]
    exact h.marks q mem⟩

theorem setParameter_apart {key val : Str} {r r' : Reading} (set : setParameter key val r = some r') : Apart r r' := by
  have set' : ∀ s : DatasetSection, s.query = r.newSection.query → s.other = r.newSection.other → Apart r (r.setSection s) :=
    fun s query other => ⟨⟨rfl, rfl, rfl, rfl⟩, rfl, rfl, query, other, fun _ _ => rfl⟩
  have reserved := setParameter_reserved set
  simp only [reservedKeys, List.mem_cons, List.not_mem_nil, or_false] at reserved
  rcases reserved with rfl | rfl | rfl | rfl | rfl | rfl <;> obtain rfl := Option.some.inj set
  · have one : Apart r ((r.setSection { r.newSection with api := val }).mark .api) := mark_apart (set' _ rfl rfl) (by decide)
    split
    · exact mark_apart one (by decide)
    · exact one
  · have one : Apart r ((r.setSection { r.newSection with server := val }).mark .server) := mark_apart (set' _ rfl rfl) (by decide)
    split
    · exact mark_apart one (by decide)
    · exact one
  · exact mark_apart (set' { r.newSection with port := val } rfl rfl) (by decide)
  · exact mark_apart (set' { r.newSection with dbname := val } rfl rfl) (by decide)
  · exact mark_apart (set' { r.newSection with user := val } rfl rfl) (by decide)
  · exact mark_apart (set' { r.newSection with pass := val } rfl rfl) (by decide)

/-- The bits of the required settings, and of `[section]` with them. -/
theorem setParameter_marks {key val : Str} {r r' : Reading} (set : setParameter key val r = some r') :
    (key = "api".toList → r'.complete .api = true) ∧ (key = "server".toList → r'.complete .server = true) ∧ (Both r → Both r') := by
  have reserved := setParameter_reserved set
  simp only [reservedKeys, List.mem_cons, List.not_mem_nil, or_false] at reserved
  rcases reserved with rfl | rfl | rfl | rfl | rfl | rfl <;> obtain rfl := Option.some.inj set
  · refine ⟨fun _ => ?_, fun same => absurd same (by decide), fun both => ?_⟩
    · split <;> rfl
    · cases server : r.complete .server <;> simp [Both, Reading.mark, Reading.setSection, Completion.put, server]
  · refine ⟨fun same => absurd same (by decide), fun _ => ?_, fun both => ?_⟩
    · split <;> rfl
    · cases api : r.complete .api <;> simp [Both, Reading.mark, Reading.setSection, Completion.put, api]
  · exact ⟨fun same => absurd same (by decide), fun same => absurd same (by decide), id⟩
  · exact ⟨fun same => absurd same (by decide), fun same => absurd same (by decide), id⟩
  · exact ⟨fun same => absurd same (by decide), fun same => absurd same (by decide), id⟩
  · exact ⟨fun same => absurd same (by decide), fun same => absurd same (by decide), id⟩

/-- A key and its value. -/
def keyed (p : Pair) : Str × Str := (p.key, p.value)

variable (rt) in
/-- The rows of the settings are read one by one. -/
theorem settings_run {settings : List Pair} (reserved : ∀ p ∈ settings, p.key ∈ reservedKeys) {r : Reading}
    (at' : r.readingPart = .sectionTag) : ∃ r', readRows rt (settings.map Pair.row) r = .ok () r' ∧ Apart r r' ∧
      (∀ key, r'.newSection.parameter key = (lastSetting key (settings.map keyed)).getD (r.newSection.parameter key)) ∧
      (∀ p, r.complete p = true → r'.complete p = true) ∧ ((∃ p ∈ settings, p.key = "api".toList) → r'.complete .api = true) ∧
      ((∃ p ∈ settings, p.key = "server".toList) → r'.complete .server = true) ∧ (Both r → Both r') := by
  induction settings generalizing r with
  | nil => exact ⟨r, rfl, .refl r, fun _ => rfl, fun _ => id, by simp, by simp, id⟩
  | cons p settings ih =>
    obtain ⟨r₁, set⟩ := setParameter_exists (reserved p List.mem_cons_self) p.value r
    have first : readRow rt p.row r = .ok () r₁ := literal_run rt p.literal (keyVal_step rt p.keyed at' set)
    have apart := setParameter_apart set
    obtain ⟨api, server, both⟩ := setParameter_marks set
    obtain ⟨r₂, rest, apart', parameter, marks, api', server', both'⟩ := ih (fun q mem => reserved q (List.mem_cons_of_mem _ mem))
      (apart.leaves.part.trans at')
    refine ⟨r₂, (Proc.bind_ok first).trans rest, apart.trans apart', fun key => ?_, fun q set' => marks q (setParameter_complete set set'),
      ?_, ?_, fun h => both' (both h)⟩
    · rw [parameter, setParameter_parameter set, List.map_cons, keyed, lastSetting_cons]
      cases lastSetting key (settings.map keyed) with
      | some v => rfl
      | none => by_cases mine : p.key = key <;> simp [mine]
    · rintro ⟨q, mem, same⟩
      rcases List.mem_cons.1 mem with rfl | mem
      · exact marks _ (api same)
      · exact api' ⟨q, mem, same⟩
    · rintro ⟨q, mem, same⟩
      rcases List.mem_cons.1 mem with rfl | mem
      · exact marks _ (server same)
      · exact server' ⟨q, mem, same⟩

/-! ## The other parts -/

/-- A literal row of an open part. -/
theorem literal_row {row : Str} (literal : isLiteral row = true) {r : Reading} {part : DatasetPart} (at' : r.readingPart = part)
    (ne : part ≠ .sectionTag) (ne' : part ≠ .otherTag) : readRow rt row r = .ok () (appendRow row part r) := by
  refine literal_run rt literal ?_
  rw [rowStep_part rt at' ne, rowAction_append rt ne']

variable (rt) in
/-- The rows of the further pairs. -/
theorem others_run (others : List Pair) {r : Reading} (at' : r.readingPart = .otherTag) : ∃ r',
    readRows rt (others.map Pair.row) r = .ok () r' ∧
      r'.newSection = { r.newSection with other := insertAll rt.shape (byKey Prod.fst) r.newSection.other (others.map keyed) } ∧
      r'.whereBuf = r.whereBuf ∧ r'.attributeBuf = r.attributeBuf ∧ r'.dataset = r.dataset ∧ r'.start = r.start ∧
      r'.vars = r.vars ∧ ∀ part, part ≠ .otherTag → r'.complete part = r.complete part := by
  induction others generalizing r with
  | nil => exact ⟨r, rfl, rfl, rfl, rfl, rfl, rfl, rfl, fun _ _ => rfl⟩
  | cons p others ih =>
    let r₁ := (r.setSection { r.newSection with other := insert rt.shape (byKey Prod.fst) (keyed p) r.newSection.other }).mark .otherTag
    have first : readRow rt p.row r = .ok () r₁ := by
      refine literal_run rt p.literal ?_
      obtain ⟨m, found, key, value⟩ := p.found
      rw [rowStep_part rt at' (by decide)]
      simp only [rowAction, found, key, value]
      rfl
    obtain ⟨r₂, rest, same, whereBuf, attributeBuf, dataset, start, vars, marks⟩ := ih (r := r₁) at'
    refine ⟨r₂, (Proc.bind_ok first).trans rest, same, whereBuf, attributeBuf, dataset, start, vars, fun part ne => ?_⟩
    rw [marks part ne]
    simp [r₁, Reading.mark, Reading.setSection, Completion.put, ne]

/-! ## A section -/

/-- What a scan of the rows of a description has gathered. -/
structure Gathered (rt : Runtime) (d : Description) (r : Reading) : Prop where
  vars : r.vars = .leaf
  marks : ∀ part ∈ requirements, r.complete part = true
  attributeBuf : r.attributeBuf = rowText d.columnRow
  wheres : (d.conditions = [] ∧ r.complete .whereTag = false) ∨
    (d.conditions ≠ [] ∧ r.complete .whereTag = true ∧ r.whereBuf = rowText d.conditionRow)
  settings : ∀ key, r.newSection.parameter key = (lastSetting key (d.settings.map keyed)).getD []
  query : r.newSection.query = ⟨.leaf, rowText d.fromText, .leaf⟩
  other : r.newSection.other = insertAll rt.shape (byKey Prod.fst) .leaf (d.others.map keyed)

/-- The row of the conditions, which may be empty. -/
theorem conditionRow_run (d : Description) {r : Reading} (at' : r.readingPart = .whereTag) : readRow rt d.conditionRow r =
    .ok () (if d.conditions = [] then r else appendRow d.conditionRow .whereTag r) := by
  rcases d.conditionRow_literal with ⟨none, empty⟩ | ⟨ne, literal⟩
  · rw [if_pos none, empty]
    rfl
  · rw [if_neg ne]
    exact literal_row literal at' (by decide) (by decide)

variable (rt) in
theorem rows_run (d : Description) : ∃ r, readRows rt d.rows (opening .leaf) = .ok () r ∧ Gathered rt d r := by
  obtain ⟨r₁, settings, apart, parameter, -, api, server, both⟩ := settings_run rt d.reserved (r := opening .leaf) rfl
  have api := api d.api
  have server := server d.server
  have tag : r₁.complete .sectionTag = true := both (fun set => by cases set) api server
  let r₂ := appendRow d.columnRow .selectTag (r₁.setPart .selectTag)
  let r₃ := appendRow d.fromText .fromTag (r₂.setPart .fromTag)
  let r₄ := if d.conditions = [] then r₃.setPart .whereTag else appendRow d.conditionRow .whereTag (r₃.setPart .whereTag)
  have column : readRow rt d.columnRow (r₁.setPart .selectTag) = .ok () r₂ :=
    literal_row d.columnRow_literal rfl (by decide) (by decide)
  have from' : readRow rt d.fromText (r₂.setPart .fromTag) = .ok () r₃ := literal_row d.from_literal rfl (by decide) (by decide)
  have condition : readRow rt d.conditionRow (r₃.setPart .whereTag) = .ok () r₄ := conditionRow_run d rfl
  obtain ⟨r, others, section', whereBuf, attributeBuf, dataset, start, vars, marks⟩ :=
    others_run rt d.others (r := r₄.setPart .otherTag) rfl
  refine ⟨r, ?_, ?_⟩
  · unfold Description.rows
    rw [readRows_append, Proc.bind_ok settings, readRows_append]
    have middle : readRows rt ["[select]".toList, d.columnRow, "[from]".toList, d.fromText, "[where]".toList, d.conditionRow,
        "[other]".toList] r₁ = .ok () (r₄.setPart .otherTag) := by
      refine (Proc.bind_ok (opens_run rt select_opens r₁)).trans ((Proc.bind_ok column).trans ?_)
      refine (Proc.bind_ok (opens_run rt from_opens r₂)).trans ((Proc.bind_ok from').trans ?_)
      refine (Proc.bind_ok (opens_run rt where_opens r₃)).trans ((Proc.bind_ok condition).trans ?_)
      exact Proc.bind_ok (opens_run rt other_opens r₄)
    rw [Proc.bind_ok middle, others]
  · -- what the three rows add to what the settings left
    have section₁ : r₁.newSection.query = ⟨.leaf, [], .leaf⟩ := apart.query
    have other₁ : r₁.newSection.other = .leaf := apart.other
    have buffer₁ : r₁.attributeBuf = [] := apart.attributeBuf
    have wheres₁ : r₁.whereBuf = [] := apart.whereBuf
    have section₄ : r₄.newSection = { r₁.newSection with query := ⟨.leaf, rowText d.fromText, .leaf⟩ } := by
      have section₃ : r₃.newSection = { r₁.newSection with query := ⟨.leaf, rowText d.fromText, .leaf⟩ } := by
        simp [r₃, r₂, appendRow, Reading.mark, Reading.setPart, Reading.setSection, section₁]
      by_cases none : d.conditions = [] <;> simp [r₄, none, appendRow, Reading.mark, Reading.setPart, section₃]
    have buffer₄ : r₄.attributeBuf = rowText d.columnRow := by
      by_cases none : d.conditions = [] <;>
        simp [r₄, r₃, r₂, none, appendRow, Reading.mark, Reading.setPart, Reading.setSection, buffer₁]
    refine ⟨?_, ?_, attributeBuf.trans buffer₄, ?_, ?_, ?_, ?_⟩
    · rw [vars]
      by_cases none : d.conditions = [] <;>
        simp [r₄, r₃, r₂, none, appendRow, Reading.mark, Reading.setPart, Reading.setSection, apart.leaves.vars, opening]
    · have kept : ∀ part ∈ requirements, r₄.complete part = true := by
        intro part mem
        simp only [requirements, List.mem_cons, List.not_mem_nil, or_false] at mem
        rcases mem with rfl | rfl | rfl | rfl | rfl <;> by_cases none : d.conditions = [] <;>
          simp [r₄, r₃, r₂, none, appendRow, Reading.mark, Reading.setPart, Reading.setSection, Completion.put, api, server, tag]
      intro part mem
      rw [marks part (fun same => absurd (same ▸ mem) (by decide))]
      exact kept part mem
    · have bit₁ : r₁.complete .whereTag = false := apart.marks _ (by decide)
      rw [marks .whereTag (by decide), whereBuf]
      by_cases none : d.conditions = []
      · exact .inl ⟨none, by simp [r₄, r₃, r₂, none, appendRow, Reading.mark, Reading.setPart, Reading.setSection, Completion.put, bit₁]⟩
      · refine .inr ⟨none, ?_, ?_⟩
        · simp [r₄, none, appendRow, Reading.mark, Reading.setPart, Completion.put]
        · simp [r₄, r₃, r₂, none, appendRow, Reading.mark, Reading.setPart, Reading.setSection, wheres₁]
    · intro key
      have same : r.newSection.parameter key = r₄.newSection.parameter key := by
        rw [section']
        rfl
      have same₁ : r₄.newSection.parameter key = r₁.newSection.parameter key := by
        rw [section₄]
        rfl
      rw [same, same₁, parameter key]
      exact congrArg _ (blank_parameter key)
    · rw [section']
      exact congrArg DatasetSection.query section₄
    · rw [section', show (r₄.setPart .otherTag).newSection.other = .leaf from (congrArg DatasetSection.other section₄).trans other₁]

/-- A stored section says what the description says. -/
structure Described (d : Description) (s : DatasetSection) : Prop where
  settings : ∀ key, s.parameter key = (lastSetting key (d.settings.map keyed)).getD []
  columns : ∃ attrs : List SQLAttribute, attrs.map SQLAttribute.reading = d.columns.map Column.reading ∧
    (attrs.Pairwise fun a b => a.position < b.position) ∧ ∀ a, a ∈ s.query.select.toList ↔ a ∈ attrs
  fromText : s.query.fromText = rowText d.fromText
  ordered : Ordered SQLAttribute.nameKey s.query.select
  conditions : (s.whereSet.toList.map SQLConstraint.reading).Perm (d.conditions.map Clause.reading)
  unset : ∀ c ∈ s.whereSet.toList, c.substitute = []
  others : ∀ key, getOther s.other key = ((d.others.map keyed).find? fun p => p.1 = key).map Prod.snd

/-- Of the pairs with a key the first is kept. -/
theorem getOther_first (shape : Shape) (l : List (Str × Str)) (key : Str) :
    getOther (insertAll shape (byKey Prod.fst) .leaf l) key = (l.find? fun p => p.1 = key).map Prod.snd :=
  congrArg (Option.map Prod.snd) (find_insertAll shape l (key, []))

/-- What was gathered makes a section that says what was written. -/
theorem Gathered.ends {d : Description} {r : Reading} (gathered : Gathered rt d r) : ∃ s, endOf rt r = .ok s ∧ Described d s := by
  obtain ⟨select, left, attrs, load, ordered, readings, sorted, same⟩ := d.columns_loaded rt.shape
  have loaded : attributesOf rt r.attributeBuf = .ok select := by
    have some' : select.toList.isEmpty = false := by
      obtain ⟨k, more, columns⟩ := List.exists_cons_of_ne_nil d.columns_ne
      rw [columns, List.map_cons] at readings
      obtain ⟨a, rest, rfl, -⟩ := List.map_eq_cons_iff.1 readings
      exact List.isEmpty_eq_false_iff.2 (List.ne_nil_of_mem ((same a).2 List.mem_cons_self))
    rw [attributesOf, gathered.attributeBuf, load]
    simp only [some', Bool.false_eq_true, if_false]
  have marks : [DatasetPart.sectionTag, .api, .server, .fromTag].all r.complete = true :=
    List.all_eq_true.2 fun part mem => gathered.marks part (by
      revert part
      decide)
  have bit : r.complete .selectTag = true := gathered.marks _ (by decide)
  have ended : ∀ s, selectEnd rt r s = .ok { s with query := { s.query with select } } := by
    intro s
    rw [selectEnd, if_pos bit, loaded]
    exact if_pos marks
  -- the conditions that stand in the section
  obtain ⟨cs, before, perm, unset⟩ : ∃ cs : SQLConstraintSet, whereEnd rt r = .ok (r.newSection.setWhere cs) ∧
      (cs.toList.map SQLConstraint.reading).Perm (d.conditions.map Clause.reading) ∧ ∀ c ∈ cs.toList, c.substitute = [] := by
    unfold whereEnd
    rcases gathered.wheres with ⟨none, unset⟩ | ⟨ne, set, whereBuf⟩
    · refine ⟨.leaf, ?_, by rw [none]; exact .nil, List.forall_mem_nil _⟩
      rw [if_neg (by simp [unset]), DatasetSection.setWhere, gathered.query]
      simp [← gathered.query]
    · obtain ⟨cs, left, load, perm⟩ := Clause.loaded rt.shape ne d.grammar
      refine ⟨cs, ?_, perm, fun c mem => (loadConstraints_grammar load c mem).substitute⟩
      rw [if_pos set, constraintsOf, whereBuf, Description.conditionRow, load]
      rfl
  refine ⟨_, by rw [endOf, before]; exact ended _, ?_⟩
  constructor
  · exact gathered.settings
  · exact ⟨attrs, readings, sorted, same⟩
  · exact congrArg SQLQuery.fromText gathered.query
  · exact ordered
  · exact perm
  · exact unset
  · intro key
    exact (congrArg (getOther · key) gathered.other).trans (getOther_first _ _ key)

theorem literal_other {row : Str} (literal : isLiteral row = true) : isSectionTag row = false := by
  rw [isSectionTag, (literal_data literal).1]

theorem pairs_others (ps : List Pair) : ∀ row ∈ ps.map Pair.row, isSectionTag row = false := by
  intro row mem
  obtain ⟨p, -, rfl⟩ := List.mem_map.1 mem
  exact literal_other p.literal

/-- None of the rows is a `[section]` row. -/
theorem rows_others (d : Description) : ∀ row ∈ d.rows, isSectionTag row = false := by
  have condition : isSectionTag d.conditionRow = false := by
    rcases d.conditionRow_literal with ⟨-, empty⟩ | ⟨-, literal⟩
    · rw [empty]
      rfl
    · exact literal_other literal
  intro row mem
  simp only [Description.rows, List.mem_append, List.mem_cons, List.not_mem_nil, or_false] at mem
  rcases mem with mem | (rfl | rfl | rfl | rfl | rfl | rfl | rfl) | mem
  · exact pairs_others _ row mem
  · exact opens_other select_opens
  · exact literal_other d.columnRow_literal
  · exact opens_other from_opens
  · exact literal_other d.from_literal
  · exact opens_other where_opens
  · exact condition
  · exact opens_other other_opens
  · exact pairs_others _ row mem

variable (rt) in
/-- What is stored of a written section. -/
theorem section_written (d : Description) : defineAll rt d.rows .leaf = .ok .leaf ∧
    ∃ s, sectionOf rt d.rows .leaf = .ok s ∧ Described d s := by
  obtain ⟨r, run, gathered⟩ := rows_run rt d
  obtain ⟨buffered, vars⟩ := readRows_buffered (rows_others d) run (opening_buffered .leaf)
  obtain ⟨s, ends, described⟩ := gathered.ends
  obtain ⟨r', ended, added⟩ := addNewSection_end rt r
  rw [ends] at added
  have dataset := ended.dataset
  rw [ends, (addNewSection_leaves added buffered).2.2.1] at dataset
  obtain rfl : r'.newSection = s := (List.cons.inj (List.append_cancel_left dataset)).1
  refine ⟨vars.trans (congrArg Except.ok gathered.vars), _, ?_, described⟩
  rw [sectionOf, (Proc.bind_ok run).trans added]

/-! ## A dataset -/

/-- The rows behind the first tag, cut at the others. -/
theorem rows_split (d : Description) (more : List Description) :
    (d.rows ++ more.flatMap fun d => "[section]".toList :: d.rows).splitOnP isSectionTag = (d :: more).map Description.rows := by
  induction more generalizing d with
  | nil => rw [List.flatMap_nil, List.append_nil, List.splitOnP_eq_singleton (rows_others d), List.map_singleton]
  | cons d' more ih =>
    rw [List.flatMap_cons, List.cons_append, List.splitOnP_append_cons_of_forall_mem (rows_others d) _ section_tagged, ih d']
    rfl

variable (rt) in
theorem sections_written (ds : List Description) : ∃ stored, sectionsOf rt (ds.map Description.rows) .leaf = .ok stored ∧
    List.Forall₂ Described ds stored := by
  induction ds with
  | nil => exact ⟨[], rfl, .nil⟩
  | cons d ds ih =>
    obtain ⟨vars, s, made, described⟩ := section_written rt d
    obtain ⟨stored, later, all⟩ := ih
    refine ⟨s :: stored, ?_, .cons described all⟩
    rw [List.map_cons, sectionsOf_ok made vars, later]
    rfl

theorem pairs_lines (ps : List Pair) : ∀ row ∈ ps.map Pair.row, '\n' ∉ row := by
  intro row mem nl
  obtain ⟨p, -, rfl⟩ := List.mem_map.1 mem
  exact (p.letter _ nl).2.2 rfl

/-- No row holds the end of a line. -/
theorem rows_lines (d : Description) : ∀ row ∈ d.rows, '\n' ∉ row := by
  have columns : '\n' ∉ d.columnRow := by
    intro nl
    rcases d.columnRow_letter _ nl with comma | letter
    · exact absurd comma (by decide)
    · exact absurd letter (by decide)
  intro row mem
  simp only [Description.rows, List.mem_append, List.mem_cons, List.not_mem_nil, or_false] at mem
  rcases mem with mem | (rfl | rfl | rfl | rfl | rfl | rfl | rfl) | mem
  · exact pairs_lines _ row mem
  · decide
  · exact columns
  · decide
  · exact d.from_row
  · decide
  · exact fun nl => (d.conditionRow_letter _ nl).2.1 rfl
  · decide
  · exact pairs_lines _ row mem

/-- A buffer with nothing marked for it is empty, also behind the end of a section. -/
theorem tagRow_buffered {row : Str} (tagged : isSectionTag row = true) {r r' : Reading} (run : readRow rt row r = .ok () r')
    (h : Buffered r) : Buffered r' := by
  rw [readRow_eq, isSectionTag_iff.1 tagged] at run
  simp only [partTracking_run, if_true] at run
  split at run
  · cases run
    exact ⟨h.wheres, h.attributes⟩
  · split at run
    · rename_i added
      cases run
      obtain ⟨wheres, attributes, -⟩ := addNewSection_leaves added h
      exact ⟨fun _ => wheres, fun _ => attributes⟩
    · cases run

theorem rows_buffered {rows : List Str} {r r' : Reading} (run : readRows rt rows r = .ok () r') (h : Buffered r) : Buffered r' := by
  induction rows generalizing r with
  | nil =>
    cases run
    exact h
  | cons row rows ih =>
    obtain ⟨⟨⟩, r₁, first, rest⟩ := Proc.of_bind_ok run
    refine ih rest ?_
    cases tagged : isSectionTag row with
    | true => exact tagRow_buffered tagged first h
    | false => exact (readRow_buffered tagged first h).1

variable (rt) in
/-- A written dataset is read back: behind the sections of the container `read` stores one for each
description, in order, and it says what the description says. The list of descriptions is not empty
and no earlier read has left anything in the buffers. -/
theorem written_read (unset : DatasetPart) (before : List DatasetSection) (d : Description) (more : List Description) :
    ∃ stored, read rt unset (some (Description.text (d :: more))) ⟨[], [], before⟩ = .ok true ⟨[], [], before ++ stored⟩ ∧
      List.Forall₂ Described (d :: more) stored := by
  have lines : ∀ row ∈ (d :: more).flatMap fun d => "[section]".toList :: d.rows, '\n' ∉ row := by
    intro row mem
    obtain ⟨d', -, mem⟩ := List.mem_flatMap.1 mem
    rcases List.mem_cons.1 mem with rfl | mem
    · decide
    · exact rows_lines d' row mem
  have cut := List.splitOn_intercalate '\n' lines (by simp)
  obtain ⟨stored, made, described⟩ := sections_written rt (d :: more)
  rw [← rows_split] at made
  refine ⟨stored, ?_, described⟩
  rw [read_eq, Description.text, cut, List.flatMap_cons, List.cons_append]
  generalize d.rows ++ more.flatMap (fun d => "[section]".toList :: d.rows) = rows at made
  rcases sections_run rt rows .leaf with ⟨r, stored', run, dataset, same⟩ | ⟨_, _, _, -, same⟩
  · obtain rfl := Except.ok.inj (made.symm.trans same)
    obtain ⟨⟨⟩, r₁, first, last⟩ := Proc.of_bind_ok run
    obtain ⟨wheres, attributes, -⟩ := addNewSection_leaves last (rows_buffered first (opening_buffered .leaf))
    have opened : readRow rt "[section]".toList (begin unset ⟨[], [], before⟩) = .ok () (shift before (opening .leaf)) :=
      opened_run (c := ⟨[], [], before⟩) rfl rfl section_tagged .leaf unset
    have whole : scan rt ("[section]".toList :: rows) (begin unset ⟨[], [], before⟩) = .ok true (shift before r) := by
      change ((readRow rt "[section]".toList >>= fun _ => readRows rt rows) >>= fun _ => finish rt) _ = _
      rw [bind_assoc, Proc.bind_ok opened, finish_section, Proc.bind_ok ((readSection_shift rt before rows).ok run)]
      rfl
    rw [whole]
    simp only [answer, shift, wheres, attributes, dataset]
  · cases made.symm.trans same

/-- `KEY=VALUE` of letters. -/
def pair (key value : Str) (key_ok : (key.all varChar) = true) (value_ok : (value.all keyValChar) = true) (ne : value ≠ [])
    (trimmed : value.head? ≠ some ' ') : Pair :=
  ⟨key, value, .inl (List.all_eq_true.1 key_ok), .inr ⟨ne, List.all_eq_true.1 value_ok⟩, trimmed⟩

/-- Two columns of a table, the second under another name. -/
def buoys : Description where
  settings := [pair "api".toList "odbc".toList (by decide) (by decide) (by decide) (by decide),
    pair "server".toList "sea".toList (by decide) (by decide) (by decide) (by decide)]
  reserved := List.forall_mem_cons.2 ⟨by decide, List.forall_mem_singleton.2 (by decide)⟩
  api := ⟨_, List.mem_cons_self, rfl⟩
  server := ⟨_, List.mem_cons_of_mem _ (List.mem_singleton_self _), rfl⟩
  columns := [.bare (.single "id".toList (by decide) (List.all_eq_true.1 (by decide))),
    ⟨.single "t".toList (by decide) (List.all_eq_true.1 (by decide)), some "temp".toList, by
      intro name same
      obtain rfl := Option.some.inj same
      exact ⟨by decide, List.all_eq_true.1 (by decide)⟩⟩]
  columns_ne := List.cons_ne_nil _ _
  names := by decide
  noTag := by
    intro k same
    obtain rfl := Option.some.inj same
    decide
  fromText := "buoy".toList
  from_literal := by decide +kernel
  from_row := by decide
  conditions := [⟨.single "t".toList (by decide) (List.all_eq_true.1 (by decide)), ">".toList, "5".toList, by
      intro x mem
      rw [List.mem_singleton.1 mem]
      exact ⟨'t', [], rfl, by decide, List.forall_mem_nil _⟩,
    by decide, .inl ⟨[], "5".toList, [], rfl, .inl rfl, ⟨by decide, List.all_eq_true.1 (by decide)⟩, .inl rfl⟩⟩]
  grammar := by
    intro k mem
    rw [List.mem_singleton.1 mem]
    exact ⟨⟨[], ['t'], [], [], rfl, .inl rfl, List.cons_ne_nil _ _, List.forall_mem_singleton.2 rfl, .inl rfl, List.forall_mem_nil _⟩,
      [], ['5'], [], [], [], rfl, List.forall_mem_nil _, List.forall_mem_singleton.2 rfl, List.forall_mem_nil _, List.forall_mem_nil _,
      List.forall_mem_nil _⟩
  others := [pair "note".toList "x".toList (by decide) (by decide) (by decide) (by decide)]

/-- The same of another table. -/
def moorings : Description :=
  { buoys with
    fromText := "mooring".toList
    from_literal := by decide +kernel
    from_row := by decide }

theorem buoys_read : ∃ s s', read (.reuse 1) .api
    (some ("[section]\napi=odbc\nserver=sea\n[select]\nid,t AS temp\n[from]\nbuoy\n[where]\nt>5\n[other]\nnote=x\n".toList ++
      "[section]\napi=odbc\nserver=sea\n[select]\nid,t AS temp\n[from]\nmooring\n[where]\nt>5\n[other]\nnote=x".toList)) ⟨[], [], []⟩ =
      .ok true ⟨[], [], [s, s']⟩ ∧ s.parameter "api".toList = "odbc".toList ∧ getOther s'.other "note".toList = some "x".toList := by
  obtain ⟨stored, run, described⟩ := written_read (.reuse 1) .api [] buoys [moorings]
  obtain ⟨s, rest, here, others, rfl⟩ := List.forall₂_cons_left_iff.1 described
  obtain ⟨s', rest', there, none, rfl⟩ := List.forall₂_cons_left_iff.1 others
  obtain rfl := List.forall₂_nil_left_iff.1 none
  have text : Description.text [buoys, moorings] =
      "[section]\napi=odbc\nserver=sea\n[select]\nid,t AS temp\n[from]\nbuoy\n[where]\nt>5\n[other]\nnote=x\n".toList ++
        "[section]\napi=odbc\nserver=sea\n[select]\nid,t AS temp\n[from]\nmooring\n[where]\nt>5\n[other]\nnote=x".toList := by
    decide +kernel
  rw [text] at run
  exact ⟨s, s', run, here.settings _, there.others _⟩

end SQLTextContainer

end SqlHandler
