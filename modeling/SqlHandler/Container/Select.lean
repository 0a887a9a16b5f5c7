import SqlHandler.Container.AttributeLists
import SqlHandler.Container.Statements
import Mathlib.Data.List.Nodup

/-!
# The attributes of a statement

Where every item of a `[select]` part is a path, with or without an alias, and the names
differ, the set by name holds them all and each keeps its place as its position. The
attributes of a statement are then those that were asked for, in the order of the part.
-/

namespace SqlHandler
open Posix Text Stl

/-! ## The entries of a `[select]` part -/

/-- A path, with or without an alias. -/
def IsEntry (x : Str) : Prop := ∃ full name, AttrForm x full name ∧ name ≠ ['*']

/-- The name of an entry: its last word. -/
def entryName (x : Str) : Str := ((x.reverse.dropWhile (· == ' ')).takeWhile nameChar).reverse

theorem entryName_of {front name sp : Str} (letters : ∀ c ∈ name, nameChar c = true) (spaces : ∀ c ∈ sp, c = ' ')
    (ne : name ≠ []) (ends : ∀ c ∈ front.getLast?, nameChar c = false) : entryName (front ++ name ++ sp) = name := by
  have reversed : (front ++ name ++ sp).reverse = sp.reverse ++ (name.reverse ++ front.reverse) := by simp
  have skip : ∀ c ∈ sp.reverse, (c == ' ') = true := fun c mem => by simpa using spaces c (List.mem_reverse.1 mem)
  have stop : (name.reverse ++ front.reverse).dropWhile (· == ' ') = name.reverse ++ front.reverse := by
    obtain ⟨last, c, rfl⟩ := (List.eq_nil_or_concat name).resolve_left ne
    have : c ≠ ' ' := (nameChar_ne (letters c (by simp))).1
    simp [this]
  have take : (name.reverse ++ front.reverse).takeWhile nameChar = name.reverse := by
    refine (run_split (fun c mem => letters c (List.mem_reverse.1 mem)) fun c mem => ?_).1
    rw [List.head?_reverse] at mem
    exact ends c mem
  rw [entryName, reversed, List.dropWhile_append_of_pos skip, stop, take, List.reverse_reverse]

/-- The last word of a path stands behind its dot. -/
theorem AttrPath.qualifiers_last (p : AttrPath) : ∀ c ∈ p.qualifiers.getLast?, nameChar c = false := by
  intro c mem
  cases e : p.init.reverse with
  | nil =>
    rw [AttrPath.qualifiers, List.reverse_eq_nil_iff.1 e] at mem
    cases mem
  | cons x rest =>
    have init : p.init = rest.reverse ++ [x] := by rw [← List.reverse_reverse p.init, e]; simp
    rw [AttrPath.qualifiers, init, List.flatMap_append] at mem
    simp at mem
    rw [← mem]
    decide

/-- An entry has one form: its name is its last word. -/
theorem AttrForm.entryName_eq {x full name : Str} (form : AttrForm x full name) (ne : name ≠ ['*']) : entryName x = name := by
  cases form with
  | @path sp sp' p lead trail =>
    rw [AttrPath.text, ← List.append_assoc]
    refine entryName_of p.last_ok trail p.last_ne fun c mem => ?_
    cases q : p.qualifiers.getLast? with
    | some d =>
      have : (sp ++ p.qualifiers).getLast? = some d := by rw [List.getLast?_append, q]; rfl
      rw [this] at mem
      cases mem
      exact p.qualifiers_last _ q
    | none =>
      rw [List.getLast?_eq_none_iff.1 q, List.append_nil] at mem
      have space : c = ' ' := lead c (List.mem_of_getLast? mem)
      rw [space]
      decide
  | @aliased sp sep name sp' p lead separator name_ne letters trail =>
    rw [← List.append_assoc (sp ++ p.text)]
    refine entryName_of letters trail name_ne fun c mem => ?_
    obtain ⟨front, rfl⟩ : ∃ front, sep = front ++ [' '] := by
      rcases separator with ⟨sep_ne, spaces⟩ | ⟨a, b, rfl, -, -⟩
      · obtain ⟨front, d, rfl⟩ := (List.eq_nil_or_concat sep).resolve_left sep_ne
        have : d = ' ' := spaces d (by simp)
        exact ⟨front, by rw [this]; simp⟩
      · exact ⟨[' ', a, b], rfl⟩
    rw [← List.append_assoc, List.getLast?_append] at mem
    cases mem
    decide
  | star => exact absurd rfl ne

theorem AttrForm.attrChars {x full name : Str} (form : AttrForm x full name) (ne : name ≠ ['*']) :
    ∀ c ∈ x, attrChar c = true := by
  have path : ∀ (p : AttrPath), ∀ c ∈ p.text, attrChar c = true := by
    intro p c mem
    rcases p.letter mem with letter | rfl
    · simp [attrChar, letter]
    · decide
  intro c mem
  cases form with
  | @path sp sp' p lead trail =>
    simp only [List.mem_append] at mem
    rcases mem with (mem | mem) | mem
    · rw [lead c mem, attrChar_space]
    · exact path p c mem
    · rw [trail c mem, attrChar_space]
  | @aliased sp sep name sp' p lead separator name_ne letters trail =>
    simp only [List.mem_append] at mem
    rcases mem with ((mem | mem) | mem | mem) | mem
    · rw [lead c mem, attrChar_space]
    · exact path p c mem
    · rcases separator with ⟨-, spaces⟩ | ⟨a, b, rfl, ha, hb⟩
      · rw [spaces c mem, attrChar_space]
      · simp only [List.mem_cons, List.not_mem_nil, or_false] at mem
        rcases mem with rfl | rfl | rfl | rfl
        · decide
        · rcases ha with rfl | rfl <;> decide
        · rcases hb with rfl | rfl <;> decide
        · decide
    · simp [attrChar, letters c mem]
    · rw [trail c mem, attrChar_space]
  | star => exact absurd rfl ne

theorem AttrForm.name_ne {x full name : Str} (form : AttrForm x full name) (letters : ∀ c ∈ x, attrChar c = true) :
    name ≠ ['*'] := by
  cases form with
  | path p =>
    intro e
    exact absurd (p.last_ok '*' (by rw [e]; simp)) (by decide)
  | aliased p lead separator name_ne ok =>
    rintro rfl
    exact absurd (ok '*' (by simp)) (by decide)
  | star => exact absurd (letters '*' (by simp)) (by decide)

/-- What stands behind the leading spaces has the same form. -/
theorem AttrForm.behind {x full name : Str} (form : AttrForm x full name) (ne : name ≠ ['*']) :
    ∃ sp c w, x = sp ++ c :: w ∧ (∀ d ∈ sp, d = ' ') ∧ (c ≠ ' ' ∧ c ≠ '*') ∧ AttrForm (c :: w) full name := by
  have first : ∀ p : AttrPath, ∃ c w, p.text = c :: w ∧ c ≠ ' ' ∧ c ≠ '*' := by
    intro p
    obtain ⟨c, w, e⟩ := List.exists_cons_of_ne_nil p.text_ne
    have letter : c ∈ p.text := by rw [e]; simp
    exact ⟨c, w, e, (p.letter_ne letter).1, (p.letter_ne letter).2.1⟩
  cases form with
  | @path sp sp' p lead trail =>
    obtain ⟨c, w, e, plain⟩ := first p
    have here : AttrForm ([] ++ p.text ++ sp') p.text p.last := .path p nofun trail
    refine ⟨sp, c, w ++ sp', by rw [e]; simp, lead, plain, ?_⟩
    rw [List.nil_append] at here
    conv at here => arg 1; rw [e]
    exact here
  | @aliased sp sep name sp' p lead separator name_ne letters trail =>
    obtain ⟨c, w, e, plain⟩ := first p
    have here : AttrForm ([] ++ p.text ++ (sep ++ name) ++ sp') p.text name := .aliased p nofun separator name_ne letters trail
    refine ⟨sp, c, w ++ (sep ++ name) ++ sp', by rw [e]; simp, lead, plain, ?_⟩
    rw [List.nil_append] at here
    conv at here => arg 1; rw [e]
    exact here
  | star => exact absurd rfl ne

/-- The text of an entry is the entry behind its leading spaces. -/
theorem itemText_entry {x : Text} {sp w : Str} {c : Char} (split : x.str = sp ++ c :: w) (lead : ∀ d ∈ sp, d = ' ')
    (first : c ≠ ' ' ∧ c ≠ '*') : (itemText x).str = c :: w := by
  have spaces : (x.str.takeWhile (· == ' ')).length = sp.length := by
    rw [split, lead_of lead (by simpa using first.1)]
  have span : itemSpan x.str = ⟨sp.length, x.str.length⟩ := by
    unfold itemSpan
    rw [spaces]
    simp only [split]
    rw [if_neg (by simp), if_neg (by simpa using first.2)]
  rw [itemText, str_substr, span, split]
  simp [Span.text]

/-- An attribute is made of an entry, under its name. -/
theorem entry_made {x : Text} (entry : IsEntry x.str) : Taken x.str ∧ ∀ i, ∃ a, SQLAttribute.make (itemText x) i = .ok a ∧
    a.attr = itemText x ∧ a.position = i ∧ a.name.str = entryName x.str := by
  obtain ⟨full, name, form, ne⟩ := entry
  have letters := form.attrChars ne
  have taken : Taken x.str := taken_iff.2 (.inl ⟨form.ne_nil, letters⟩)
  obtain ⟨sp, c, w, split, lead, first, form'⟩ := form.behind ne
  have text := itemText_entry split lead first
  have read : (itemText x).cStr = c :: w := by
    rw [read_of_noNul, text]
    intro d mem
    exact (taken.letter (List.mem_map_of_mem (mem_substr mem))).2
  have behind : ∀ d ∈ c :: w, attrChar d = true := fun d mem => letters d (by
    rw [split]
    exact List.mem_append_right _ mem)
  refine ⟨taken, fun i => ?_⟩
  obtain ⟨a, made⟩ := SQLAttribute.make_form (read ▸ form') i
  obtain ⟨attr, position, form₁, -⟩ := SQLAttribute.make_ok made
  rw [read] at form₁
  refine ⟨a, made, attr, position, ?_⟩
  rw [← form₁.entryName_eq (form₁.name_ne behind), form'.entryName_eq ne, form.entryName_eq ne]

/-! ## The set of a `[select]` part -/

/-- An attribute is the one of an entry. -/
def OfEntry (a : SQLAttribute) (x : Text) : Prop := a.attr = itemText x ∧ a.name.str = entryName x.str

theorem names_eq {attrs : List SQLAttribute} {l : List Text} (same : List.Forall₂ OfEntry attrs l) :
    attrs.map SQLAttribute.nameKey = l.map fun x => entryName x.str := by
  induction same with
  | nil => rfl
  | cons here _ ih => rw [List.map_cons, List.map_cons, ih, ← here.2, SQLAttribute.nameKey]

/-- The texts of the attributes with some names. -/
theorem texts_filter {attrs : List SQLAttribute} {l : List Text} (same : List.Forall₂ OfEntry attrs l) (asked : Str → Bool) :
    (attrs.filter fun a => asked a.nameKey).map SQLAttribute.attr = (l.filter fun x => asked (entryName x.str)).map itemText := by
  induction same with
  | nil => rfl
  | @cons a x attrs l here _ ih =>
    have name : a.nameKey = entryName x.str := here.2
    rw [List.filter_cons, List.filter_cons, name]
    split
    · rw [List.map_cons, List.map_cons, ih, here.1]
    · exact ih

/-- The attributes of a list of entries, at the positions from `i`. -/
theorem entries_made {l : List Text} (entries : ∀ x ∈ l, IsEntry x.str) (i : Nat) : ∃ attrs : List SQLAttribute,
    attrs.map Except.ok = (l.map itemText).mapIdx (fun j x => SQLAttribute.make x (i + j)) ∧
      List.Forall₂ OfEntry attrs l ∧ (∀ a ∈ attrs, i ≤ a.position) ∧ attrs.Pairwise fun a b => a.position < b.position := by
  induction l generalizing i with
  | nil => exact ⟨[], rfl, .nil, nofun, .nil⟩
  | cons x l ih =>
    obtain ⟨-, makes⟩ := entry_made (entries x List.mem_cons_self)
    obtain ⟨a, made, attr, position, name⟩ := makes i
    obtain ⟨attrs, others, same, later, sorted⟩ := ih (fun y mem => entries y (List.mem_cons_of_mem _ mem)) (i + 1)
    refine ⟨a :: attrs, ?_, .cons ⟨attr, name⟩ same, ?_, ?_⟩
    · simp only [List.map_cons, List.mapIdx_cons, others, Nat.add_zero, made, Nat.add_assoc, Nat.add_comm 1]
    · intro b mem
      rcases List.mem_cons.1 mem with rfl | mem
      · omega
      · exact Nat.le_of_succ_le (later b mem)
    · refine List.pairwise_cons.2 ⟨fun b mem => ?_, sorted⟩
      rw [position]
      exact later b mem

/-- A list of entries is read whole: none has a NUL. -/
theorem recognised_entries {row : Text} (entries : ∀ x ∈ items row, IsEntry x.str) :
    recognised row = (items row).map itemText := by
  have whole : row.upToNul = row := by
    obtain ⟨init, u, -, ⟨whole, -⟩ | ⟨x, v, w, nul, all⟩⟩ := AttributeList.items_upToNul row
    · exact whole
    · have inside : u ++ x :: v ∈ items row := by rw [all]; simp
      have taken := (entry_made (entries _ inside)).1
      exact absurd nul (taken.letter (List.mem_map_of_mem (by simp))).2
  have all : ∀ l : List Text, (∀ x ∈ l, IsEntry x.str) → scan Text.str false 0 l = l := by
    intro l entries
    induction l with
    | nil => simp [scan]
    | cons x l ih =>
      rw [scan_free (entry_made (entries x List.mem_cons_self)).1 (by simp),
        ih fun y mem => entries y (List.mem_cons_of_mem _ mem)]
  rw [recognised, whole, all _ entries]

/-- The attributes of a `[select]` part of entries with different names, in its order. -/
theorem select_entries (shape : Shape) {row left : Text} {select : SQLAttributeSetByName}
    (entries : ∀ x ∈ items row, IsEntry x.str) (distinct : ((items row).map fun x => entryName x.str).Nodup)
    (loaded : SQLQuery.loadAttributes shape row = .ok select left) : ∃ attrs : List SQLAttribute,
      List.Forall₂ OfEntry attrs (items row) ∧ (attrs.Pairwise fun a b => a.position < b.position) ∧
        Ordered SQLAttribute.nameKey select ∧ ∀ a, a ∈ select.toList ↔ a ∈ attrs := by
  obtain ⟨attrs, made, same, -, sorted⟩ := entries_made entries 0
  refine ⟨attrs, same, sorted, ?_⟩
  have all : attrs.map Except.ok = (recognised row).mapIdx fun i x => SQLAttribute.make x i := by
    rw [recognised_entries entries, made]
    simp only [Nat.zero_add]
  obtain ⟨left', run⟩ := AttributeList.loadAttributes_of shape all
  obtain ⟨rfl, -⟩ := EStateM.Result.ok.inj (loaded.symm.trans run)
  refine ⟨insertAll_ordered shape attrs (ordered_leaf _), mem_insertAll_apart shape ?_⟩
  rw [← names_eq same] at distinct
  exact fun a inA b inB e => List.inj_on_of_nodup_map distinct inA inB e

/-! ## The attributes asked for -/

/-- What was kept of a list, or all of it if that is nothing. -/
def orAll {α : Type} (kept all : List α) : List α := if kept.isEmpty then all else kept

theorem map_orAll {α β : Type} (f : α → β) (kept all : List α) : (orAll kept all).map f = orAll (kept.map f) (all.map f) := by
  unfold orAll
  rw [List.isEmpty_map]
  split <;> rfl

namespace SQLQuery
variable {shape : Shape}

/-- Without a `*` in the section the attributes asked for are those of the section. -/
theorem select?_found (select : SQLAttributeSetByName) (asked : List SQLAttribute) (attr : SQLAttributeSetByPos) :
    select? shape false select attr asked =
      .ok (insertAll shape attrPosComp attr (asked.filterMap fun a => find attrNameComp a select)) := by
  induction asked generalizing attr with
  | nil => rfl
  | cons a asked ih =>
    rw [select?, if_neg (by decide), List.filterMap_cons]
    cases find attrNameComp a select with
    | some i => exact ih _
    | none => exact ih _

/-- The `*` looked for has the name `*`. -/
theorem everything_ok : ∃ star, everything = .ok star ∧ star.name.str = ['*'] :=
  ⟨⟨lit "*", [], lit "*", 0⟩, rfl, rfl⟩

/-- What a statement lists of a section without a `*`: the attributes asked for, or all of them. -/
theorem attrToSelect_entries {select : SQLAttributeSetByName} {attrs : List SQLAttribute} {row left : Text}
    {result : SQLAttributeSetByPos} (sorted : attrs.Pairwise fun a b => a.position < b.position)
    (ordered : Ordered SQLAttribute.nameKey select) (same : ∀ a, a ∈ select.toList ↔ a ∈ attrs)
    (plain : ∀ a ∈ attrs, a.name.str ≠ ['*']) (run : attrToSelect shape select row = .ok result left) :
    ∃ asked, loadAttributes shape row = .ok asked left ∧ result.toList =
      orAll (attrs.filter fun a => decide (a.nameKey ∈ asked.toList.map SQLAttribute.nameKey)) attrs := by
  obtain ⟨asked, left₁, loaded, rest⟩ := Proc.of_bind_ok run
  obtain ⟨star, everything', name⟩ := everything_ok
  rw [everything'] at rest
  have none : find attrNameComp star select = none := by
    refine (find_byKey_none ordered).2 fun a mem => ?_
    change a.name.str ≠ star.name.str
    rw [name]
    exact plain a ((same a).1 mem)
  -- the positions tell the attributes of the section apart
  have positions : (attrs.map SQLAttribute.position).Nodup := List.pairwise_map.2 (sorted.imp fun lt => ne_of_lt lt)
  have apart : ∀ a ∈ attrs, ∀ b ∈ attrs, a.position = b.position → a = b :=
    fun a inA b inB e => List.inj_on_of_nodup_map positions inA inB e
  have byPos : ∀ found : List SQLAttribute, (∀ a ∈ found, a ∈ attrs) → ∀ keep : SQLAttribute → Bool,
      (∀ a ∈ attrs, a ∈ found ↔ keep a = true) → (insertAll shape attrPosComp .leaf found).toList = attrs.filter keep := by
    intro found inside keep kept
    refine (insertAll_ordered shape found (ordered_leaf SQLAttribute.position)).toList_eq (sorted.filter keep) fun a => ?_
    refine (mem_insertAll_apart shape (fun a inA b inB => apart a (inside a inA) b (inside b inB)) a).trans ?_
    rw [List.mem_filter]
    constructor
    · exact fun mem => ⟨inside a mem, (kept a (inside a mem)).1 mem⟩
    · exact fun mem => (kept a mem.1).2 mem.2
  change (Proc.lift (select? shape (find attrNameComp star select).isSome select .leaf asked.toList) >>= fun attr =>
    if attr.toList.isEmpty then pure (insertAll shape attrPosComp .leaf select.toList) else pure attr) left₁ = _ at rest
  rw [none, Option.isSome_none, select?_found] at rest
  let found := asked.toList.filterMap fun a => find attrNameComp a select
  change (if (insertAll shape attrPosComp .leaf found).toList.isEmpty then
    (pure (insertAll shape attrPosComp .leaf select.toList) : Proc Text SQLAttributeSetByPos)
    else pure (insertAll shape attrPosComp .leaf found)) left₁ = _ at rest
  have inFound : ∀ a, a ∈ found ↔ a ∈ attrs ∧ a.nameKey ∈ asked.toList.map SQLAttribute.nameKey := by
    intro a
    simp only [found, List.mem_filterMap, List.mem_map]
    constructor
    · rintro ⟨b, mem, at'⟩
      obtain ⟨held, name⟩ := (find_byKey ordered).1 at'
      exact ⟨(same a).1 held, b, mem, name.symm⟩
    · rintro ⟨held, b, mem, name⟩
      exact ⟨b, mem, (find_byKey ordered).2 ⟨(same a).2 held, name.symm⟩⟩
  have kept := byPos found (fun a mem => ((inFound a).1 mem).1)
    (fun a => decide (a.nameKey ∈ asked.toList.map SQLAttribute.nameKey)) fun a mem => by
      rw [inFound a, decide_eq_true_eq]
      exact and_iff_right mem
  have all := byPos select.toList (fun a mem => (same a).1 mem) (fun _ => true) fun a mem => by simp [(same a).2 mem]
  rw [List.filter_true] at all
  rw [kept] at rest
  split at rest
  · rename_i empty
    cases rest
    exact ⟨asked, loaded, by rw [orAll, if_pos empty, all]⟩
  · rename_i some'
    cases rest
    exact ⟨asked, loaded, by rw [orAll, if_neg some', kept]⟩

end SQLQuery

/-! ## The list of a statement -/

namespace SQLTextContainer
variable {rt : Runtime}

/-- Texts with commas between them. -/
def listed (l : List Text) : Text := (of .literal contAttrJoin).intercalate l

theorem selectClause_eq (attrs : SQLAttributeSetByPos) : selectClause attrs = listed (attrs.toList.map SQLAttribute.attr) := by
  unfold selectClause listed
  cases attrs.toList with
  | nil => rfl
  | cons a rest =>
    rw [List.map_cons, intercalate_cons]
    exact foldl_joined (of .literal contAttrJoin) SQLAttribute.attr rest a.attr

/-- The entries with some names, or all of them if there is none. -/
def shown (entries : List Text) (names : List Str) : List Text :=
  orAll (entries.filter fun x => decide (entryName x.str ∈ names)) entries

/-- The attributes kept have the texts of the entries shown. -/
theorem shown_texts {attrs : List SQLAttribute} {l : List Text} (same : List.Forall₂ OfEntry attrs l) (names : List Str) :
    (orAll (attrs.filter fun a => decide (a.nameKey ∈ names)) attrs).map SQLAttribute.attr = (shown l names).map itemText := by
  have kept := texts_filter same fun name => decide (name ∈ names)
  have all := texts_filter same fun _ => true
  rw [List.filter_true, List.filter_true] at all
  rw [shown, map_orAll, map_orAll, kept, all]

/-- The list of a statement are the entries of the `[select]` part that were asked for by name, in
their order, or all of them; its letters are those of the dataset and the commas. The entries are those
of one `[select]` text, each with a name of its own; the request is any text. -/
theorem select_clause {www2id : Str → Str} {constraint part : Str} {s s' : DatasetSection} {query left : Text}
    (loaded : SQLQuery.loadAttributes rt.shape (of .dataset part) = .ok s.query.select left)
    (entries : ∀ x ∈ items (of .dataset part), IsEntry x.str)
    (distinct : ((items (of .dataset part)).map fun x => entryName x.str).Nodup)
    (run : buildQuery rt www2id constraint s = .ok query s') : ∃ asked left' rest,
      SQLQuery.loadAttributes rt.shape (splitConstraint (of .client (www2id constraint))).1 = .ok asked left' ∧
      query = lit "SELECT " ++
        (listed ((shown (items (of .dataset part)) (asked.toList.map SQLAttribute.nameKey)).map itemText) ++ rest) ∧
      lit " FROM " ++ s.query.fromText <+: rest ∧ ∀ x ∈ items (of .dataset part), ∀ c ∈ itemText x, c.origin = .dataset := by
  obtain ⟨attrs, left₁, found, left₂, t, select, -, -, -, rfl⟩ := buildQuery_ok run
  obtain ⟨own, same, sorted, ordered, mem⟩ := select_entries rt.shape entries distinct loaded
  have plain : ∀ a ∈ own, a.name.str ≠ ['*'] := by
    intro a inOwn star
    have inNames : a.nameKey ∈ own.map SQLAttribute.nameKey := List.mem_map_of_mem inOwn
    rw [names_eq same] at inNames
    obtain ⟨x, inItems, name⟩ := List.mem_map.1 inNames
    obtain ⟨full, name', form, ne⟩ := entries x inItems
    exact ne ((form.entryName_eq ne).symm.trans (name.trans star))
  obtain ⟨asked, loaded', kept⟩ := SQLQuery.attrToSelect_entries sorted ordered mem plain select
  refine ⟨asked, left₁, _, loaded', ?_, List.prefix_append _ (whereText (found.foldl (addCondition s.query.select)
    (joinConditions t.toList)) ++ lit ";"), ?_⟩
  · rw [selectClause_eq, kept, shown_texts same]
    simp
  · intro x inItems c inText
    exact AttributeList.items_of .dataset part x inItems c (mem_substr inText)

/-- A `[select]` part with an alias and a qualified name. -/
def stations : Str := " b AS y, t.a, c".toList

/-- The section of `stations`. -/
def stationSection : DatasetSection :=
  ⟨[], [], [], [], [], [], ⟨match SQLQuery.loadAttributes .plain (of .dataset stations) with
    | .ok select _ => select
    | .error _ _ => .leaf, of .dataset " t".toList, .leaf⟩, .leaf⟩

theorem stations_items : items (of .dataset stations) =
    [of .dataset " b AS y".toList, of .dataset " t.a".toList, of .dataset " c".toList] := by decide

theorem stations_entries : ∀ x ∈ items (of .dataset stations), IsEntry x.str := by
  have word : ∀ c : Char, nameChar c = true → ∀ d ∈ [c], nameChar d = true := by simp
  have lead : ∀ c ∈ [' '], c = ' ' := by simp
  rw [stations_items]
  intro x mem
  simp only [List.mem_cons, List.not_mem_nil, or_false] at mem
  rcases mem with rfl | rfl | rfl
  · exact ⟨_, _, .aliased (.single ['b'] (by simp) (word _ (by decide))) lead (.inr ⟨'A', 'S', rfl, .inl rfl, .inl rfl⟩)
      (List.cons_ne_nil 'y' []) (word _ (by decide)) nofun, by decide⟩
  · exact ⟨_, _, .path ⟨[['t']], ['a'], by simp [nameChar, upToZ, between], by simp, word _ (by decide)⟩ lead nofun, show ['a'] ≠ ['*'] by decide⟩
  · exact ⟨_, _, .path (.single ['c'] (by simp) (word _ (by decide))) lead nofun, show ['c'] ≠ ['*'] by decide⟩

theorem stations_select : ∃ query s' asked left' rest,
    buildQuery (.reuse 1) id "c,y,zz".toList stationSection = .ok query s' ∧
      SQLQuery.loadAttributes .plain (splitConstraint (of .client (id "c,y,zz".toList))).1 = .ok asked left' ∧
      query = lit "SELECT " ++
        (listed ((shown (items (of .dataset stations)) (asked.toList.map SQLAttribute.nameKey)).map itemText) ++ rest) := by
  have answer : (match buildQuery (.reuse 1) id "c,y,zz".toList stationSection with
      | .ok _ _ => true
      | .error _ _ => false) = true := by decide +kernel
  have read : (match SQLQuery.loadAttributes .plain (of .dataset stations) with
      | .ok _ _ => true
      | .error _ _ => false) = true := by decide +kernel
  split at answer
  · rename_i query s' run
    cases loaded : SQLQuery.loadAttributes .plain (of .dataset stations) with
    | error fault left =>
      rw [loaded] at read
      cases read
    | ok select left =>
      have here : SQLQuery.loadAttributes (Runtime.reuse 1).shape (of .dataset stations) =
          .ok stationSection.query.select left := by
        unfold stationSection
        rw [loaded]
        exact loaded
      obtain ⟨asked, left', rest, asks, text, -⟩ := select_clause here stations_entries (by decide +kernel) run
      exact ⟨query, s', asked, left', rest, run, asks, text⟩
  · cases answer

end SQLTextContainer

end SqlHandler
