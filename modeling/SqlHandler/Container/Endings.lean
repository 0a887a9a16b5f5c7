import SqlHandler.Container.Gaps

/-!
# What the end of a section leaves

`addNewSection` empties the buffer of a part that it loads. Where the part does not load, what
the loop has not cut out stays: the text of `[where]` without its conditions (`Spent`), the
list of `[select]` without the items recognised (`Clean`).
-/

namespace SqlHandler
open Posix Text Stl

/-! ## Conditions cut out -/

/-- The conditions of the text can be cut out, the first one each time, until none begins in it. -/
inductive Spent : Str → Prop
  | inert {w : Str} (nothing : Inert w) : Spent w
  | cut {w p q : Str} {k : ConstrWord} (first : First w p k q) (rest : Spent (p ++ q)) : Spent w

/-- The attributes of the conditions cut out have one of the forms of an attribute. -/
inductive NamesOnly : Str → Prop
  | stop {w : Str} (nothing : ∀ p k q, w ≠ p ++ ConstrWord.word k ++ q) : NamesOnly w
  | cut {w p q : Str} {k : ConstrWord} (first : First w p k q) (attr : ∃ full name, AttrForm k.attr full name)
      (rest : NamesOnly (p ++ q)) : NamesOnly w

theorem Spent.noNul {w : Str} (h : Spent w) : Char.ofNat 0 ∉ w := by
  induction h with
  | inert nothing => exact nothing.1
  | @cut w p q k first rest ih =>
    rw [first.split]
    intro mem
    rcases List.mem_append.1 mem with mem | mem
    · rcases List.mem_append.1 mem with mem | mem
      · exact ih (List.mem_append_left _ mem)
      · exact k.noNul mem
    · exact ih (List.mem_append_right _ mem)

theorem inert_nil : Inert [] := ⟨List.not_mem_nil, fun _ _ _ split ne _ =>
  absurd (List.append_eq_nil_iff.1 (List.append_eq_nil_iff.1 split.symm).1).2 ne⟩

/-- In an inert text there is no condition. -/
theorem Inert.no_word {w p q : Str} {k : ConstrWord} (h : Inert w) : w ≠ p ++ k.word ++ q := by
  intro split
  have le := h.apart (t := []) (by rw [List.append_nil]; exact split)
  have attr := List.length_pos_iff.2 k.attr_ok.letters.1
  rw [split, ConstrWord.word, ConstrWord.upTo, ConstrWord.front] at le
  simp only [List.length_append] at le
  omega

/-- A row with the first condition of what is read of it, and without. -/
theorem erased_first {row : Text} {p q : Str} {k : ConstrWord} (first : First row.cStr p k q) {mt : Match}
    (found : regexec contRegConstrBase row.cStr = some mt) :
    ∃ tail, row.str = p ++ k.word ++ q ++ tail ∧ (∀ c ∈ tail.head?, c = Char.ofNat 0) ∧
      (row.erase mt.so mt.len).str = p ++ q ++ tail := by
  obtain ⟨so, len, -⟩ := first.stored found
  have whole : row.str = p ++ k.word ++ q ++ row.str.dropWhile (· ≠ Char.ofNat 0) := by
    rw [← first.split]
    exact (List.takeWhile_append_dropWhile ..).symm
  refine ⟨row.str.dropWhile (· ≠ Char.ofNat 0), whole, ?_, ?_⟩
  · intro c mem
    have stops := List.head?_dropWhile_not (fun c : Char => decide (c ≠ Char.ofNat 0)) row.str
    rw [show List.head? _ = some c from mem] at stops
    simpa using stops
  · generalize row.str.dropWhile (· ≠ Char.ofNat 0) = tail at whole
    rw [str_erase, so, len, whole]
    simp

theorem takeWhile_read {a tail : Str} (noNul : Char.ofNat 0 ∉ a) (nul : ∀ c ∈ tail.head?, c = Char.ofNat 0) :
    (a ++ tail).takeWhile (· ≠ Char.ofNat 0) = a := by
  refine (run_split ?_ ?_).1
  · intro c mem
    have ne : c ≠ Char.ofNat 0 := fun same => noNul (same ▸ mem)
    simpa using ne
  · intro c mem
    simp [nul c mem]

/-- What is left of a text without its conditions is inert. -/
theorem spent_iff {row left : Text} {cuts : List (Text × Match)}
    (path : StringMatch.Cuts (regexec contRegConstrBase) row cuts left) : Spent row.str ↔ Inert left.str := by
  induction path with
  | @stop row nothing =>
    refine ⟨fun spent => ?_, .inert⟩
    have read := cStr_of_noNul spent.noNul
    cases spent with
    | inert inert => exact inert
    | cut first _ =>
      rw [read] at nothing
      exact absurd first.split (found_none.1 nothing _ _ _)
  | @cut row mt cuts left found _ ih =>
    obtain ⟨p, k, q, first, -⟩ := first_of_found found
    obtain ⟨tail, whole, -, erased⟩ := erased_first first found
    rw [← ih, erased]
    constructor
    · intro spent
      have read := cStr_of_noNul spent.noNul
      cases spent with
      | inert inert => exact absurd (read.symm.trans first.split) inert.no_word
      | cut first' rest =>
        rw [read] at first
        obtain ⟨rfl, word, rfl⟩ := first.unique first'
        have none : tail = [] := by
          have length := congrArg List.length (first.split.symm.trans whole)
          simp only [List.length_append] at length
          exact List.eq_nil_of_length_eq_zero (by omega)
        rw [none, List.append_nil]
        exact rest
    · intro rest
      have noNul : Char.ofNat 0 ∉ row.str := by
        rw [whole]
        intro mem
        have outside := rest.noNul
        simp only [List.mem_append] at mem outside
        rcases mem with ((mem | mem) | mem) | mem
        · exact outside (.inl (.inl mem))
        · exact k.noNul mem
        · exact outside (.inl (.inr mem))
        · exact outside (.inr mem)
      have none : tail = [] := by
        have length := congrArg List.length (((cStr_of_noNul noNul).symm.trans first.split).symm.trans whole)
        simp only [List.length_append] at length
        exact List.eq_nil_of_length_eq_zero (by omega)
      rw [none, List.append_nil] at rest
      exact .cut (cStr_of_noNul noNul ▸ first) rest

/-- Conditions are made of all matches if their attributes have one of the forms. -/
theorem namesOnly_iff {row left : Text} {cuts : List (Text × Match)}
    (path : StringMatch.Cuts (regexec contRegConstrBase) row cuts left) : NamesOnly row.cStr ↔
      ∃ made : List SQLConstraint,
        (cuts.map fun c => StringMatch.extract constrGroups c.2 c.1).map SQLQuery.made = made.map .ok := by
  induction path with
  | stop nothing =>
    refine ⟨fun _ => ⟨[], rfl⟩, fun _ => .stop fun p k q => ?_⟩
    exact found_none.1 nothing p k q
  | @cut row mt cuts left found _ ih =>
    obtain ⟨p, k, q, first, -⟩ := first_of_found found
    obtain ⟨tail, whole, nul, erased⟩ := erased_first first found
    have read : (row.erase mt.so mt.len).cStr = p ++ q := by
      unfold Text.cStr
      rw [erased]
      refine takeWhile_read ?_ nul
      have outside : Char.ofNat 0 ∉ p ++ k.word ++ q := by
        rw [← first.split]
        intro mem
        simpa using List.mem_takeWhile_imp mem
      simp only [List.mem_append, not_or] at outside ⊢
      exact ⟨outside.1.1, outside.2⟩
    have attr : ((StringMatch.extract constrGroups mt row).getD 0 []).cStr = k.attr := by
      have text : ((StringMatch.extract constrGroups mt row).getD 0 []).str = k.attr := first.attrCut found
      rw [cStr_of_noNul, text]
      rw [text]
      exact fun mem => k.noNul (by simp [ConstrWord.word, ConstrWord.upTo, mem])
    rw [read] at ih
    constructor
    · intro names
      cases names with
      | stop nothing => exact absurd first.split (nothing p k q)
      | cut first' form rest =>
        obtain ⟨rfl, word, rfl⟩ := first.unique first'
        obtain ⟨made, all⟩ := ih.1 rest
        obtain ⟨full, name, form⟩ := form
        rw [← (ConstrWord.parts_eq word).1, ← attr] at form
        obtain ⟨a, run⟩ := SQLAttribute.make_form form 0
        obtain ⟨c, constraint⟩ : ∃ c, SQLQuery.made (StringMatch.extract constrGroups mt row) = .ok c :=
          ⟨_, SQLQuery.made_of run⟩
        exact ⟨c :: made, by rw [List.map_cons, List.map_cons, List.map_cons, all, constraint]⟩
    · rintro ⟨made, all⟩
      cases made with
      | nil => cases all
      | cons c made =>
        rw [List.map_cons, List.map_cons, List.map_cons] at all
        obtain ⟨run, others⟩ := List.cons.inj all
        have form := (SQLAttribute.make_ok (SQLQuery.made_ok run).1).2.2.1
        rw [attr] at form
        exact .cut first ⟨_, _, form⟩ (ih.2 ⟨made, others⟩)

/-! ## Items cut out -/

/-- Every item is empty or one that is recognised by itself. -/
def Clean (a : Str) : Prop := ∀ x ∈ a.splitOnP comma, x = [] ∨ Taken x

theorem Clean.noNul {a : Str} (h : Clean a) : Char.ofNat 0 ∉ a := by
  intro mem
  obtain ⟨x, inParts, inside⟩ := mem_parts (p := comma) (by decide) mem
  rcases h x inParts with rfl | taken
  · cases inside
  · exact (taken.letter inside).2 rfl

theorem Gap.clean {a : Str} (h : Gap a) : Clean a := by
  obtain ⟨k, sp, rfl, blanks⟩ := h
  have parts : (List.replicate k ',' ++ sp).splitOnP comma = List.replicate k [] ++ [sp] := by
    induction k with
    | zero =>
      refine List.splitOnP_eq_singleton fun c mem => ?_
      rw [blanks c mem]
      decide
    | succ k ih =>
      rw [List.replicate_succ, List.cons_append, List.splitOnP_cons_eq_if_modifyHead, if_pos (by decide), ih]
      rfl
  intro x mem
  rw [parts] at mem
  rcases List.mem_append.1 mem with mem | mem
  · exact .inl (List.eq_of_mem_replicate mem)
  · obtain rfl := List.mem_singleton.1 mem
    by_cases none : x = []
    · exact .inl none
    · refine .inr (taken_iff.2 (.inl ⟨none, fun c inside => ?_⟩))
      rw [blanks c inside, attrChar_space]

/-- Commas alone are a gap. -/
theorem gap_of_empty {a : Str} (empty : ∀ x ∈ a.splitOnP comma, x = []) : Gap a := by
  refine ⟨a.length, [], ?_, List.forall_mem_nil _⟩
  rw [List.append_nil]
  refine List.eq_replicate_iff.2 ⟨rfl, fun c mem => ?_⟩
  by_contra other
  obtain ⟨x, inParts, inside⟩ := mem_parts (p := comma) (c := c) (by simpa [comma] using other) mem
  rw [empty x inParts] at inside
  cases inside

/-- A round keeps it: what it puts together with an item that is left is not recognised. -/
theorem clean_round {before after : List Text} {x : Text} (none : ∀ b ∈ before, ¬ Taken b.str) (taken : Taken x.str) :
    (∀ y ∈ before.reverse ++ x :: after, y.str = [] ∨ Taken y.str) ↔ ∀ y ∈ closeUp before after, y.str = [] ∨ Taken y.str := by
  cases before with
  | nil =>
    cases after with
    | nil =>
      constructor
      · intro _ y mem
        rw [List.mem_singleton.1 mem]
        exact .inl rfl
      · intro _ y mem
        rw [List.mem_singleton.1 mem]
        exact .inr taken
    | cons v after => simp [closeUp, taken]
  | cons u before =>
    cases after with
    | nil =>
      simp only [closeUp, List.mem_append, List.mem_singleton]
      constructor
      · exact fun all y mem => all y (.inl mem)
      · rintro all y (mem | rfl)
        · exact all y mem
        · exact .inr taken
    | cons v after =>
      have glued : (str (u ++ v) = [] ∨ Taken (str (u ++ v))) ↔ u.str = [] ∧ (v.str = [] ∨ Taken v.str) := by
        rw [str_append]
        constructor
        · rintro (empty | both)
          · obtain ⟨first, second⟩ := List.append_eq_nil_iff.1 empty
            exact ⟨first, .inl second⟩
          · by_cases first : u.str = []
            · rw [first, List.nil_append] at both
              exact ⟨first, .inr both⟩
            · exact absurd (both.front first) (none u List.mem_cons_self)
        · rintro ⟨first, second⟩
          rw [first, List.nil_append]
          exact second
      have alone : (u.str = [] ∨ Taken u.str) ↔ u.str = [] := or_iff_left (none u List.mem_cons_self)
      simp only [closeUp, List.reverse_cons, List.mem_append, List.mem_cons, List.mem_reverse, List.not_mem_nil,
        or_false]
      constructor
      · rintro all y (mem | rfl | mem)
        · exact all y (.inl (.inl mem))
        · exact glued.2 ⟨alone.1 (all u (.inl (.inr rfl))), all v (.inr (.inr (.inl rfl)))⟩
        · exact all y (.inr (.inr (.inr mem)))
      · rintro all y ((mem | rfl) | rfl | rfl | mem)
        · exact all y (.inl mem)
        · exact .inl (glued.1 (all _ (.inr (.inl rfl)))).1
        · exact .inr taken
        · exact (glued.1 (all _ (.inr (.inl rfl)))).2
        · exact all y (.inr (.inr mem))

theorem clean_items {row : Text} : Clean row.str ↔ ∀ y ∈ items row, y.str = [] ∨ Taken y.str := by
  unfold Clean
  rw [← items_str]
  simp only [List.mem_map, forall_exists_index, and_imp, forall_apply_eq_imp_iff₂]

/-- The first item that is recognised. -/
theorem first_taken {l : List Text} (some : ∃ y ∈ l, Taken y.str) : ∃ before x after, l = List.reverse before ++ x :: after ∧
    (∀ b ∈ before, ¬ Taken b.str) ∧ Taken x.str := by
  induction l with
  | nil =>
    obtain ⟨y, mem, -⟩ := some
    cases mem
  | cons u l ih =>
    by_cases taken : Taken u.str
    · exact ⟨[], u, l, rfl, List.forall_mem_nil _, taken⟩
    · obtain ⟨before, x, after, rfl, none, found⟩ := ih (by
        obtain ⟨y, mem, here⟩ := some
        rcases List.mem_cons.1 mem with rfl | mem
        · exact absurd here taken
        · exact ⟨y, mem, here⟩)
      refine ⟨before ++ [u], x, after, by simp, ?_, found⟩
      intro b mem
      rcases List.mem_append.1 mem with mem | mem
      · exact none b mem
      · rw [List.mem_singleton.1 mem]
        exact taken

/-- What is left of a list is a gap if nothing but items recognised stands in it. -/
theorem clean_iff {row left : Text} {cuts : List (Text × Match)}
    (path : StringMatch.Cuts (regexec contRegAttr) row cuts left) : Clean row.str ↔ Gap left.str := by
  induction path with
  | @stop row nothing =>
    refine ⟨fun clean => ?_, Gap.clean⟩
    have read := cStr_of_noNul clean.noNul
    refine gap_of_empty fun x mem => ?_
    rw [← items_str] at mem
    obtain ⟨y, inRow, rfl⟩ := List.mem_map.1 mem
    refine (clean_items.1 clean y inRow).resolve_right fun taken => ?_
    obtain ⟨before, x, after, parts, none, first⟩ := first_taken ⟨y, inRow, taken⟩
    obtain ⟨m, found, -⟩ := item_round read parts none first
    rw [nothing] at found
    cases found
  | @cut row mt cuts left found _ ih =>
    rw [← ih]
    by_cases nul : Char.ofNat 0 ∈ row.str
    · -- the NUL stays
      have inside := (contAttr_cutting _ _ found).2
      refine ⟨fun clean => absurd nul clean.noNul, fun clean => absurd ?_ clean.noNul⟩
      obtain ⟨tail, whole⟩ := cStr_prefix row
      have behind : Char.ofNat 0 ∈ tail := by
        rw [whole] at nul
        refine (List.mem_append.1 nul).resolve_left fun mem => ?_
        simpa using List.mem_takeWhile_imp mem
      rw [str_erase, whole, List.drop_append_of_le_length inside]
      simp [behind]
    · have read := cStr_of_noNul nul
      by_cases some : ∃ y ∈ items row, Taken y.str
      · obtain ⟨before, x, after, parts, none, first⟩ := first_taken some
        obtain ⟨m, found', -, closed⟩ := item_round read parts none first
        obtain rfl : mt = m := Option.some.inj (found.symm.trans found')
        rw [clean_items, clean_items, closed, parts]
        exact clean_round none first
      · rw [read, contAttr_search_none] at found
        · cases found
        · refine untaken_str rfl fun b mem taken => some ⟨b, mem, taken⟩

namespace SQLTextContainer
variable {rt : Runtime}

/-! ## The buffers behind the end of a section -/

/-- The texts in the buffers are not noticed in front of later parts. -/
def Forgotten (w a : Text) : Prop := Inert w.str ∧ Gap a.str

/-- All items recognised have one of the forms of an attribute. -/
def AttributesOnly (a : Text) : Prop := ∀ x ∈ recognised a, ∃ full name, AttrForm x.cStr full name

/-- What the end of a section leaves of `[select]`: nothing if the list is loaded, and else
what stands between the items recognised. -/
def SelectForgets (r : Reading) : Prop :=
  if r.complete .selectTag = true then AttributesOnly r.attributeBuf ∨ Clean r.attributeBuf.str else Gap r.attributeBuf.str

/-- What the end of a section leaves is not noticed: the conditions are not loaded, and the
list of attributes stays as it is; or they are loaded; or there are none. -/
inductive EndForgets (r : Reading) : Prop
  | unloaded (bit : r.complete .whereTag = true) (other : ¬ NamesOnly r.whereBuf.cStr) (spent : Spent r.whereBuf.str)
      (gap : Gap r.attributeBuf.str)
  | loaded (bit : r.complete .whereTag = true) (names : NamesOnly r.whereBuf.cStr) (select : SelectForgets r)
  | without (bit : r.complete .whereTag = false) (inert : Inert r.whereBuf.str) (select : SelectForgets r)

variable (rt) in
theorem loadConstraints_cases (w : Text) : ∃ cuts left, StringMatch.Cuts (regexec contRegConstrBase) w cuts left ∧
    ((NamesOnly w.cStr ∧ ∃ cs, SQLQuery.loadConstraints rt.shape w = .ok cs left) ∨
      (¬ NamesOnly w.cStr ∧ ∃ fault, SQLQuery.loadConstraints rt.shape w = .error fault left)) := by
  obtain ⟨cuts, left, path⟩ := StringMatch.cuts_exist constrBase_cutting w
  refine ⟨cuts, left, path, ?_⟩
  have run : StringMatch.matchVector (regexec contRegConstrBase) constrGroups w = .ok _ left :=
    (StringMatch.matchVector_iff constrBase_cutting).2 ⟨cuts, path, rfl⟩
  have opened : SQLQuery.loadConstraints rt.shape = (StringMatch.matchVector (regexec contRegConstrBase) constrGroups >>=
      fun found => Proc.lift (SQLQuery.insertConstraints rt.shape .leaf found)) := rfl
  rw [opened, Proc.bind_ok run, namesOnly_iff path]
  cases inserted : SQLQuery.insertConstraints rt.shape .leaf (cuts.map fun c => StringMatch.extract constrGroups c.2 c.1) with
  | ok cs =>
    obtain ⟨made, all, -⟩ := SQLQuery.insertConstraints_ok inserted
    exact .inl ⟨⟨made, all⟩, cs, rfl⟩
  | error fault =>
    refine .inr ⟨?_, fault, rfl⟩
    rintro ⟨made, all⟩
    obtain ⟨cs, inserted'⟩ : ∃ cs, SQLQuery.insertConstraints rt.shape .leaf _ = .ok cs := SQLQuery.insertConstraints_of all .leaf
    rw [inserted] at inserted'
    cases inserted'

variable (rt) in
theorem loadAttributes_cases (a : Text) : ∃ cuts left, StringMatch.Cuts (regexec contRegAttr) a cuts left ∧
    ((AttributesOnly a ∧ ∃ as, SQLQuery.loadAttributes rt.shape a = .ok as left) ∨
      (¬ AttributesOnly a ∧ ∃ fault, SQLQuery.loadAttributes rt.shape a = .error fault left)) := by
  obtain ⟨left, run⟩ := matchVector_items a
  obtain ⟨cuts, path, -⟩ := (StringMatch.matchVector_iff contAttr_cutting).1 run
  refine ⟨cuts, left, path, ?_⟩
  rw [SQLQuery.loadAttributes, Proc.bind_ok run]
  cases inserted : SQLQuery.insertAttributes rt.shape 0 .leaf ((recognised a).map fun x => [x]) with
  | ok as =>
    refine .inl ⟨fun x mem => ?_, as, rfl⟩
    obtain ⟨attrs, made, -⟩ := insertAttributes_made inserted
    obtain ⟨b, i, makes⟩ := AttributeList.makes_of (by simpa using made) mem
    exact ⟨_, _, (SQLAttribute.make_ok makes).2.2.1⟩
  | error fault =>
    refine .inr ⟨fun only => ?_, fault, rfl⟩
    obtain ⟨attrs, made⟩ := AttributeList.made_of (l := recognised a) (fun x mem i => by
      obtain ⟨full, name, form⟩ := only x mem
      exact SQLAttribute.make_form form i) 0
    rw [AttributeList.insertAttributes_of made] at inserted
    cases inserted

theorem attributeLeft_iff (r : Reading) : Gap (attributeLeft rt r).str ↔ SelectForgets r := by
  unfold attributeLeft SelectForgets
  cases bit : r.complete .selectTag with
  | false => rfl
  | true =>
    obtain ⟨cuts, left, path, ⟨only, as, run⟩ | ⟨other, fault, run⟩⟩ := loadAttributes_cases rt r.attributeBuf
    · rw [run]
      exact ⟨fun _ => .inl only, fun _ => ⟨0, [], rfl, List.forall_mem_nil _⟩⟩
    · rw [run]
      simp only [if_true]
      rw [← clean_iff path, or_iff_right other]

variable (rt) in
/-- What the end of a section leaves, by the texts before it. -/
theorem endLeft_forgotten (r : Reading) : Forgotten (endLeft rt r).1 (endLeft rt r).2 ↔ EndForgets r := by
  unfold Forgotten endLeft
  cases bit : r.complete .whereTag with
  | false =>
    rw [if_neg Bool.false_ne_true, attributeLeft_iff]
    refine ⟨fun h => .without bit h.1 h.2, ?_⟩
    rintro (⟨bit', -⟩ | ⟨bit', -⟩ | ⟨-, inert, select⟩)
    · rw [bit] at bit'
      cases bit'
    · rw [bit] at bit'
      cases bit'
    · exact ⟨inert, select⟩
  | true =>
    obtain ⟨cuts, left, path, ⟨names, cs, run⟩ | ⟨other, fault, run⟩⟩ := loadConstraints_cases rt r.whereBuf
    · rw [run, if_pos rfl]
      dsimp only
      rw [attributeLeft_iff]
      refine ⟨fun h => .loaded bit names h.2, ?_⟩
      rintro (⟨-, other, -⟩ | ⟨-, -, select⟩ | ⟨bit', -⟩)
      · exact absurd names other
      · exact ⟨inert_nil, select⟩
      · rw [bit] at bit'
        cases bit'
    · rw [run, if_pos rfl]
      dsimp only
      rw [← spent_iff path]
      refine ⟨fun h => .unloaded bit other h.1 h.2, ?_⟩
      rintro (⟨-, -, spent, gap⟩ | ⟨-, names, -⟩ | ⟨bit', -⟩)
      · exact ⟨spent, gap⟩
      · exact absurd names other
      · rw [bit] at bit'
        cases bit'

end SQLTextContainer

end SqlHandler
