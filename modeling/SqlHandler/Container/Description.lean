import SqlHandler.Container.Blanks
import SqlHandler.Container.Cutting
import SqlHandler.Container.Select
import SqlHandler.Container.Setup

/-!
# Descriptions of sections

What a section of a dataset says, apart from how it is written: settings, columns with their names,
a `FROM` text, conditions and further pairs. `Description.rows` writes it with one row for each
setting and each pair, and one row for each of the other parts.
-/

namespace SqlHandler
open Posix Text Stl

/-! ## Keys and values in a row -/

namespace SQLTextContainer

/-- Behind spaces the rest starts at the first other letter. -/
theorem behind_spaces {sp sp' a b : Str} (same : sp ++ a = sp' ++ b) (spaces : ∀ c ∈ sp, c = ' ') (spaces' : ∀ c ∈ sp', c = ' ')
    (head : a.head? ≠ some ' ') (head' : b.head? ≠ some ' ') : a = b := by
  obtain ⟨x, rfl, rfl⟩ := spaces_split same spaces' head
  cases x with
  | nil => rfl
  | cons c x =>
    obtain rfl : c = ' ' := spaces c (by simp)
    exact absurd rfl head'

/-- The words a key can be that is not of letters. -/
def operatorKeys : List Str := ["!=".toList, "<=".toList, ">=".toList, "~=".toList, "*".toList]

theorem operator_head {k : Str} (word : k ∈ operatorKeys) : ∃ c w, k = c :: w ∧ (c ≠ '=' ∧ c ≠ ' ') ∧ varChar c = false := by
  simp only [operatorKeys, List.mem_cons, List.not_mem_nil, or_false] at word
  rcases word with rfl | rfl | rfl | rfl | rfl <;> exact ⟨_, _, rfl, by decide, by decide⟩

/-- Two of them that begin texts that are the same. -/
theorem operators_eq {k k' rest rest' : Str} (word : k ∈ operatorKeys) (word' : k' ∈ operatorKeys) (same : k ++ rest = k' ++ rest') :
    k = k' := by
  have first : ∀ w ∈ operatorKeys, ∀ w' ∈ operatorKeys, w.head? = w'.head? → w = w' := by decide
  obtain ⟨c, w, rfl, -⟩ := operator_head word
  obtain ⟨c', w', rfl, -⟩ := operator_head word'
  exact first _ word _ word' (congrArg some (List.cons.inj same).1)

theorem keyLetters {key : Str} (letters : ∀ c ∈ key, varChar c = true) : ∀ c ∈ key, c ≠ '=' ∧ c ≠ ' ' := by
  intro c mem
  constructor <;> rintro rfl <;> exact absurd (letters _ mem) (by decide)

/-- Letters are not read where an operator stands. -/
theorem letters_operator {sp₁ key sp₂ rest sp k rest' : Str} (lead : ∀ c ∈ sp₁, c = ' ') (middle : ∀ c ∈ sp₂, c = ' ')
    (letters : ∀ c ∈ key, varChar c = true) (lead' : ∀ c ∈ sp, c = ' ') (word : k ∈ operatorKeys) :
    sp₁ ++ (key ++ (sp₂ ++ '=' :: rest)) ≠ sp ++ (k ++ rest') := by
  intro same
  obtain ⟨c, w, rfl, plain, other⟩ := operator_head word
  obtain ⟨front, -⟩ := keyFront_eq rest lead middle (keyLetters letters)
  rw [same] at front
  have mem : c ∈ key := front ▸ mem_keyFront (w ++ rest') lead' plain
  exact absurd (letters c mem) (by simp [other])

/-- A row says what its key is, and what stands behind the `=`. -/
theorem keys_eq {sp₁ key sp₂ rest sp k sp' rest' : Str} (lead : ∀ c ∈ sp₁, c = ' ') (middle : ∀ c ∈ sp₂, c = ' ')
    (lead' : ∀ c ∈ sp, c = ' ') (middle' : ∀ c ∈ sp', c = ' ') (keyText : IsKeyText key) (text : IsKeyText k)
    (same : sp₁ ++ (key ++ (sp₂ ++ '=' :: rest)) = sp ++ (k ++ (sp' ++ '=' :: rest'))) : k = key ∧ rest' = rest := by
  rcases keyText with letters | word <;> rcases text with letters' | word'
  · obtain ⟨front, behind⟩ := keyFront_eq rest lead middle (keyLetters letters)
    obtain ⟨front', behind'⟩ := keyFront_eq rest' lead' middle' (keyLetters letters')
    rw [same] at front behind
    exact ⟨front'.symm.trans front, (List.cons.inj (behind'.symm.trans behind)).2⟩
  · exact absurd same (letters_operator lead middle letters lead' word')
  · exact absurd same.symm (letters_operator lead' middle' letters' lead word)
  · obtain ⟨c, w, first, plain, -⟩ := operator_head word
    obtain ⟨c', w', first', plain', -⟩ := operator_head word'
    have texts := behind_spaces same lead lead' (by simp [first, plain.2]) (by simp [first', plain'.2])
    obtain rfl := operators_eq word word' texts
    have behind := behind_spaces (List.append_cancel_left texts) middle middle' (by simp) (by simp)
    exact ⟨rfl, (List.cons.inj behind).2.symm⟩

theorem IsKeyText.letter {key : Str} (text : IsKeyText key) : ∀ c ∈ key, c ≠ Char.ofNat 0 ∧ c ≠ '$' ∧ c ≠ '#' ∧ c ≠ '\n' := by
  rcases text with letters | word
  · intro c mem
    refine ⟨?_, ?_, ?_, ?_⟩ <;> rintro rfl <;> exact absurd (letters _ mem) (by decide)
  · have all : (operatorKeys.all fun key => key.all fun c => c != Char.ofNat 0 && (c != '$' && (c != '#' && c != '\n'))) = true := by
      decide
    intro c mem
    have letter := List.all_eq_true.1 (List.all_eq_true.1 all key word) c mem
    simpa only [Bool.and_eq_true, bne_iff_ne] using letter

theorem IsValText.letter {val : Str} (text : IsValText val) : ∀ c ∈ val, c ≠ Char.ofNat 0 ∧ c ≠ '$' ∧ c ≠ '\n' := by
  rcases text with word | ⟨-, letters⟩
  · have all : (["==".toList, ">=".toList, "<=".toList, "~=".toList, "!=".toList].all fun val => val.all fun c =>
        c != Char.ofNat 0 && (c != '$' && c != '\n')) = true := by decide
    intro c mem
    have letter := List.all_eq_true.1 (List.all_eq_true.1 all val word) c mem
    simpa only [Bool.and_eq_true, bne_iff_ne] using letter
  · intro c mem
    refine ⟨?_, ?_, ?_⟩ <;> rintro rfl <;> exact absurd (letters _ mem) (by decide)

/-! ## Data rows -/

/-- The letter that opens a row behind its spaces is the first one. -/
theorem opens_first {row sp rest : Str} {c x : Char} (split : rowStr row = sp ++ x :: rest) (spaces : ∀ d ∈ sp, d = ' ')
    (head : row.head? = some c) (first : c ≠ ' ') : c = x := by
  obtain ⟨behind, whole⟩ := rowStr_front row
  rw [← whole, split] at head
  cases sp with
  | nil => exact (Option.some.inj head).symm
  | cons d sp =>
    obtain rfl := Option.some.inj head
    exact absurd (spaces d List.mem_cons_self) first

/-- A row without a variable, a comment or a tag is data as it stands. -/
theorem literal_of {row : Str} {c : Char} (head : row.head? = some c) (first : c ≠ ' ' ∧ c ≠ '#')
    (noTag : c = '[' → Char.ofNat 0 ∉ row ∧ '=' ∈ row) (noVar : '$' ∉ row) : isLiteral row = true := by
  have without : '$' ∉ rowStr row := fun mem => noVar ((rowStr_front row).mem mem)
  have kind : rowKind row = .data := by
    unfold rowKind
    rw [if_neg (by rintro rfl; cases head), regexec_without regDefVar_letter without]
    cases comment : regexec regComments (rowStr row) with
    | some m =>
      exfalso
      obtain ⟨p, w, t, split, -, -, parse⟩ := regexec_sound comment
      obtain ⟨_, _, _, _, rfl, -, bol, parse⟩ := parses_seq.1 parse
      obtain ⟨sp, _, _, _, rfl, -, spaces, hash⟩ := parses_seq.1 parse
      obtain ⟨start, rfl, -⟩ := parses_bol.1 bol
      obtain ⟨rfl, -⟩ := parses_lit.1 hash
      obtain rfl := List.eq_nil_of_length_eq_zero start
      have front : rowStr row = sp ++ '#' :: t := split.trans (by simp)
      exact first.2 (opens_first front (parses_spaces.1 spaces).1 head first.1)
    | none =>
      cases tag : regexec regTags (rowStr row) with
      | none => rfl
      | some m =>
        exfalso
        obtain ⟨p, w, t, split, -, -, parse⟩ := regexec_sound tag
        have here : Matches regTags p.length w t := ⟨_, parse⟩
        simp only [regTags, SqlHandler.spaces, matches_seq, matches_group, matches_lit, matches_star_lit, matches_star_set] at here
        obtain ⟨_, _, rfl, ⟨_, bol⟩, sp, _, rfl, spaces, _, _, rfl, ⟨_, _, rfl, rfl, vs, _, rfl, letters, rfl⟩, sp', _, rfl, spaces',
          ⟨_, eol⟩⟩ := here
        obtain ⟨start, rfl, -⟩ := parses_bol.1 bol
        obtain ⟨rfl, rfl, -⟩ := parses_eol.1 eol
        obtain rfl := List.eq_nil_of_length_eq_zero start
        have front : rowStr row = sp ++ '[' :: (vs ++ ']' :: sp') := split.trans (by simp)
        obtain ⟨noNul, equals⟩ := noTag (opens_first front spaces head first.1)
        have whole : rowStr row = row := by
          have read := rowStr_append noNul []
          rwa [List.append_nil, show rowStr [] = [] from rfl, List.append_nil] at read
        rw [← whole, front] at equals
        simp only [List.mem_append, List.mem_cons] at equals
        rcases equals with mem | mem | mem | mem | mem
        · exact absurd (spaces _ mem) (by decide)
        · exact absurd mem (by decide)
        · exact absurd (letters _ mem) (by decide)
        · exact absurd mem (by decide)
        · exact absurd (spaces' _ mem) (by decide)
  unfold isLiteral isData
  rw [kind, regexec_without regVar_letter without]
  rfl

end SQLTextContainer

/-! ## Pairs -/

/-- A key and a value as the rows of a dataset can have them. -/
structure Pair where
  key : Str
  value : Str
  key_ok : SQLTextContainer.IsKeyText key
  value_ok : SQLTextContainer.IsValText value
  trimmed : value.head? ≠ some ' '

namespace Pair
open SQLTextContainer

def row (p : Pair) : Str := p.key ++ '=' :: p.value

theorem letter (p : Pair) : ∀ c ∈ p.row, c ≠ Char.ofNat 0 ∧ c ≠ '$' ∧ c ≠ '\n' := by
  intro c mem
  rcases List.mem_append.1 mem with mem | mem
  · exact ⟨(p.key_ok.letter c mem).1, (p.key_ok.letter c mem).2.1, (p.key_ok.letter c mem).2.2.2⟩
  · rcases List.mem_cons.1 mem with rfl | mem
    · decide
    · exact p.value_ok.letter c mem

/-- The key and the value are read as they are written. -/
theorem found (p : Pair) : ∃ m, regexec regKeyVal (rowStr p.row) = some m ∧ ((m.group 1).getD ⟨0, 0⟩).text p.row = p.key ∧
    ((m.group 2).getD ⟨0, 0⟩).text p.row = p.value := by
  have whole : rowStr p.row = p.row := by
    unfold rowStr
    rw [List.takeWhile_eq_self_iff]
    intro c mem
    simpa using (p.letter c mem).1
  have matched : Matches regKeyVal 0 ([] ++ (p.key ++ ([] ++ '=' :: ([] ++ p.value)))) [] :=
    matches_keyVal (by simp) (by simp) (by simp) p.key_ok p.value_ok
  obtain ⟨g, parse⟩ := matched
  obtain ⟨m, run⟩ : ∃ m, regexec regKeyVal p.row = some m := by
    cases run : regexec regKeyVal p.row with
    | some m => exact ⟨m, rfl⟩
    | none => exact absurd parse (search_none.1 run [] _ [] _ (by simp [row]))
  refine ⟨m, by rw [whole, run], ?_⟩
  have start : m.so = 0 := by
    obtain ⟨p, w, t, -, -, -, exec⟩ := search_exec run
    obtain ⟨_, _, _, _, _, -, start, -⟩ := exec_keyVal exec
    exact start
  obtain ⟨w, t, split, exec, most⟩ := regexec_front run start
  obtain ⟨s₁, k, s₂, s₃, val, rfl, -, lead, middle, trail, keyText, valText, group₁, group₂, greedy⟩ := exec_keyVal exec
  have same : [] ++ (p.key ++ ([] ++ '=' :: p.value)) = s₁ ++ (k ++ (s₂ ++ '=' :: (s₃ ++ (val ++ t)))) := by
    have written : p.row = [] ++ (p.key ++ ([] ++ '=' :: p.value)) := rfl
    rw [← written, split]
    simp
  obtain ⟨key, rest⟩ := keys_eq (by simp) (by simp) lead middle p.key_ok keyText same
  have keySpan : (Span.mk s₁.length (s₁.length + k.length)).text p.row = k :=
    row_text_at (t := s₂ ++ '=' :: (s₃ ++ val) ++ t) (by rw [whole, split]; simp)
  have valSpan : (Span.mk (s₁ ++ (k ++ (s₂ ++ '=' :: s₃))).length ((s₁ ++ (k ++ (s₂ ++ '=' :: s₃))).length + val.length)).text
      p.row = val := row_text_at (t := t) (by rw [whole, split]; simp)
  rw [Match.group, group₁, Match.group, group₂, Option.getD_some, Option.getD_some, keySpan, valSpan]
  have behind : s₃ ++ (val ++ t) = [] ++ p.value := rest
  refine ⟨key, (SQLTextContainer.taken_iff behind (by simp) trail p.trimmed valText greedy ?_ p.trimmed).2 (keptOf_self.2 p.value_ok)⟩
  -- a longer value would have made a longer match
  rintro v vText ⟨more, rest'⟩
  have bound := most ([] ++ (p.key ++ ([] ++ '=' :: ([] ++ v)))) more (by simp [row, ← rest'])
    (matches_keyVal (by simp) (by simp) (by simp) p.key_ok vText)
  have lengths := congrArg List.length same
  have lengths' := congrArg List.length behind
  simp only [List.length_append, List.length_cons, List.length_nil] at bound lengths lengths' ⊢
  omega

theorem literal (p : Pair) : isLiteral p.row = true := by
  have noNul : Char.ofNat 0 ∉ p.row := fun mem => (p.letter _ mem).1 rfl
  have noVar : '$' ∉ p.row := fun mem => (p.letter _ mem).2.1 rfl
  have equals : '=' ∈ p.row := by simp [row]
  cases key : p.key with
  | nil =>
    have head : p.row.head? = some '=' := by simp [row, key]
    exact literal_of head (by decide) (fun _ => ⟨noNul, equals⟩) noVar
  | cons c rest =>
    have head : p.row.head? = some c := by simp [row, key]
    have letter := p.key_ok.letter c (key ▸ List.mem_cons_self)
    have noSpace : c ≠ ' ' := by
      rcases p.key_ok with letters | word
      · exact (keyLetters letters c (key ▸ List.mem_cons_self)).2
      · obtain ⟨d, w, same, plain, -⟩ := operator_head word
        obtain rfl : c = d := (List.cons.inj (key.symm.trans same)).1
        exact plain.2
    exact literal_of head ⟨noSpace, letter.2.2.1⟩ (fun _ => ⟨noNul, equals⟩) noVar

theorem keyed (p : Pair) : keyVal p.row = some (p.key, p.value) := by
  obtain ⟨m, found, key, value⟩ := p.found
  rw [keyVal, found, Option.map_some, key, value]

end Pair

/-! ## Columns -/

/-- A column of `[select]`: a path, and the name it is given if it is given one. -/
structure Column where
  path : AttrPath
  given : Option Str
  given_ok : ∀ name ∈ given, name ≠ [] ∧ ∀ c ∈ name, nameChar c = true

theorem attrChar_plain {c : Char} (letter : attrChar c = true) : c ≠ ',' ∧ c ≠ '#' ∧ c ≠ '$' ∧ c ≠ '\n' ∧ c ≠ Char.ofNat 0 := by
  refine ⟨?_, ?_, ?_, ?_, ?_⟩ <;> rintro rfl <;> exact absurd letter (by decide)

namespace Column

def name (k : Column) : Str := k.given.getD k.path.last

def text (k : Column) : Str := k.path.text ++ (k.given.map (" AS ".toList ++ ·)).getD []

/-- A column under its own name. -/
def bare (path : AttrPath) : Column := ⟨path, none, fun _ same => by cases same⟩

/-- It is an attribute, also behind spaces. -/
theorem form (k : Column) {sp : Str} (lead : ∀ c ∈ sp, c = ' ') : AttrForm (sp ++ k.text) k.path.text k.name := by
  unfold text name
  cases given : k.given with
  | none =>
    have path := AttrForm.path k.path lead (List.forall_mem_nil (· = ' '))
    simpa using path
  | some name =>
    obtain ⟨ne, ok⟩ := k.given_ok name given
    have separator : IsSeparator " AS ".toList := .inr ⟨'A', 'S', rfl, .inl rfl, .inl rfl⟩
    have aliased := AttrForm.aliased k.path lead separator ne ok (List.forall_mem_nil (· = ' '))
    simpa using aliased

theorem letter (k : Column) : ∀ c ∈ k.text, attrChar c = true := by
  have ofName : ∀ {c : Char}, nameChar c = true → attrChar c = true := by
    intro c letter
    simp [attrChar, letter]
  intro c mem
  rcases List.mem_append.1 mem with mem | mem
  · rcases k.path.letter mem with letter | rfl
    · exact ofName letter
    · decide
  · cases given : k.given with
    | none => simp [given] at mem
    | some name =>
      rw [given, Option.map_some, Option.getD_some] at mem
      rcases List.mem_append.1 mem with mem | mem
      · exact List.all_eq_true.1 (show (" AS ".toList.all attrChar) = true by decide) c mem
      · exact ofName ((k.given_ok name given).2 c mem)

theorem name_ne (k : Column) : k.name ≠ ['*'] := (k.form (List.forall_mem_nil _)).name_ne k.letter

theorem entry (k : Column) {sp : Str} (lead : ∀ c ∈ sp, c = ' ') : IsEntry (sp ++ k.text) := ⟨_, _, k.form lead, k.name_ne⟩

/-- A column starts with a letter of its path. -/
theorem head (k : Column) : k.text.head? = k.path.text.head? ∧ ∃ c, k.text.head? = some c ∧ (c ≠ ' ' ∧ c ≠ '#') ∧ c ≠ '*' := by
  obtain ⟨c, rest, path⟩ := List.exists_cons_of_ne_nil k.path.text_ne
  have first : k.text.head? = some c := by simp [text, path]
  refine ⟨by rw [first, path]; rfl, c, first, ?_⟩
  rcases k.path.letter (path ▸ List.mem_cons_self) with letter | rfl
  · refine ⟨⟨?_, ?_⟩, ?_⟩ <;> rintro rfl <;> exact absurd letter (by decide)
  · decide

end Column

/-! ## Sections -/

/-- What a section says. The row of the columns must not look like a tag. -/
structure Description where
  settings : List Pair
  reserved : ∀ p ∈ settings, p.key ∈ SQLTextContainer.reservedKeys
  api : ∃ p ∈ settings, p.key = "api".toList
  server : ∃ p ∈ settings, p.key = "server".toList
  columns : List Column
  columns_ne : columns ≠ []
  names : (columns.map Column.name).Nodup
  noTag : ∀ k ∈ columns.head?, k.path.text.head? ≠ some '['
  fromText : Str
  from_literal : SQLTextContainer.isLiteral fromText = true
  from_row : '\n' ∉ fromText
  conditions : List Clause
  grammar : ∀ k ∈ conditions, IsConstrAttr k.name.text ∧ IsConstrVal k.value
  others : List Pair

namespace Description
open SQLTextContainer

def columnRow (d : Description) : Str := [','].intercalate (d.columns.map Column.text)

def conditionRow (d : Description) : Str := constrJoin.intercalate (d.conditions.map Clause.text)

/-- The rows of a section behind its tag. -/
def rows (d : Description) : List Str := d.settings.map Pair.row ++
  (["[select]".toList, d.columnRow, "[from]".toList, d.fromText, "[where]".toList, d.conditionRow, "[other]".toList] ++
    d.others.map Pair.row)

/-- A dataset with these sections. -/
def text (ds : List Description) : Str := ['\n'].intercalate (ds.flatMap fun d => "[section]".toList :: d.rows)

theorem columnRow_letter (d : Description) : ∀ c ∈ d.columnRow, c = ',' ∨ attrChar c = true := by
  intro c mem
  obtain ⟨k, more, columns⟩ := List.exists_cons_of_ne_nil d.columns_ne
  rw [columnRow, columns, List.map_cons, intercalate_cons] at mem
  rcases List.mem_append.1 mem with mem | mem
  · exact .inr (k.letter c mem)
  · obtain ⟨t, inTexts, mem⟩ := List.mem_flatMap.1 mem
    obtain ⟨k', -, rfl⟩ := List.mem_map.1 inTexts
    exact (List.mem_cons.1 mem).imp id (k'.letter c)

theorem columnRow_literal (d : Description) : isLiteral d.columnRow = true := by
  obtain ⟨k, more, columns⟩ := List.exists_cons_of_ne_nil d.columns_ne
  obtain ⟨path, c, first, plain, -⟩ := k.head
  have head : d.columnRow.head? = some c := by
    rw [columnRow, columns, List.map_cons, intercalate_cons, List.head?_append, first, Option.some_or]
  refine literal_of head plain (fun bracket => ?_) ?_
  · exact absurd (bracket ▸ path.symm.trans first) (d.noTag k (by rw [columns]; rfl))
  · intro mem
    rcases d.columnRow_letter _ mem with comma | letter
    · exact absurd comma (by decide)
    · exact absurd letter (by decide)

theorem clause_letter {k : Clause} (value : IsConstrVal k.value) :
    ∀ c ∈ k.text, c ≠ '$' ∧ c ≠ '\n' ∧ c ≠ Char.ofNat 0 := by
  intro c mem
  simp only [Clause.text, List.mem_append] at mem
  rcases mem with (mem | mem) | mem
  · rcases k.name.letter mem with letter | rfl
    · refine ⟨?_, ?_, ?_⟩ <;> rintro rfl <;> exact absurd letter (by decide)
    · decide
  · have all : (comparators.all fun w => w.all fun c => c != '$' && (c != '\n' && c != Char.ofNat 0)) = true := by decide
    have letter := List.all_eq_true.1 (List.all_eq_true.1 all _ k.comparator_mem) c mem
    simpa only [Bool.and_eq_true, bne_iff_ne] using letter
  · have letter := value.letters c mem
    refine ⟨?_, ?_, ?_⟩ <;> rintro rfl <;> exact absurd letter (by decide)

/-- A condition starts with a letter or `_`. -/
theorem clause_head (k : Clause) : ∃ c, k.text.head? = some c ∧ wordChar c = true := by
  obtain ⟨part, rest, parts⟩ : ∃ part rest, k.name.init ++ [k.name.last] = part :: rest := by
    cases k.name.init with
    | nil => exact ⟨_, _, rfl⟩
    | cons part rest => exact ⟨_, _, rfl⟩
  obtain ⟨c, w, rfl, letter, -⟩ := k.identifiers part (parts ▸ List.mem_cons_self)
  refine ⟨c, ?_, letter.1⟩
  cases init : k.name.init with
  | nil =>
    rw [init, List.nil_append] at parts
    simp [Clause.text, AttrPath.text, AttrPath.qualifiers, init, (List.cons.inj parts).1]
  | cons part' rest' =>
    rw [init, List.cons_append] at parts
    simp [Clause.text, AttrPath.text, AttrPath.qualifiers, init, (List.cons.inj parts).1]

theorem conditionRow_letter (d : Description) : ∀ c ∈ d.conditionRow, c ≠ '$' ∧ c ≠ '\n' ∧ c ≠ Char.ofNat 0 := by
  intro c mem
  unfold conditionRow at mem
  have texts : ∀ t ∈ d.conditions.map Clause.text, ∀ c ∈ t, c ≠ '$' ∧ c ≠ '\n' ∧ c ≠ Char.ofNat 0 := by
    intro t mem
    obtain ⟨k, inList, rfl⟩ := List.mem_map.1 mem
    exact clause_letter (d.grammar k inList).2
  cases all : d.conditions.map Clause.text with
  | nil =>
    rw [all] at mem
    cases mem
  | cons t more =>
    rw [all] at texts mem
    rw [intercalate_cons] at mem
    rcases List.mem_append.1 mem with mem | mem
    · exact texts t List.mem_cons_self c mem
    · obtain ⟨t', inList, mem⟩ := List.mem_flatMap.1 mem
      rcases List.mem_append.1 mem with mem | mem
      · have letters : (constrJoin.all fun c => c != '$' && (c != '\n' && c != Char.ofNat 0)) = true := by decide
        simpa only [Bool.and_eq_true, bne_iff_ne] using List.all_eq_true.1 letters c mem
      · exact texts t' (List.mem_cons_of_mem _ inList) c mem

/-- The row of the conditions is empty, or data as it stands. -/
theorem conditionRow_literal (d : Description) :
    (d.conditions = [] ∧ d.conditionRow = []) ∨ (d.conditions ≠ [] ∧ isLiteral d.conditionRow = true) := by
  cases conditions : d.conditions with
  | nil => exact .inl ⟨rfl, by simp [conditionRow, conditions]⟩
  | cons k more =>
    obtain ⟨c, first, letter⟩ := clause_head k
    have head : d.conditionRow.head? = some c := by
      rw [conditionRow, conditions, List.map_cons, intercalate_cons, List.head?_append, first, Option.some_or]
    refine .inr ⟨List.cons_ne_nil _ _, literal_of head ⟨?_, ?_⟩ (fun bracket => ?_) fun mem => (d.conditionRow_letter _ mem).1 rfl⟩
    · rintro rfl
      exact absurd letter (by decide)
    · rintro rfl
      exact absurd letter (by decide)
    · rw [bracket] at letter
      exact absurd letter (by decide)

end Description

end SqlHandler
