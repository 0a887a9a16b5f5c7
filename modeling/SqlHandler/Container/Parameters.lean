import SqlHandler.Container.Locality
import SqlHandler.Container.Variables

/-!
# Parameters of a section

A row `key = value` stores what the value group of an expression matches that is not anchored
at its end. The rows of a section set its parameters in order, and the last row of a key is
the one that counts (`stored_parameter`); a value is stored whole exactly if the group matches
all of it (`parameter_whole_iff`).
-/

namespace SqlHandler
open Posix Text Stl Template

namespace SQLTextContainer

/-- The keys of the `[section]` part. -/
def reservedKeys : List Str :=
  ["api".toList, "server".toList, "port".toList, "dbname".toList, "user".toList, "pass".toList]

/-- A row `key = value`; the value is all the text behind the spaces that follow the `=`. -/
structure Assigns (row key value : Str) : Prop where
  split : ∃ sp₁ sp₂ sp₃, row = sp₁ ++ (key ++ (sp₂ ++ '=' :: (sp₃ ++ value))) ∧ (∀ c ∈ sp₁, c = ' ') ∧
    (∀ c ∈ sp₂, c = ' ') ∧ ∀ c ∈ sp₃, c = ' '
  trimmed : value.head? ≠ some ' '

/-- What stands in front of the first `=`, its spaces taken away. -/
def keyFront (row : Str) : Str := (row.takeWhile (· ≠ '=')).filter (· ≠ ' ')

theorem reserved_letters {key : Str} (reserved : key ∈ reservedKeys) :
    ∀ c ∈ key, c ≠ '=' ∧ c ≠ ' ' ∧ c ≠ '$' ∧ c ≠ Char.ofNat 0 ∧ varChar c = true := by
  have all : (reservedKeys.all fun key => key.all fun c =>
      c != '=' && (c != ' ' && (c != '$' && (c != Char.ofNat 0 && varChar c)))) = true := by decide
  intro c mem
  have letter := List.all_eq_true.1 (List.all_eq_true.1 all key reserved) c mem
  simpa only [Bool.and_eq_true, bne_iff_ne] using letter

theorem filter_spaces {sp : Str} (spaces : ∀ c ∈ sp, c = ' ') : sp.filter (· ≠ ' ') = [] := by
  rw [List.filter_eq_nil_iff]
  intro c mem
  simp [spaces c mem]

theorem filter_plain {s : Str} (plain : ∀ c ∈ s, c ≠ ' ') : s.filter (· ≠ ' ') = s := by
  rw [List.filter_eq_self]
  intro c mem
  simp [plain c mem]

theorem takeWhile_front (rest : Str) {front : Str} (plain : ∀ c ∈ front, c ≠ '=') :
    (front ++ '=' :: rest).takeWhile (· ≠ '=') = front ∧ (front ++ '=' :: rest).dropWhile (· ≠ '=') = '=' :: rest := by
  have all : ∀ c ∈ front, decide (c ≠ '=') = true := fun c mem => by simpa using plain c mem
  constructor
  · rw [List.takeWhile_append_of_pos all, List.takeWhile_cons_of_neg (by simp), List.append_nil]
  · rw [List.dropWhile_append_of_pos all, List.dropWhile_cons_of_neg (by simp)]

/-- A row with a key of letters before its first `=`. -/
theorem keyFront_eq {sp₁ key sp₂ : Str} (rest : Str) (lead : ∀ c ∈ sp₁, c = ' ') (middle : ∀ c ∈ sp₂, c = ' ')
    (letters : ∀ c ∈ key, c ≠ '=' ∧ c ≠ ' ') :
    keyFront (sp₁ ++ (key ++ (sp₂ ++ '=' :: rest))) = key ∧
      (sp₁ ++ (key ++ (sp₂ ++ '=' :: rest))).dropWhile (· ≠ '=') = '=' :: rest := by
  have plain : ∀ c ∈ sp₁ ++ (key ++ sp₂), c ≠ '=' := by
    intro c mem
    simp only [List.mem_append] at mem
    rcases mem with mem | mem | mem
    · rw [lead c mem]
      decide
    · exact (letters c mem).1
    · rw [middle c mem]
      decide
  have split : sp₁ ++ (key ++ (sp₂ ++ '=' :: rest)) = sp₁ ++ (key ++ sp₂) ++ '=' :: rest := by simp
  obtain ⟨front, behind⟩ := takeWhile_front rest plain
  unfold keyFront
  rw [split, front, behind, List.filter_append, List.filter_append, filter_spaces lead, filter_spaces middle,
    filter_plain fun c mem => (letters c mem).2]
  simp

theorem mem_keyFront {sp : Str} {c : Char} (t : Str) (spaces : ∀ d ∈ sp, d = ' ') (plain : c ≠ '=' ∧ c ≠ ' ') :
    c ∈ keyFront (sp ++ c :: t) := by
  have pass : ∀ d ∈ sp, decide (d ≠ '=') = true := fun d mem => by simp [spaces d mem]
  unfold keyFront
  rw [List.takeWhile_append_of_pos pass, List.filter_append, List.takeWhile_cons_of_pos (by simpa using plain.1),
    List.filter_cons_of_pos (by simpa using plain.2)]
  simp

/-- The key of a match is the reserved key of the row. -/
theorem assigned_split {sp₁ key sp₂ rest sp k sp' rest' : Str} (reserved : key ∈ reservedKeys) (lead : ∀ c ∈ sp₁, c = ' ')
    (middle : ∀ c ∈ sp₂, c = ' ') (lead' : ∀ c ∈ sp, c = ' ') (middle' : ∀ c ∈ sp', c = ' ') (text : IsKeyText k)
    (same : sp₁ ++ (key ++ (sp₂ ++ '=' :: rest)) = sp ++ (k ++ (sp' ++ '=' :: rest'))) : k = key ∧ rest' = rest := by
  have letters := reserved_letters reserved
  obtain ⟨front, behind⟩ := keyFront_eq rest lead middle fun c mem => ⟨(letters c mem).1, (letters c mem).2.1⟩
  rcases text with varText | word
  · have plain : ∀ c ∈ k, c ≠ '=' ∧ c ≠ ' ' := by
      intro c mem
      refine ⟨?_, ?_⟩ <;> rintro rfl <;> exact absurd (varText _ mem) (by decide)
    obtain ⟨front', behind'⟩ := keyFront_eq rest' lead' middle' plain
    rw [same] at front behind
    exact ⟨front'.symm.trans front, (List.cons.inj (behind'.symm.trans behind)).2⟩
  · exfalso
    -- the first letter of an operator is none of a reserved key
    rw [same] at front
    have first : ∃ c ∈ key, c = '!' ∨ c = '<' ∨ c = '>' ∨ c = '~' ∨ c = '*' := by
      obtain ⟨c, w, rfl, plain, op⟩ : ∃ c w, k = c :: w ∧ (c ≠ '=' ∧ c ≠ ' ') ∧
          (c = '!' ∨ c = '<' ∨ c = '>' ∨ c = '~' ∨ c = '*') := by
        simp only [List.mem_cons, List.not_mem_nil, or_false] at word
        rcases word with rfl | rfl | rfl | rfl | rfl <;> exact ⟨_, _, rfl, by decide, by decide⟩
      exact ⟨c, front ▸ mem_keyFront _ lead' plain, op⟩
    obtain ⟨c, mem, op⟩ := first
    have letter := (letters c mem).2.2.2.2
    rcases op with rfl | rfl | rfl | rfl | rfl <;> exact absurd letter (by decide)

/-! ## What the value group takes -/

theorem matches_keyVal {sp₁ key sp₂ sp₃ val t : Str} (lead : ∀ c ∈ sp₁, c = ' ') (middle : ∀ c ∈ sp₂, c = ' ')
    (trail : ∀ c ∈ sp₃, c = ' ') (keyText : IsKeyText key) (valText : IsValText val) :
    Matches regKeyVal 0 (sp₁ ++ (key ++ (sp₂ ++ '=' :: (sp₃ ++ val)))) t := by
  unfold regKeyVal spaces
  simp only [matches_seq, matches_star_lit, matches_lit, matches_group, matches_alt, matches_star_set, matches_words,
    matches_plus_set]
  exact ⟨[], _, rfl, ⟨[], parses_bol.2 ⟨rfl, rfl, rfl⟩⟩, sp₁, _, rfl, lead, key, _, rfl, keyText, sp₂, _, rfl, middle,
    ['='], _, rfl, rfl, sp₃, val, rfl, trail, valText⟩

/-- No word at the front of the subject that matches is longer than the match found there. -/
theorem regexec_front {e : Regex} {s : Str} {m : Match} (found : regexec e s = some m) (start : m.so = 0) :
    ∃ w t, s = w ++ t ∧ exec e 0 w t = some m.groups ∧ ∀ w' t', s = w' ++ t' → Matches e 0 w' t' → w'.length ≤ w.length := by
  have front : longest e 0 s = some m := by
    obtain ⟨p, w, t, split, so, -, parse⟩ := search_sound found
    obtain rfl : p = [] := List.eq_nil_of_length_eq_zero (by omega)
    rw [start] at parse
    cases at' : longest e 0 s with
    | none => exact absurd parse (longest_none.1 at' w t _ split)
    | some m' =>
      cases s with
      | nil => exact at'.symm.trans found
      | cons c s =>
        change (longest e 0 (c :: s)).orElse _ = some m at found
        rw [at'] at found
        exact found
  obtain ⟨w, t, split, run, no_longer⟩ := splits_first front
  obtain ⟨g, word, rfl⟩ := Option.map_eq_some_iff.1 run
  refine ⟨w, t, split, word, ?_⟩
  rintro w' t' split' ⟨g', parse⟩
  by_contra lt
  obtain ⟨g₁, again⟩ := exec_complete parse
  have := no_longer w' t' split' (by omega) (by rw [split', List.length_append]; omega)
  rw [again] at this
  cases this

theorem IsValText.no_nul {val : Str} (text : IsValText val) : Char.ofNat 0 ∉ val := by
  intro mem
  rcases text with word | ⟨-, letters⟩
  · revert mem
    revert val
    decide
  · exact absurd (letters _ mem) (by decide)

/-- The value is the longest beginning of the text that the value group can match. -/
structure KeptOf (text value : Str) : Prop where
  matched : IsValText value
  front : value <+: text
  longest : ∀ v, IsValText v → v <+: text → v.length ≤ value.length

theorem keptOf_self {value : Str} : KeptOf value value ↔ IsValText value :=
  ⟨KeptOf.matched, fun text => ⟨text, List.prefix_rfl, fun _ _ front => front.length_le⟩⟩

/-- The spaces in front of a text are those of any split. -/
theorem spaces_split {sp sp' a b : Str} (same : sp ++ a = sp' ++ b) (spaces' : ∀ c ∈ sp', c = ' ')
    (head : a.head? ≠ some ' ') : ∃ x, sp = sp' ++ x ∧ b = x ++ a := by
  rcases List.append_eq_append_iff.1 same with ⟨x, rfl, rfl⟩ | ⟨x, rfl, rfl⟩
  · cases x with
    | nil => exact ⟨[], by simp⟩
    | cons c x =>
      obtain rfl : c = ' ' := spaces' c (by simp)
      exact absurd rfl head
  · exact ⟨x, rfl, rfl⟩

theorem IsValText.of_space {x v : Str} (text : IsValText (' ' :: x ++ v)) (ne : v ≠ []) : IsValText v := by
  rcases text with word | ⟨-, letters⟩
  · have first : ∀ w ∈ ["==".toList, ">=".toList, "<=".toList, "~=".toList, "!=".toList], w.head? ≠ some ' ' := by decide
    exact absurd rfl (first _ word)
  · exact .inr ⟨ne, fun c mem => letters c (List.mem_append_right _ mem)⟩

/-- A match takes the longest text, and leaves no space to it that could stand before it. -/
theorem taken_iff {sp text sp' val t value : Str} (same : sp' ++ (val ++ t) = sp ++ text) (spaces : ∀ c ∈ sp, c = ' ')
    (spaces' : ∀ c ∈ sp', c = ' ') (trimmed : text.head? ≠ some ' ') (valText : IsValText val)
    (greedy : ∀ s v, sp' ++ val = s ++ v → (∀ c ∈ s, c = ' ') → IsValText v → s.length ≤ sp'.length)
    (longest : ∀ v, IsValText v → v <+: text → (sp ++ v).length ≤ (sp' ++ val).length) (head : value.head? ≠ some ' ') :
    val = value ↔ KeptOf text value := by
  simp only [List.length_append] at longest
  constructor
  · rintro rfl
    obtain ⟨c, w, rfl⟩ := List.exists_cons_of_ne_nil valText.ne_nil
    obtain ⟨x, rfl, rfl⟩ := spaces_split same spaces head
    obtain rfl : x = [] := by
      cases x with
      | nil => rfl
      | cons d x =>
        obtain rfl : d = ' ' := spaces' d (by simp)
        exact absurd rfl trimmed
    refine ⟨valText, ⟨t, rfl⟩, fun v text front => ?_⟩
    have := longest v text front
    simp only [List.length_append, List.length_nil] at this
    omega
  · rintro ⟨text', ⟨rest, rfl⟩, most⟩
    obtain ⟨d, w, rfl⟩ := List.exists_cons_of_ne_nil text'.ne_nil
    obtain ⟨x, rfl, split⟩ := spaces_split same.symm spaces' head
    have length := longest _ text' (List.prefix_append _ _)
    simp only [List.length_append] at length
    obtain ⟨y, rfl⟩ : x ++ d :: w <+: val :=
      List.prefix_of_prefix_length_le ⟨rest, by rw [split]; simp⟩ (List.prefix_append val t)
        (by simp only [List.length_append]; omega)
    cases x with
    | nil =>
      have := most _ valText ⟨t, split⟩
      obtain rfl : y = [] := List.eq_nil_of_length_eq_zero (by
        simp only [List.length_append, List.nil_append] at this
        omega)
      simp
    | cons c x =>
      -- a space in front of the value would stand before it
      obtain rfl : c = ' ' := spaces c (by simp)
      rw [List.append_assoc] at valText
      have := greedy (sp' ++ ' ' :: x) (d :: w ++ y) (by simp) spaces (valText.of_space (by simp))
      simp only [List.length_append, List.length_cons] at this
      omega

/-- The parameter a matched row sets, for the text the row gives it. -/
theorem keyVal_kept {row key text : Str} {m : Match} (assigns : Assigns row key text) (reserved : key ∈ reservedKeys)
    (found : regexec regKeyVal (rowStr row) = some m) : ((m.group 1).getD ⟨0, 0⟩).text row = key ∧
      ∀ value : Str, value.head? ≠ some ' ' → (((m.group 2).getD ⟨0, 0⟩).text row = value ↔ KeptOf text value) := by
  obtain ⟨⟨sp₁, sp₂, sp₃, rfl, lead, middle, trail⟩, trimmed⟩ := assigns
  have letters := reserved_letters reserved
  obtain ⟨behind, whole⟩ := rowStr_front (sp₁ ++ (key ++ (sp₂ ++ '=' :: (sp₃ ++ text))))
  have start : m.so = 0 := by
    obtain ⟨p, w, t, -, -, -, run⟩ := search_exec found
    obtain ⟨_, _, _, _, _, -, start, -⟩ := exec_keyVal run
    exact start
  obtain ⟨w, t, split, run, most⟩ := regexec_front found start
  obtain ⟨s₁, k, s₂, s₃, val, rfl, -, lead', middle', trail', keyText, valText, group₁, group₂, greedy⟩ := exec_keyVal run
  have same : sp₁ ++ (key ++ (sp₂ ++ '=' :: (sp₃ ++ text))) = s₁ ++ (k ++ (s₂ ++ '=' :: (s₃ ++ (val ++ (t ++ behind))))) := by
    rw [← whole, split]
    simp
  obtain ⟨rfl, rest⟩ := assigned_split reserved lead middle lead' middle' keyText same
  have keySpan : (Span.mk s₁.length (s₁.length + k.length)).text (sp₁ ++ (k ++ (sp₂ ++ '=' :: (sp₃ ++ text)))) = k :=
    row_text_at (t := s₂ ++ '=' :: (s₃ ++ val) ++ t) (by rw [split]; simp)
  have valSpan : (Span.mk (s₁ ++ (k ++ (s₂ ++ '=' :: s₃))).length ((s₁ ++ (k ++ (s₂ ++ '=' :: s₃))).length + val.length)).text
      (sp₁ ++ (k ++ (sp₂ ++ '=' :: (sp₃ ++ text)))) = val := row_text_at (t := t) (by rw [split]; simp)
  rw [Match.group, group₁, Match.group, group₂, Option.getD_some, Option.getD_some, keySpan, valSpan]
  refine ⟨rfl, fun value head => taken_iff rest trail trail' trimmed valText greedy ?_ head⟩
  -- a longer text would have made a longer match
  rintro v vText ⟨more, rfl⟩
  have noNul : Char.ofNat 0 ∉ sp₁ ++ (k ++ (sp₂ ++ '=' :: (sp₃ ++ v))) := by
    simp only [List.mem_append, List.mem_cons, not_or]
    exact ⟨fun mem => absurd (lead _ mem) (by decide), fun mem => (letters _ mem).2.2.2.1 rfl,
      fun mem => absurd (middle _ mem) (by decide), by decide, fun mem => absurd (trail _ mem) (by decide), vText.no_nul⟩
  have read : rowStr (sp₁ ++ (k ++ (sp₂ ++ '=' :: (sp₃ ++ (v ++ more))))) =
      sp₁ ++ (k ++ (sp₂ ++ '=' :: (sp₃ ++ v))) ++ rowStr more := by
    rw [← rowStr_append noNul]
    simp
  have bound := most _ _ read (matches_keyVal lead middle trail keyText vText)
  have lengths := congrArg List.length same
  have lengthBehind := congrArg List.length rest
  simp only [List.length_append, List.length_cons] at bound lengths lengthBehind ⊢
  omega

/-! ## The branch of a row with a reserved key -/

/-- The first letter of the row is one of the key. -/
theorem Assigns.letter {row key value : Str} (assigns : Assigns row key value) (reserved : key ∈ reservedKeys) {sp t : Str}
    {c : Char} (split : rowStr row = sp ++ c :: t) (spaces : ∀ d ∈ sp, d = ' ') (plain : c ≠ '=' ∧ c ≠ ' ') :
    c ∈ key := by
  obtain ⟨⟨sp₁, sp₂, sp₃, rfl, lead, middle, -⟩, -⟩ := assigns
  have letters := reserved_letters reserved
  obtain ⟨behind, whole⟩ := rowStr_front (sp₁ ++ (key ++ (sp₂ ++ '=' :: (sp₃ ++ value))))
  obtain ⟨front, -⟩ := keyFront_eq (sp₃ ++ value) lead middle fun c mem => ⟨(letters c mem).1, (letters c mem).2.1⟩
  rw [← whole, split, List.append_assoc, List.cons_append] at front
  exact front ▸ mem_keyFront _ spaces plain

/-- It is no comment and no tag. -/
theorem Assigns.not_front {row key value : Str} (assigns : Assigns row key value) (reserved : key ∈ reservedKeys) {sp t : Str}
    {c : Char} (split : rowStr row = sp ++ c :: t) (spaces : ∀ d ∈ sp, d = ' ') (mark : c = '#' ∨ c = '[') : False := by
  have plain : ∀ key ∈ reservedKeys, '#' ∉ key ∧ '[' ∉ key := by decide
  rcases mark with rfl | rfl
  · exact (plain key reserved).1 (assigns.letter reserved split spaces (by decide))
  · exact (plain key reserved).2 (assigns.letter reserved split spaces (by decide))

theorem defVar_dollar {row : Str} {m : Match} (found : regexec regDefVar (rowStr row) = some m) : '$' ∈ row := by
  obtain ⟨p, w, t, e, -, -, parse⟩ := regexec_sound found
  have here : Matches regDefVar p.length w t := ⟨_, parse⟩
  unfold regDefVar spaces at here
  simp only [matches_seq, matches_group, matches_lit] at here
  obtain ⟨_, _, rfl, -, _, _, rfl, -, _, _, rfl, -, _, _, rfl, ⟨_, _, rfl, rfl, -⟩, -⟩ := here
  apply (rowStr_front row).mem
  rw [e]
  simp

theorem IsValText.no_dollar {val : Str} (text : IsValText val) : '$' ∉ val := by
  intro mem
  rcases text with word | ⟨-, letters⟩
  · revert mem
    revert val
    decide
  · exact absurd (letters _ mem) (by decide)

/-- A row with a reserved key is data, or its value has a definition in it. -/
theorem assigns_kind {row key value : Str} (assigns : Assigns row key value) (reserved : key ∈ reservedKeys) :
    rowKind row = .data ∨ ((∃ m, rowKind row = .definition m) ∧ '$' ∈ value) := by
  unfold rowKind
  rw [if_neg (by
    obtain ⟨⟨sp₁, sp₂, sp₃, rfl, -⟩, -⟩ := assigns
    simp)]
  cases comment : regexec regComments (rowStr row) with
  | some m =>
    exfalso
    obtain ⟨p, w, t, e, -, -, parse⟩ := regexec_sound comment
    obtain ⟨_, _, _, _, rfl, -, bol, h⟩ := parses_seq.1 parse
    obtain ⟨sp, _, _, _, rfl, -, spaces, hash⟩ := parses_seq.1 h
    obtain ⟨start, rfl, -⟩ := parses_bol.1 bol
    obtain ⟨lead, -⟩ := parses_spaces.1 spaces
    obtain ⟨rfl, -⟩ := parses_lit.1 hash
    obtain rfl := List.eq_nil_of_length_eq_zero start
    exact assigns.not_front reserved (t := t) (by rw [e]; simp) lead (.inl rfl)
  | none =>
    cases found : regexec regDefVar (rowStr row) with
    | some m =>
      refine .inr ⟨⟨m, rfl⟩, ?_⟩
      have dollar := defVar_dollar found
      obtain ⟨⟨sp₁, sp₂, sp₃, rfl, lead, middle, trail⟩, -⟩ := assigns
      simp only [List.mem_append, List.mem_cons] at dollar
      rcases dollar with mem | mem | mem | mem | mem | mem
      · exact absurd (lead _ mem) (by decide)
      · exact absurd rfl (reserved_letters reserved _ mem).2.2.1
      · exact absurd (middle _ mem) (by decide)
      · exact absurd mem (by decide)
      · exact absurd (trail _ mem) (by decide)
      · exact mem
    | none =>
      cases tag : regexec regTags (rowStr row) with
      | none => exact .inl rfl
      | some m =>
        exfalso
        obtain ⟨p, w, t, e, -, -, parse⟩ := regexec_sound tag
        obtain ⟨_, _, _, _, rfl, -, bol, h⟩ := parses_seq.1 parse
        obtain ⟨sp, _, _, _, rfl, -, spaces, h⟩ := parses_seq.1 h
        obtain ⟨_, _, _, _, rfl, -, group, -⟩ := parses_seq.1 h
        obtain ⟨_, -, h⟩ := parses_group.1 group
        obtain ⟨_, rest, _, _, rfl, -, bracket, -⟩ := parses_seq.1 h
        obtain ⟨start, rfl, -⟩ := parses_bol.1 bol
        obtain ⟨lead, -⟩ := parses_spaces.1 spaces
        obtain ⟨rfl, -⟩ := parses_lit.1 bracket
        obtain rfl := List.eq_nil_of_length_eq_zero start
        exact assigns.not_front reserved (by rw [e]; simp; rfl) lead (.inr rfl)

/-! ## What a row sets -/

/-- The field of a key that was set. -/
theorem setParameter_field {key val : Str} {r r' : Reading} (set : setParameter key val r = some r') :
    (key = "api".toList ∧ r'.newSection = { r.newSection with api := val }) ∨
      (key = "server".toList ∧ r'.newSection = { r.newSection with server := val }) ∨
      (key = "port".toList ∧ r'.newSection = { r.newSection with port := val }) ∨
      (key = "dbname".toList ∧ r'.newSection = { r.newSection with dbname := val }) ∨
      (key = "user".toList ∧ r'.newSection = { r.newSection with user := val }) ∨
      (key = "pass".toList ∧ r'.newSection = { r.newSection with pass := val }) := by
  unfold setParameter at set
  split at set
  · rename_i api
    cases set
    exact .inl ⟨api, by split <;> rfl⟩
  · split at set
    · rename_i server
      cases set
      exact .inr (.inl ⟨server, by split <;> rfl⟩)
    · split at set
      · rename_i port
        cases set
        exact .inr (.inr (.inl ⟨port, rfl⟩))
      · split at set
        · rename_i dbname
          cases set
          exact .inr (.inr (.inr (.inl ⟨dbname, rfl⟩)))
        · split at set
          · rename_i user
            cases set
            exact .inr (.inr (.inr (.inr (.inl ⟨user, rfl⟩))))
          · split at set
            · rename_i pass
              cases set
              exact .inr (.inr (.inr (.inr (.inr ⟨pass, rfl⟩))))
            · cases set

theorem setParameter_reserved {key val : Str} {r r' : Reading} (set : setParameter key val r = some r') :
    key ∈ reservedKeys := by
  rcases setParameter_field set with ⟨rfl, -⟩ | ⟨rfl, -⟩ | ⟨rfl, -⟩ | ⟨rfl, -⟩ | ⟨rfl, -⟩ | ⟨rfl, -⟩ <;> decide

/-- A row of the `[section]` part sets one parameter. -/
theorem setParameter_parameter {key val : Str} {r r' : Reading} (set : setParameter key val r = some r') (k : Str) :
    r'.newSection.parameter k = if key = k then val else r.newSection.parameter k := by
  have field := setParameter_field set
  by_cases same : key = k
  · subst same
    rw [if_pos rfl]
    rcases field with ⟨rfl, kept⟩ | ⟨rfl, kept⟩ | ⟨rfl, kept⟩ | ⟨rfl, kept⟩ | ⟨rfl, kept⟩ | ⟨rfl, kept⟩ <;> rw [kept] <;> rfl
  · rw [if_neg same]
    have other : ∀ name : Str, key = name → ¬ k = name := fun name is k_is => same (is.trans k_is.symm)
    unfold DatasetSection.parameter
    rcases field with ⟨is, kept⟩ | ⟨is, kept⟩ | ⟨is, kept⟩ | ⟨is, kept⟩ | ⟨is, kept⟩ | ⟨is, kept⟩ <;>
      simp only [kept, if_neg (other _ is)]

/-- The text behind the first `=` and its spaces. -/
def assignedText (row : Str) : Str := (row.dropWhile (· ≠ '=')).tail.dropWhile (· = ' ')

/-- A row that sets a parameter gives it a text. -/
theorem assigns_of_found {row : Str} {m : Match} (found : regexec regKeyVal (rowStr row) = some m)
    (reserved : ((m.group 1).getD ⟨0, 0⟩).text row ∈ reservedKeys) :
    keyFront row = ((m.group 1).getD ⟨0, 0⟩).text row ∧ Assigns row (keyFront row) (assignedText row) := by
  obtain ⟨sp₁, key, sp₂, sp₃, val, t, ks, vs, split, lead, middle, -, -, -, group₁, keyIs, -, -⟩ := keyVal_parts found
  obtain ⟨behind, whole⟩ := rowStr_front row
  rw [group₁, Option.getD_some, keyIs] at reserved ⊢
  have letters := reserved_letters reserved
  have row_eq : row = sp₁ ++ (key ++ (sp₂ ++ '=' :: (sp₃ ++ val ++ t ++ behind))) := by
    rw [← whole, split]
    simp
  obtain ⟨front, after⟩ := keyFront_eq (sp₃ ++ val ++ t ++ behind) lead middle fun c mem => ⟨(letters c mem).1, (letters c mem).2.1⟩
  rw [← row_eq] at front after
  refine ⟨front, ⟨sp₁, sp₂, (sp₃ ++ val ++ t ++ behind).takeWhile (· = ' '), ?_, lead, middle, ?_⟩, ?_⟩
  · rw [front, assignedText, after, List.tail_cons, List.takeWhile_append_dropWhile]
    exact row_eq
  · intro c mem
    simpa using List.mem_takeWhile_imp mem
  · intro space
    have := List.head?_dropWhile_not (fun c : Char => decide (c = ' ')) (row.dropWhile (· ≠ '=')).tail
    unfold assignedText at space
    rw [space] at this
    cases this

/-! ## The parameters a section ends with -/

section Settings
variable (rt : Runtime)

/-- The key and the text of a row of data, its variables substituted. -/
def rowSetting (vars : Vars) (row : Str) : Option (Str × Str) :=
  match rowKind row, substituteRow vars row with
  | .data, .ok row' => some (keyFront row', assignedText row')
  | _, _ => none

/-- A row behind which another part is read, or another section. -/
def endsPart (row : Str) : Bool :=
  match rowKind row with
  | .tag text => text == "[section]".toList || (partOf text).isSome
  | _ => false

/-- The keys and texts of the rows of the `[section]` part, up to its end. -/
def settings : Vars → List Str → List (Str × Str)
  | _, [] => []
  | vars, row :: rows =>
    if endsPart row then []
    else match rowVars rt row vars with
      | .ok vars' => (rowSetting vars row).toList ++ settings vars' rows
      | .error _ => []

/-- The text a key is given last. -/
def lastSetting (key : Str) (l : List (Str × Str)) : Option Str :=
  (l.reverse.find? fun p => p.1 = key).map Prod.snd

theorem lastSetting_cons (key k v : Str) (l : List (Str × Str)) : lastSetting key ((k, v) :: l) =
    (lastSetting key l).or (if k = key then some v else none) := by
  unfold lastSetting
  rw [List.reverse_cons, List.find?_append]
  cases l.reverse.find? fun p => p.1 = key with
  | some p => rfl
  | none =>
    by_cases same : k = key <;> simp [List.find?, same]

/-- The parameter is the value when the section under construction is stored, behind the rows. -/
def Becomes (key value : Str) (rows : List Str) (r : Reading) : Prop :=
  match if r.readingPart = .sectionTag then lastSetting key (settings rt r.vars rows) else none with
  | some text => KeptOf text value
  | none => r.newSection.parameter key = value

theorem becomes_of_none {key value : Str} {rows : List Str} {r : Reading}
    (none' : r.readingPart = .sectionTag → lastSetting key (settings rt r.vars rows) = none) :
    Becomes rt key value rows r ↔ r.newSection.parameter key = value := by
  unfold Becomes
  by_cases at' : r.readingPart = .sectionTag
  · rw [if_pos at', none' at']
  · rw [if_neg at']

end Settings

theorem partOf_part {text : Str} {part : DatasetPart} (h : partOf text = some part) : part ≠ .sectionTag := by
  unfold partOf at h
  repeat' split at h
  all_goals cases h
  all_goals decide

theorem lastSetting_nil (key : Str) : lastSetting key [] = none := rfl

/-- A row goes on with the section under construction, or stores it. -/
theorem RowEffect.parameter_step {row : Str} {r r' : Reading} (effect : RowEffect rt row r r') (started : r.start = false)
    (key : Str) {value : Str} (head : value.head? ≠ some ' ') : r'.start = false ∧
      ((r'.dataset = r.dataset ∧ ∀ rows, Becomes rt key value rows r' ↔ Becomes rt key value (row :: rows) r) ∨
        ∃ s, r'.dataset = r.dataset ++ [s] ∧ ∀ rows, s.parameter key = value ↔ Becomes rt key value (row :: rows) r) := by
  cases effect with
  | idle kind =>
    refine ⟨started, .inl ⟨rfl, fun rows => ?_⟩⟩
    have goes : settings rt r.vars (row :: rows) = settings rt r.vars rows := by
      simp [settings, endsPart, rowVars, rowSetting, kind]
    unfold Becomes
    rw [goes]
  | @definition m vars kind made =>
    refine ⟨started, .inl ⟨rfl, fun rows => ?_⟩⟩
    have goes : settings rt r.vars (row :: rows) = settings rt vars rows := by
      simp [settings, endsPart, rowVars, rowSetting, kind, made]
    unfold Becomes
    rw [goes]
  | @part text kind other =>
    refine ⟨by cases partOf text <;> exact started, .inl ⟨by cases partOf text <;> rfl, fun rows => ?_⟩⟩
    cases opened : partOf text with
    | none =>
      have more : endsPart row = false := by
        unfold endsPart
        simp only [kind, opened, Option.isSome_none, Bool.or_false, beq_eq_false_iff_ne]
        exact other
      have goes : settings rt r.vars (row :: rows) = settings rt r.vars rows := by
        simp [settings, more, rowVars, rowSetting, kind]
      unfold Becomes
      rw [goes]
      rfl
    | some part =>
      have goes : settings rt r.vars (row :: rows) = [] := by
        simp [settings, endsPart, kind, opened]
      rw [becomes_of_none rt fun at' => absurd at' (partOf_part opened),
        becomes_of_none rt fun _ => by rw [goes, lastSetting_nil]]
      rfl
  | first kind start => exact absurd (started.symm.trans start) (by decide)
  | @next r₁ kind start stored =>
    obtain ⟨-, kept, dataset, parameter⟩ := addNewSection_keeps stored
    refine ⟨kept.trans start, .inr ⟨r₁.newSection, dataset, fun rows => ?_⟩⟩
    have goes : settings rt r.vars (row :: rows) = [] := by
      simp [settings, endsPart, kind]
    rw [becomes_of_none rt fun _ => by rw [goes, lastSetting_nil], parameter key]
  | @parameter row' m r' kind made at' found set =>
    obtain ⟨vars, dataset, start, part⟩ := setParameter_leaves set
    refine ⟨start.trans started, .inl ⟨dataset, fun rows => ?_⟩⟩
    obtain ⟨keyIs, assigns⟩ := assigns_of_found found (setParameter_reserved set)
    have goes : settings rt r.vars (row :: rows) = (keyFront row', assignedText row') :: settings rt r.vars rows := by
      simp [settings, endsPart, rowVars, rowSetting, kind, made]
    obtain ⟨-, kept⟩ := keyVal_kept assigns (keyIs ▸ setParameter_reserved set) found
    unfold Becomes
    rw [goes, if_pos at', if_pos (part.trans at'), vars, lastSetting_cons, setParameter_parameter set, keyIs]
    cases lastSetting key (settings rt r.vars rows) with
    | some later => rfl
    | none =>
      by_cases same : ((m.group 1).getD ⟨0, 0⟩).text row' = key
      · rw [if_pos same, if_pos same]
        exact kept value head
      · rw [if_neg same, if_neg same]
        rfl
  | @added row' kind made at' =>
    have leaves : Leaves r (rowAction rt r.readingPart row' r) ∧ _ := rowAction_leaves r.readingPart row' r
    obtain ⟨⟨vars, dataset, start, part⟩, parameter⟩ := leaves
    refine ⟨start.trans started, .inl ⟨dataset, fun rows => ?_⟩⟩
    rw [becomes_of_none rt fun here => absurd (part.symm.trans here) at', becomes_of_none rt fun here => absurd here at',
      parameter key]

/-- Behind the rows, the section that was under construction has the parameter they end with. -/
theorem readRows_parameter {rows : List Str} {r r' : Reading} (run : readRows rt rows r = .ok () r') (started : r.start = false)
    (key : Str) {value : Str} (head : value.head? ≠ some ' ') : r'.start = false ∧
      ∃ s later, r'.dataset ++ [r'.newSection] = r.dataset ++ s :: later ∧
        (s.parameter key = value ↔ Becomes rt key value rows r) := by
  induction rows generalizing r with
  | nil =>
    cases run
    exact ⟨started, r'.newSection, [], rfl, (becomes_of_none rt fun _ => rfl).symm⟩
  | cons row rows ih =>
    obtain ⟨⟨⟩, r₁, first, rest⟩ := Proc.of_bind_ok run
    obtain ⟨started₁, step⟩ := (readRow_effect first).parameter_step started key head
    obtain ⟨last, s, later, dataset, parameter⟩ := ih rest started₁
    refine ⟨last, ?_⟩
    rcases step with ⟨same, after⟩ | ⟨s', grown, after⟩
    · exact ⟨s, later, by rw [dataset, same], parameter.trans (after rows)⟩
    · exact ⟨s', s :: later, by rw [dataset, grown]; simp, after rows⟩

/-- The section that was under construction when the rows began is stored with what they set. -/
theorem stored_parameter {rows : List Str} {r : Reading} {r' : Reading} {b : Bool} (run : scan rt rows r = .ok b r')
    (started : r.start = false) (key : Str) {value : Str} (head : value.head? ≠ some ' ') :
    ∃ s later, r'.dataset = r.dataset ++ s :: later ∧ (s.parameter key = value ↔ Becomes rt key value rows r) := by
  obtain ⟨⟨⟩, r₁, first, rest⟩ := Proc.of_bind_ok run
  obtain ⟨started₁, s, later, dataset, parameter⟩ := readRows_parameter first started key head
  rw [Proc.get_bind, if_neg (by simp [started₁])] at rest
  obtain ⟨⟨⟩, _, second, last⟩ := Proc.of_bind_ok rest
  cases last
  obtain ⟨-, -, stored, kept⟩ := addNewSection_keeps second
  cases later using List.reverseRecOn with
  | nil =>
    obtain ⟨same, rfl⟩ : r₁.dataset = r.dataset ∧ r₁.newSection = s := by
      have := List.append_inj' dataset rfl
      exact ⟨this.1, (List.cons.inj this.2).1⟩
    exact ⟨r'.newSection, [], by rw [stored, same], by rw [kept key]; exact parameter⟩
  | append_singleton later t =>
    have split : r₁.dataset ++ [r₁.newSection] = (r.dataset ++ s :: later) ++ [t] := by rw [dataset]; simp
    have same := (List.append_inj' split rfl).1
    exact ⟨s, later ++ [r'.newSection], by rw [stored, same]; simp, parameter⟩

/-- What a parameter can hold. -/
def Holds (r : Reading) : Prop :=
  ∀ key, r.newSection.parameter key = [] ∨ IsValText (r.newSection.parameter key)

theorem blank_parameter (key : Str) : DatasetSection.blank.parameter key = [] := by
  unfold DatasetSection.parameter
  repeat' split
  all_goals rfl

theorem RowEffect.holds {row : Str} {r r' : Reading} (effect : RowEffect rt row r r') (h : Holds r) : Holds r' := by
  cases effect with
  | idle => exact h
  | definition => exact h
  | @part text => cases partOf text <;> exact h
  | first => exact h
  | next => exact fun key => .inl (blank_parameter key)
  | @parameter row' m r' kind made at' found set =>
    intro key
    obtain ⟨_, _, _, _, val, _, ks, vs, -, -, -, -, -, valText, group₁, -, group₂, valIs⟩ := keyVal_parts found
    rw [setParameter_parameter set, group₂, Option.getD_some, valIs]
    split
    · exact .inr valText
    · exact h key
  | @added row' kind made at' =>
    intro key
    rw [(rowAction_leaves _ _ _).2 key]
    exact h key

theorem readRows_holds {rows : List Str} {r r' : Reading} (run : readRows rt rows r = .ok () r') (h : Holds r) : Holds r' := by
  induction rows generalizing r with
  | nil =>
    cases run
    exact h
  | cons row rows ih =>
    obtain ⟨⟨⟩, r₁, first, rest⟩ := Proc.of_bind_ok run
    exact ih rest ((readRow_effect first).holds h)

/-! ## A value as it is stored -/

/-- A row as its key is looked for: its variables are substituted, unless it is a definition. -/
def seenRow (vars : Vars) (row : Str) : Except Fault Str :=
  match rowKind row with
  | .data => substituteRow vars row
  | _ => .ok row

/-- Behind a row with a reserved key the parameter is its value exactly if the value group can
match all of it. -/
theorem assigned_parameter {row row' key value : Str} {r r₁ : Reading} (step : readRow rt row r = .ok () r₁)
    (part : r.readingPart = .sectionTag) (holds : Holds r) (seen : seenRow r.vars row = .ok row')
    (assigns : Assigns row' key value) (reserved : key ∈ reservedKeys) :
    r₁.readingPart = .sectionTag ∧ r₁.start = r.start ∧ r₁.dataset = r.dataset ∧
      (r₁.newSection.parameter key = value ↔ IsValText value) := by
  have effect := readRow_effect step
  cases data : rowKind row with
  | data =>
    rw [seenRow, data] at seen
    cases effect with
    | @parameter row'' m _ kind made at' found set =>
      obtain rfl := Except.ok.inj (made.symm.trans seen)
      obtain ⟨-, dataset, start, part'⟩ := setParameter_leaves set
      obtain ⟨keyIs, kept⟩ := keyVal_kept assigns reserved found
      refine ⟨part'.trans part, start, dataset, ?_⟩
      rw [setParameter_parameter set, keyIs, if_pos rfl, kept value assigns.trimmed]
      exact keptOf_self
    | added kind made at' => exact absurd part at'
    | idle kind | definition kind | part kind | first kind | next kind =>
      rw [data] at kind
      cases kind
  | definition m =>
    rw [seenRow, data] at seen
    obtain rfl := Except.ok.inj seen
    obtain ⟨_, dollar⟩ : _ ∧ '$' ∈ value := (assigns_kind assigns reserved).resolve_left (by rw [data]; exact nofun)
    have no : ¬ IsValText value := fun text => text.no_dollar dollar
    cases effect with
    | definition =>
      refine ⟨part, rfl, rfl, iff_of_false ?_ no⟩
      rintro rfl
      rcases holds key with none' | text
      · rw [none'] at dollar
        cases dollar
      · exact no text
    | idle kind | part kind | first kind | next kind | parameter kind | added kind =>
      rw [data] at kind
      cases kind
  | idle | tag =>
    rw [seenRow, data] at seen
    obtain rfl := Except.ok.inj seen
    rcases assigns_kind assigns reserved with kind | ⟨⟨m, kind⟩, -⟩ <;> exact absurd (data.symm.trans kind) nofun

/-- A value is stored whole exactly if it is all that the group can match of the text its key is
given last in the section, by the row itself or by a later one. -/
theorem parameter_whole_iff {unset : DatasetPart} {c c' : SQLTextContainer} {text : Str} {b : Bool} {before behind : List Str}
    {row row' key value : Str} {r r₁ : Reading} (run : read rt unset (some text) c = .ok b c')
    (rows : text.splitOn '\n' = before ++ row :: behind) (front : readRows rt before (begin unset c) = .ok () r)
    (step : readRow rt row r = .ok () r₁) (start : r.start = false) (part : r.readingPart = .sectionTag)
    (seen : seenRow r.vars row = .ok row') (assigns : Assigns row' key value) (reserved : key ∈ reservedKeys) :
    (∃ s, c'.dataset[r.dataset.length]? = some s ∧ s.parameter key = value) ↔
      match lastSetting key (settings rt r₁.vars behind) with
      | some later => KeptOf later value
      | none => IsValText value := by
  have holds : Holds r := readRows_holds front fun key => .inl (blank_parameter key)
  obtain ⟨part₁, start₁, dataset₁, whole⟩ := assigned_parameter step part holds seen assigns reserved
  -- the scan goes on behind the row
  obtain ⟨r', scanned, rfl⟩ := read_ok run
  have rest : scan rt behind r₁ = .ok b r' := by
    rw [rows, scan_append, Proc.bind_ok front] at scanned
    obtain ⟨⟨⟩, r₂, again, last⟩ := Proc.of_bind_ok scanned
    obtain ⟨⟨⟩, r₃, first, later⟩ := Proc.of_bind_ok again
    obtain ⟨-, rfl⟩ := EStateM.Result.ok.inj (step.symm.trans first)
    change (readRows rt behind >>= fun _ => finish rt) r₁ = _
    rw [Proc.bind_ok later]
    exact last
  obtain ⟨s, later, dataset, parameter⟩ := stored_parameter rest (start₁.trans start) key assigns.trimmed
  have entry : r'.dataset[r.dataset.length]? = some s := by
    rw [dataset, dataset₁]
    simp
  have answer : (∃ s, r'.dataset[r.dataset.length]? = some s ∧ s.parameter key = value) ↔ s.parameter key = value := by
    rw [entry]
    simp
  refine (answer.trans parameter).trans ?_
  unfold Becomes
  rw [if_pos part₁]
  cases lastSetting key (settings rt r₁.vars behind) with
  | some later => exact Iff.rfl
  | none => exact whole

/-- The rows in front of a password. -/
def loginRows : List Str := ["[section]".toList, "api=a".toList, "server=s".toList]

/-- The rows behind it. -/
def loginBehind : List Str := ["[select]".toList, "x".toList, "[from]".toList, "t".toList]

/-- A dataset with a password. -/
def login (pass : Str) : Str := "[section]\napi=a\nserver=s\npass=".toList ++ (pass ++ "\n[select]\nx\n[from]\nt".toList)

/-- What is seen of the scan of `login` around the row of the password. -/
def loginSeen (pass : Str) : Bool :=
  match readRows (.reuse 1) loginRows (begin .api .fresh) with
  | .error _ _ => false
  | .ok _ r => decide (r.start = false ∧ r.readingPart = .sectionTag ∧ r.dataset.length = 0) &&
    (match seenRow r.vars ("pass=".toList ++ pass) with
      | .error _ => false
      | .ok row => row == "pass=".toList ++ pass) &&
    match readRow (.reuse 1) ("pass=".toList ++ pass) r with
    | .error _ _ => false
    | .ok _ r₁ => lastSetting "pass".toList (settings (.reuse 1) r₁.vars loginBehind) == none

theorem login_seen (pass : Str) (seen : loginSeen pass = true) : ∃ r r₁,
    readRows (.reuse 1) loginRows (begin .api .fresh) = .ok () r ∧ r.start = false ∧ r.readingPart = .sectionTag ∧
      r.dataset.length = 0 ∧ seenRow r.vars ("pass=".toList ++ pass) = .ok ("pass=".toList ++ pass) ∧
      readRow (.reuse 1) ("pass=".toList ++ pass) r = .ok () r₁ ∧
      lastSetting "pass".toList (settings (.reuse 1) r₁.vars loginBehind) = none := by
  unfold loginSeen at seen
  split at seen
  · cases seen
  · rename_i r front
    simp only [Bool.and_eq_true, decide_eq_true_eq] at seen
    obtain ⟨⟨⟨start, part, count⟩, row⟩, step⟩ := seen
    split at row
    · cases row
    · rename_i row' substituted
      split at step
      · cases step
      · rename_i r₁ read
        exact ⟨r, r₁, front, start, part, count, substituted.trans (congrArg _ (by simpa using row)), read, by simpa using step⟩

theorem pass_assigns (pass : Str) (head : pass.head? ≠ some ' ') : Assigns ("pass=".toList ++ pass) "pass".toList pass :=
  ⟨⟨[], [], [], rfl, nofun, nofun, nofun⟩, head⟩

theorem pass_whole : ∃ b c' s, read (.reuse 1) .api (some (login "abc".toList)) .fresh = .ok b c' ∧
    c'.dataset[0]? = some s ∧ s.parameter "pass".toList = "abc".toList := by
  have answer : (match read (.reuse 1) .api (some (login "abc".toList)) .fresh with
      | .ok _ _ => true
      | .error _ _ => false) = true := by decide +kernel
  split at answer
  · rename_i b c' run
    obtain ⟨r, r₁, front, start, part, count, seen, step, last⟩ := login_seen "abc".toList (by decide +kernel)
    have rows : (login "abc".toList).splitOn '\n' = loginRows ++ ("pass=".toList ++ "abc".toList) :: loginBehind := by
      decide +kernel
    have whole := parameter_whole_iff run rows front step start part seen (pass_assigns _ (by decide)) (by decide)
    rw [last, count] at whole
    obtain ⟨s, entry, is⟩ := whole.2 (.inr ⟨by decide, List.all_eq_true.1 (by decide)⟩)
    exact ⟨b, c', s, run, entry, is⟩
  · cases answer

/-- A password is cut at its dash. -/
theorem pass_cut : ∃ b c' r, read (.reuse 1) .api (some (login "ab-c".toList)) .fresh = .ok b c' ∧
    readRows (.reuse 1) loginRows (begin .api .fresh) = .ok () r ∧ r.start = false ∧ r.readingPart = .sectionTag ∧
      seenRow r.vars "pass=ab-c".toList = .ok "pass=ab-c".toList ∧ Assigns "pass=ab-c".toList "pass".toList "ab-c".toList ∧
      (∃ s, c'.dataset[r.dataset.length]? = some s ∧ s.parameter "pass".toList = "ab".toList) ∧
      ¬ ∃ s, c'.dataset[r.dataset.length]? = some s ∧ s.parameter "pass".toList = "ab-c".toList := by
  have answer : (match read (.reuse 1) .api (some (login "ab-c".toList)) .fresh with
      | .ok _ c => (c.dataset[0]?.map (DatasetSection.parameter · "pass".toList)) == some "ab".toList
      | .error _ _ => false) = true := by decide +kernel
  split at answer
  · rename_i b c' run
    obtain ⟨r, r₁, front, start, part, count, seen, step, last⟩ := login_seen "ab-c".toList (by decide +kernel)
    obtain ⟨s, entry, is⟩ := Option.map_eq_some_iff.1 (beq_iff_eq.1 answer)
    refine ⟨b, c', r, run, front, start, part, seen, pass_assigns "ab-c".toList (by decide), ⟨s, by rw [count, entry], is⟩, ?_⟩
    rintro ⟨s', entry', is'⟩
    rw [count, entry] at entry'
    cases entry'
    exact absurd (is.symm.trans is') (by decide)
  · cases answer

end SQLTextContainer

end SqlHandler
