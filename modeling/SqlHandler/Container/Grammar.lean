import SqlHandler.Container.Query
import Mathlib.Data.List.TakeWhile

/-!
# What the regular expressions of a query match

For `_SQLH_CONT_REG_CONSTR_BASE`, `_SQLH_CONT_REG_ATTR` and `_SQLH_REG_ATTR`: the words of
each, by their parts, and the groups of a match. A comparator is a run of letters
that stand in no other part, so the parts of a constraint are determined by its word.
-/

namespace SqlHandler
open Posix Text

/-! ## Spans and rows -/

theorem text_at (p w t : Str) : (Span.mk p.length (p.length + w.length)).text (p ++ w ++ t) = w := by
  simp [Span.text]

/-- A row begins with what `regexec` reads of it. -/
theorem cStr_prefix (row : Text) : ∃ tail, row.str = row.cStr ++ tail :=
  ⟨row.str.dropWhile (· ≠ Char.ofNat 0), (List.takeWhile_append_dropWhile ..).symm⟩

theorem cStr_of_noNul {row : Text} (h : Char.ofNat 0 ∉ row.str) : row.cStr = row.str := by
  refine List.takeWhile_eq_self_iff.2 fun c hc => ?_
  have ne : c ≠ Char.ofNat 0 := fun e => h (e ▸ hc)
  simpa using ne

/-- The text of a span inside what was read. -/
theorem substr_at {row : Text} {p w t : Str} (h : row.cStr = p ++ w ++ t) :
    (row.substr ⟨p.length, p.length + w.length⟩).str = w := by
  obtain ⟨tail, e⟩ := cStr_prefix row
  rw [str_substr, e, h, List.append_assoc (p ++ w), text_at]

/-! ## Constraints -/

/-- The letters of the comparators. -/
def compChar (c : Char) : Bool := c == '<' || c == '>' || c == '=' || c == '!' || c == '~'

/-- The words of the first group. -/
def IsConstrAttr (a : Str) : Prop :=
  ∃ pre u dot v, a = pre ++ u ++ dot ++ v ∧
    (pre = [] ∨ ∃ p, p ≠ [] ∧ (∀ c ∈ p, prefixChar c = true) ∧ pre = p ++ ['.']) ∧
    u ≠ [] ∧ (∀ c ∈ u, wordChar c = true) ∧ (dot = [] ∨ dot = ['.']) ∧ ∀ c ∈ v, wordChar c = true

/-- The words of the fifth group. -/
def IsConstrVal (v : Str) : Prop :=
  ∃ q u m b q', v = q ++ u ++ m ++ b ++ q' ∧ (∀ c ∈ q, quoteChar c = true) ∧ (∀ c ∈ u, wordChar c = true) ∧
    (∀ c ∈ m, midChar c = true) ∧ (∀ c ∈ b, c = ']') ∧ ∀ c ∈ q', quoteChar c = true

/-- A word of `_SQLH_CONT_REG_CONSTR_BASE`, by its parts. -/
@[ext]
structure ConstrWord where
  lead : Str
  amp : Str
  attr : Str
  gap : Str
  comparator : Str
  gap' : Str
  value : Str
  lead_spaces : ∀ c ∈ lead, c = ' '
  amp_cases : amp = [] ∨ amp = ['&']
  attr_ok : IsConstrAttr attr
  gap_spaces : ∀ c ∈ gap, c = ' '
  comparator_mem : comparator ∈ comparators
  gap'_spaces : ∀ c ∈ gap', c = ' '
  value_ok : IsConstrVal value

namespace ConstrWord

/-- What stands before the attribute. -/
def front (k : ConstrWord) : Str := k.lead ++ k.amp

/-- What stands before the comparator. -/
def upTo (k : ConstrWord) : Str := k.lead ++ k.amp ++ k.attr ++ k.gap

def word (k : ConstrWord) : Str := k.upTo ++ k.comparator ++ (k.gap' ++ k.value)

end ConstrWord

theorem wordChar_attr {c : Char} (h : wordChar c = true) : prefixChar c = true := by
  simp only [wordChar, prefixChar, upToZ, between, digit, Bool.or_eq_true, Bool.and_eq_true,
    decide_eq_true_eq, beq_iff_eq] at *
  rcases h with ((h | h) | h) | h
  · exact .inl (.inl ⟨h.1, h.2.trans (by decide)⟩)
  · exact .inl (.inl ⟨(show 'A'.toNat ≤ 'a'.toNat by decide).trans h.1, h.2⟩)
  · exact .inr h
  · subst h
    exact .inl (.inl (by decide))

theorem prefixChar_compChar {c : Char} (h : prefixChar c = true) : compChar c = false := by
  cases e : compChar c with
  | false => rfl
  | true =>
    simp only [compChar, Bool.or_eq_true, beq_iff_eq] at e
    rcases e with (((rfl | rfl) | rfl) | rfl) | rfl <;> exact absurd h (by decide)

theorem comparator_compChar {w : Str} (h : w ∈ comparators) : w ≠ [] ∧ ∀ c ∈ w, compChar c = true := by
  simp only [comparators, List.mem_cons, List.not_mem_nil, or_false] at h
  rcases h with rfl | rfl | rfl | rfl | rfl | rfl | rfl | rfl <;> exact ⟨by decide, List.all_eq_true.1 (by decide)⟩

/-- The letters of an attribute. -/
theorem IsConstrAttr.letters {a : Str} (h : IsConstrAttr a) : a ≠ [] ∧ ∀ c ∈ a, prefixChar c = true ∨ c = '.' := by
  obtain ⟨pre, u, dot, v, rfl, hpre, ne, hu, hdot, hv⟩ := h
  refine ⟨by simp [ne], ?_⟩
  intro c hc
  simp only [List.mem_append] at hc
  rcases hc with ((hc | hc) | hc) | hc
  · rcases hpre with rfl | ⟨p, -, hp, rfl⟩
    · cases hc
    · rcases List.mem_append.1 hc with hc | hc
      · exact .inl (hp c hc)
      · exact .inr (List.mem_singleton.1 hc)
  · exact .inl (wordChar_attr (hu c hc))
  · rcases hdot with rfl | rfl
    · cases hc
    · exact .inr (List.mem_singleton.1 hc)
  · exact .inl (wordChar_attr (hv c hc))

/-- The letters a value of the grammar may have. -/
def valueChar (c : Char) : Bool := quoteChar c || wordChar c || midChar c || c == ']'

theorem IsConstrVal.letters {v : Str} (h : IsConstrVal v) : ∀ c ∈ v, valueChar c = true := by
  obtain ⟨q, u, m, b, q', rfl, hq, hu, hm, hb, hq'⟩ := h
  intro c hc
  simp only [List.mem_append] at hc
  simp only [valueChar, Bool.or_eq_true, beq_iff_eq]
  rcases hc with (((hc | hc) | hc) | hc) | hc
  · exact .inl (.inl (.inl (hq c hc)))
  · exact .inl (.inl (.inr (hu c hc)))
  · exact .inl (.inr (hm c hc))
  · exact .inr (hb c hc)
  · exact .inl (.inl (.inl (hq' c hc)))

theorem valueChar_compChar {c : Char} (h : valueChar c = true) : compChar c = false := by
  cases e : compChar c with
  | false => rfl
  | true =>
    simp only [compChar, Bool.or_eq_true, beq_iff_eq] at e
    rcases e with (((rfl | rfl) | rfl) | rfl) | rfl <;> exact absurd h (by decide)

/-! ### The parses -/

section Parse
variable {i : Nat} {w t : Str} {g : Groups}

theorem parses_spaces : Parses spaces i w t g ↔ (∀ c ∈ w, c = ' ') ∧ g = [] := parses_star_lit

/-- The third group. -/
theorem matches_constrName : Matches (.seq (.plus (.set wordChar)) <| .seq (.star (.set digit)) <|
      .seq (.opt (.lit '.')) <| .seq (.opt (.lit '_')) <| .seq (.star (.set wordChar)) (.star (.set digit)))
      i w t ↔
    ∃ u dot v, w = u ++ dot ++ v ∧ u ≠ [] ∧ (∀ c ∈ u, wordChar c = true) ∧ (dot = [] ∨ dot = ['.']) ∧
      ∀ c ∈ v, wordChar c = true := by
  have digits : ∀ c, digit c = true → wordChar c = true := fun c h => by simp [wordChar, h]
  simp only [matches_seq, matches_plus_set, matches_star_set, matches_opt, matches_lit]
  constructor
  · rintro ⟨u₁, _, rfl, ⟨ne, h₁⟩, u₂, _, rfl, h₂, u₃, _, rfl, h₃, u₄, _, rfl, h₄, u₅, u₆, rfl, h₅, h₆⟩
    refine ⟨u₁ ++ u₂, u₃, u₄ ++ u₅ ++ u₆, by simp, by simp [ne], ?_, h₃.symm, ?_⟩
    · intro c hc
      rcases List.mem_append.1 hc with hc | hc
      · exact h₁ c hc
      · exact digits c (h₂ c hc)
    · intro c hc
      simp only [List.mem_append] at hc
      rcases hc with (hc | hc) | hc
      · rcases h₄ with rfl | rfl
        · rw [List.mem_singleton.1 hc]; decide
        · cases hc
      · exact h₅ c hc
      · exact digits c (h₆ c hc)
  · rintro ⟨u, dot, v, rfl, ne, hu, hdot, hv⟩
    refine ⟨u, dot ++ v, by simp, ⟨ne, hu⟩, [], dot ++ v, rfl, by simp, dot, v, rfl, hdot.symm, ?_⟩
    exact ⟨[], v, rfl, .inr rfl, v, [], by simp, hv, by simp⟩

theorem matches_constrAttr : Matches constrAttr i w t ↔ IsConstrAttr w := by
  rw [constrAttr, matches_seq]
  simp only [matches_opt, matches_group, matches_constrName]
  constructor
  · rintro ⟨pre, _, rfl, front, u, dot, v, rfl, parts⟩
    refine ⟨pre, u, dot, v, by simp, ?_, parts⟩
    rcases front with front | rfl
    · rw [matches_seq] at front
      simp only [matches_plus_set, matches_lit] at front
      obtain ⟨p, _, rfl, ⟨ne, hp⟩, rfl⟩ := front
      exact .inr ⟨p, ne, hp, rfl⟩
    · exact .inl rfl
  · rintro ⟨pre, u, dot, v, rfl, front, parts⟩
    refine ⟨pre, u ++ dot ++ v, by simp, ?_, u, dot, v, rfl, parts⟩
    rcases front with rfl | ⟨p, ne, hp, rfl⟩
    · exact .inr rfl
    · rw [matches_seq]
      simp only [matches_plus_set, matches_lit]
      exact .inl ⟨p, ['.'], rfl, ⟨ne, hp⟩, rfl⟩

theorem matches_constrVal : Matches constrVal i w t ↔ IsConstrVal w := by
  simp only [constrVal, matches_seq, matches_star_set, matches_star_lit]
  constructor
  · rintro ⟨q, _, rfl, h₁, u, _, rfl, h₂, m, _, rfl, h₃, b, q', rfl, h₄, h₅⟩
    exact ⟨q, u, m, b, q', by simp, h₁, h₂, h₃, h₄, h₅⟩
  · rintro ⟨q, u, m, b, q', rfl, h₁, h₂, h₃, h₄, h₅⟩
    exact ⟨q, u ++ (m ++ (b ++ q')), by simp, h₁, u, _, rfl, h₂, m, _, rfl, h₃, b, q', rfl, h₄, h₅⟩

/-- A parse of `_SQLH_CONT_REG_CONSTR_BASE` is a word by its parts, with their groups. -/
theorem parses_constrBase (h : Parses contRegConstrBase i w t g) :
    ∃ k : ConstrWord, w = k.word ∧
      g.lookup 1 = some ⟨i + k.front.length, i + k.front.length + k.attr.length⟩ ∧
      g.lookup 4 = some ⟨i + k.upTo.length, i + k.upTo.length + k.comparator.length⟩ ∧
      g.lookup 5 = some ⟨i + (k.upTo ++ k.comparator ++ k.gap').length,
        i + (k.upTo ++ k.comparator ++ k.gap').length + k.value.length⟩ := by
  obtain ⟨lead, w₁, _, _, rfl, rfl, h₁, h⟩ := parses_seq.1 h
  obtain ⟨amp, w₂, _, _, rfl, rfl, h₂, h⟩ := parses_seq.1 h
  obtain ⟨attr, w₃, _, _, rfl, rfl, h₃, h⟩ := parses_seq.1 h
  obtain ⟨gap, w₄, _, _, rfl, rfl, h₄, h⟩ := parses_seq.1 h
  obtain ⟨comp, w₅, _, _, rfl, rfl, h₅, h⟩ := parses_seq.1 h
  obtain ⟨gap', value, _, _, rfl, rfl, h₆, h₇⟩ := parses_seq.1 h
  obtain ⟨leadSpaces, rfl⟩ := parses_spaces.1 h₁
  obtain ⟨gapSpaces, rfl⟩ := parses_spaces.1 h₄
  obtain ⟨gapSpaces', rfl⟩ := parses_spaces.1 h₆
  obtain ⟨ga, rfl, attrParse⟩ := parses_group.1 h₃
  obtain ⟨gc, rfl, compParse⟩ := parses_group.1 h₅
  obtain ⟨gv, rfl, valueParse⟩ := parses_group.1 h₇
  obtain ⟨compMem, rfl⟩ := parses_words.1 compParse
  have noGroups : gv = [] := by
    obtain ⟨_, _, _, _, -, rfl, h₁, h⟩ := parses_seq.1 valueParse
    obtain ⟨_, _, _, _, -, rfl, h₂, h⟩ := parses_seq.1 h
    obtain ⟨_, _, _, _, -, rfl, h₃, h⟩ := parses_seq.1 h
    obtain ⟨_, _, _, _, -, rfl, h₄, h₅⟩ := parses_seq.1 h
    simp only [parses_star_set, parses_star_lit] at h₁ h₂ h₃ h₄ h₅
    simp [h₁.2, h₂.2, h₃.2, h₄.2, h₅.2]
  subst noGroups
  rw [parses_opt, parses_lit] at h₂
  have amp_cases : amp = [] ∨ amp = ['&'] := h₂.elim (fun h => .inr h.1) (fun h => .inl h.1)
  refine ⟨⟨lead, amp, attr, gap, comp, gap', value, leadSpaces, amp_cases,
    matches_constrAttr.1 ⟨_, attrParse⟩, gapSpaces, compMem, gapSpaces', matches_constrVal.1 ⟨_, valueParse⟩⟩,
    by simp [ConstrWord.word, ConstrWord.upTo], ?_, ?_, ?_⟩
  · simp [List.lookup_cons, ConstrWord.front]; omega
  · simp [List.lookup_cons, ConstrWord.upTo]; omega
  · simp [ConstrWord.upTo]; omega

theorem ConstrWord.matches (k : ConstrWord) : Matches contRegConstrBase i k.word t := by
  have word : k.word = k.lead ++ (k.amp ++ (k.attr ++ (k.gap ++ (k.comparator ++ (k.gap' ++ k.value))))) := by
    simp [ConstrWord.word, ConstrWord.upTo]
  simp only [contRegConstrBase, spaces, matches_seq, matches_star_lit, matches_opt, matches_lit, matches_group,
    matches_constrAttr, matches_words, matches_constrVal]
  refine ⟨k.lead, _, word, k.lead_spaces, k.amp, _, rfl, k.amp_cases.symm, k.attr, _, rfl, k.attr_ok, ?_⟩
  exact ⟨k.gap, _, rfl, k.gap_spaces, k.comparator, _, rfl, k.comparator_mem, k.gap', _, rfl, k.gap'_spaces, k.value_ok⟩

end Parse

/-! ### The parts are determined -/

/-- A run of letters of one kind ends where the kind does. -/
theorem run_split {p : Char → Bool} {a b : Str} (ha : ∀ c ∈ a, p c = true) (hb : ∀ c ∈ b.head?, p c = false) :
    (a ++ b).takeWhile p = a ∧ (a ++ b).dropWhile p = b := by
  rw [List.takeWhile_append_of_pos ha, List.dropWhile_append_of_pos ha]
  cases b with
  | nil => simp
  | cons c b =>
    have : p c = false := hb c rfl
    simp [this]

/-- The letters up to a comparator, the comparator and what is behind it. -/
def compOf (w : Str) : Str := (w.dropWhile (!compChar ·)).takeWhile compChar

/-- The letters before the comparator, without spaces around them and the `&`. -/
def attrOf (w : Str) : Str :=
  (((w.takeWhile (!compChar ·)).dropWhile (· == ' ')).dropWhile (· == '&')).takeWhile (· != ' ')

/-- The letters behind the comparator, without the spaces before them. -/
def valueOf (w : Str) : Str := ((w.dropWhile (!compChar ·)).dropWhile compChar).dropWhile (· == ' ')

namespace ConstrWord
variable (k : ConstrWord)

theorem attr_letter {c : Char} (h : c ∈ k.attr) : c ≠ ' ' ∧ c ≠ '&' ∧ compChar c = false := by
  rcases k.attr_ok.letters.2 c h with h | rfl
  · refine ⟨?_, ?_, prefixChar_compChar h⟩ <;>
    · rintro rfl
      exact absurd h (by decide)
  · decide

theorem value_letter {c : Char} (h : c ∈ k.value) : c ≠ ' ' ∧ c ≠ '&' ∧ compChar c = false := by
  have h := k.value_ok.letters c h
  refine ⟨?_, ?_, valueChar_compChar h⟩ <;>
  · rintro rfl
    exact absurd h (by decide)

theorem upTo_letter {c : Char} (h : c ∈ k.upTo) : compChar c = false := by
  simp only [upTo, List.mem_append] at h
  rcases h with ((h | h) | h) | h
  · rw [k.lead_spaces c h]; decide
  · rcases k.amp_cases with e | e
    · rw [e] at h; cases h
    · rw [e] at h; rw [List.mem_singleton.1 h]; decide
  · exact (k.attr_letter h).2.2
  · rw [k.gap_spaces c h]; decide

theorem behind_letter {c : Char} (h : c ∈ k.gap' ++ k.value) : compChar c = false := by
  rcases List.mem_append.1 h with h | h
  · rw [k.gap'_spaces c h]; decide
  · exact (k.value_letter h).2.2

/-- Before the comparator, the comparator, behind it. -/
theorem word_split : k.word.takeWhile (!compChar ·) = k.upTo ∧
    k.word.dropWhile (!compChar ·) = k.comparator ++ (k.gap' ++ k.value) := by
  have comp := comparator_compChar k.comparator_mem
  rw [word, List.append_assoc]
  refine run_split (fun c h => by simp [k.upTo_letter h]) ?_
  intro c h
  obtain ⟨d, rest, e⟩ := List.exists_cons_of_ne_nil comp.1
  rw [e] at h
  cases h
  have : compChar c = true := comp.2 c (by rw [e]; exact List.mem_cons_self)
  simp [this]

theorem comparator_split : (k.comparator ++ (k.gap' ++ k.value)).takeWhile compChar = k.comparator ∧
    (k.comparator ++ (k.gap' ++ k.value)).dropWhile compChar = k.gap' ++ k.value :=
  run_split (comparator_compChar k.comparator_mem).2 fun _ h => k.behind_letter (List.mem_of_mem_head? h)

theorem compOf_word : compOf k.word = k.comparator := by
  rw [compOf, k.word_split.2, k.comparator_split.1]

theorem valueOf_word : valueOf k.word = k.value := by
  rw [valueOf, k.word_split.2, k.comparator_split.2]
  refine (run_split (fun c h => by simp [k.gap'_spaces c h]) fun c h => ?_).2
  simpa using (k.value_letter (List.mem_of_mem_head? h)).1

theorem attrOf_word : attrOf k.word = k.attr := by
  obtain ⟨d, rest, e⟩ := List.exists_cons_of_ne_nil k.attr_ok.letters.1
  have first := k.attr_letter (c := d) (by simp [e])
  have skipLead : (k.upTo).dropWhile (· == ' ') = k.amp ++ (k.attr ++ k.gap) := by
    rw [upTo, List.append_assoc, List.append_assoc]
    refine (run_split (fun c h => by simp [k.lead_spaces c h]) fun c h => ?_).2
    rcases k.amp_cases with amp | amp
    · rw [amp, e] at h
      cases h
      simpa using first.1
    · rw [amp] at h
      cases h
      decide
  have skipAmp : (k.amp ++ (k.attr ++ k.gap)).dropWhile (· == '&') = k.attr ++ k.gap := by
    refine (run_split (fun c h => ?_) fun c h => ?_).2
    · rcases k.amp_cases with amp | amp
      · rw [amp] at h; cases h
      · rw [amp] at h; simp [List.mem_singleton.1 h]
    · rw [e] at h
      cases h
      simpa using first.2.1
  rw [attrOf, k.word_split.1, skipLead, skipAmp]
  refine (run_split (fun c h => by simpa using (k.attr_letter h).1) fun c h => ?_).1
  simp [k.gap_spaces c (List.mem_of_mem_head? h)]

/-- The word determines the attribute, the comparator and the value. -/
theorem parts_eq {k k' : ConstrWord} (e : k.word = k'.word) :
    k.attr = k'.attr ∧ k.comparator = k'.comparator ∧ k.value = k'.value :=
  ⟨by rw [← attrOf_word, e, attrOf_word], by rw [← compOf_word, e, compOf_word],
    by rw [← valueOf_word, e, valueOf_word]⟩

theorem word_ne_nil : k.word ≠ [] := by
  simp [word, (comparator_compChar k.comparator_mem).1]

end ConstrWord

/-! ### What a match stores -/

theorem regexec_sound {r : Regex} {s : Str} {m : Match} (h : regexec r s = some m) :
    ∃ p w t, s = p ++ w ++ t ∧ m.so = p.length ∧ m.len = w.length ∧ Parses r p.length w t m.groups := by
  obtain ⟨p, w, t, e, so, len, parse⟩ := search_sound h
  rw [Nat.zero_add] at so
  exact ⟨p, w, t, e, so, len, by rwa [so] at parse⟩

/-- An expression without an empty word cuts something. -/
theorem cutting_of {r : Regex} (ne : ∀ i w t g, Parses r i w t g → w ≠ []) : StringMatch.Cutting (regexec r) := by
  intro s m h
  obtain ⟨p, w, t, rfl, so, len, parse⟩ := regexec_sound h
  have := List.length_pos_iff.2 (ne _ _ _ _ parse)
  simp only [List.length_append]
  omega

theorem constrBase_cutting : StringMatch.Cutting (regexec contRegConstrBase) := by
  refine cutting_of fun i w t g h => ?_
  obtain ⟨k, rfl, -⟩ := parses_constrBase h
  exact k.word_ne_nil

/-- The groups `loadConstraints` asks for. -/
def constrGroups : List Nat := [constrAttrGroup, constrComparatorGroup, constrValGroup]

/-- A match of a constraint: its word stands in the row, and the texts stored are its parts. -/
theorem constraint_found {row : Text} {m : Match} (h : regexec contRegConstrBase row.cStr = some m) :
    ∃ (k : ConstrWord) (p t : Str), row.cStr = p ++ k.word ++ t ∧ m.so = p.length ∧ m.len = k.word.length ∧
      ∃ a c v, StringMatch.extract constrGroups m row = [a, c, v] ∧
        a.str = k.attr ∧ c.str = k.comparator ∧ v.str = k.value := by
  obtain ⟨p, w, t, e, so, len, parse⟩ := regexec_sound h
  obtain ⟨k, rfl, g₁, g₄, g₅⟩ := parses_constrBase parse
  have attr : (row.substr ⟨(p ++ k.front).length, (p ++ k.front).length + k.attr.length⟩).str = k.attr :=
    substr_at (t := k.gap ++ k.comparator ++ k.gap' ++ k.value ++ t)
      (by rw [e]; simp [ConstrWord.word, ConstrWord.upTo, ConstrWord.front])
  have comparator : (row.substr ⟨(p ++ k.upTo).length, (p ++ k.upTo).length + k.comparator.length⟩).str =
      k.comparator :=
    substr_at (t := k.gap' ++ k.value ++ t) (by rw [e]; simp [ConstrWord.word])
  have value : (row.substr ⟨(p ++ (k.upTo ++ k.comparator ++ k.gap')).length,
      (p ++ (k.upTo ++ k.comparator ++ k.gap')).length + k.value.length⟩).str = k.value :=
    substr_at (t := t) (by rw [e]; simp [ConstrWord.word])
  rw [← List.length_append] at g₁ g₄ g₅
  refine ⟨k, p, t, e, so, len, _, _, _, ?_, attr, comparator, value⟩
  simp [StringMatch.extract, constrGroups, constrAttrGroup, constrComparatorGroup, constrValGroup, indexes,
    Match.group, g₁, g₄, g₅]

end SqlHandler
