import SqlHandler.Container.Cutting

/-!
# The first condition of a text

The loop of `loadConstraints` cuts the leftmost and longest word of the grammar out of a text. A text
in front of another changes where that word starts, as blanks and a `&` at its end are taken with
it, and nothing else, unless the attribute of the word begins in it (`First.behind`).
-/

namespace SqlHandler
open Posix Text Stl

/-! ## What stands in front of an attribute -/

/-- A letter that may stand in front of the attribute. -/
def frontChar (c : Char) : Bool := c == ' ' || c == '&'

/-- Blanks, and a `&` maybe. -/
def IsFront (f : Str) : Prop := ∃ lead amp, f = lead ++ amp ∧ (∀ c ∈ lead, c = ' ') ∧ (amp = [] ∨ amp = ['&'])

theorem IsFront.chars {f : Str} (h : IsFront f) : ∀ c ∈ f, frontChar c = true := by
  obtain ⟨lead, amp, rfl, blanks, cases'⟩ := h
  intro c mem
  rcases List.mem_append.1 mem with mem | mem
  · rw [blanks c mem]
    rfl
  · rcases cases' with rfl | rfl
    · cases mem
    · rw [List.mem_singleton.1 mem]
      rfl

theorem IsFront.suffix {a b : Str} (h : IsFront (a ++ b)) : IsFront b := by
  obtain ⟨lead, amp, split, blanks, cases'⟩ := h
  rcases List.append_eq_append_iff.1 split with ⟨x, rfl, rfl⟩ | ⟨x, rfl, rfl⟩
  · exact ⟨x, amp, rfl, fun c mem => blanks c (List.mem_append_right _ mem), cases'⟩
  · refine ⟨[], b, rfl, List.forall_mem_nil _, ?_⟩
    rcases cases' with none | one
    · exact .inl (List.append_eq_nil_iff.1 none).2
    · cases x with
      | nil => exact .inr one
      | cons c x =>
        obtain ⟨-, rest⟩ := List.cons.inj one
        exact .inl (List.append_eq_nil_iff.1 rest).2

namespace ConstrWord

theorem front_isFront (k : ConstrWord) : IsFront k.front := ⟨k.lead, k.amp, rfl, k.lead_spaces, k.amp_cases⟩

theorem no_spaces : ∀ c ∈ ([] : Str), c = ' ' := List.forall_mem_nil _

theorem no_amp : ([] : Str) = [] ∨ ([] : Str) = ['&'] := .inl rfl

/-- The word from its attribute on. -/
def bare (k : ConstrWord) : ConstrWord :=
  { k with
    lead := []
    amp := []
    lead_spaces := no_spaces
    amp_cases := no_amp }

@[simp] theorem bare_front (k : ConstrWord) : k.bare.front = [] := rfl

theorem word_bare (k : ConstrWord) : k.word = k.front ++ k.bare.word := by
  simp [ConstrWord.word, ConstrWord.upTo, front, bare]

/-- The same word behind another front. -/
theorem refront (k : ConstrWord) {f : Str} (h : IsFront f) : ∃ k' : ConstrWord, k'.front = f ∧ k'.bare = k.bare := by
  obtain ⟨lead, amp, rfl, blanks, cases'⟩ := h
  exact ⟨{ k with
    lead := lead
    amp := amp
    lead_spaces := blanks
    amp_cases := cases' }, rfl, rfl⟩

theorem attr_front (k : ConstrWord) {c : Char} (mem : c ∈ k.attr) : frontChar c = false := by
  obtain ⟨blank, amp, -⟩ := k.attr_letter mem
  simp [frontChar, blank, amp]

theorem bare_head (k : ConstrWord) (rest : Str) : ∃ c more, k.bare.word ++ rest = c :: more ∧ frontChar c = false := by
  obtain ⟨c, attr, first⟩ := List.exists_cons_of_ne_nil k.attr_ok.letters.1
  refine ⟨c, attr ++ k.gap ++ k.comparator ++ (k.gap' ++ k.value) ++ rest, ?_, k.attr_front (by simp [first])⟩
  have attr' : k.bare.attr = c :: attr := first
  simp [ConstrWord.word, ConstrWord.upTo, attr']
  simp [bare]

/-- The front is the run of its letters. -/
theorem front_run (k : ConstrWord) (rest : Str) : (k.word ++ rest).takeWhile frontChar = k.front := by
  obtain ⟨c, more, split, first⟩ := k.bare_head rest
  rw [word_bare, List.append_assoc, split]
  refine (run_split k.front_isFront.chars ?_).1
  intro d mem
  obtain rfl : c = d := Option.some.inj mem
  exact first

/-- The attribute of one word does not begin in front of that of a word that starts no later, or in it. -/
theorem attr_starts {p q p' q' : Str} {k k' : ConstrWord} (e : p ++ k.word ++ q = p' ++ k'.word ++ q')
    (le : p.length ≤ p'.length) : (p ++ k.front).length ≤ (p' ++ k'.front).length := by
  by_contra lt
  rw [Nat.not_le] at lt
  obtain ⟨c, more, split, first⟩ := k'.bare_head q'
  have parts : (p ++ k.front) ++ (k.bare.word ++ q) = (p' ++ k'.front) ++ c :: more := by
    rw [word_bare k, word_bare k'] at e
    rw [← split]
    simpa using e
  -- the first letter of the one attribute stands in the front of the other word
  rcases List.append_eq_append_iff.1 parts with ⟨x, same, -⟩ | ⟨x, same, rest⟩
  · have := congrArg List.length same
    simp only [List.length_append] at this lt
    omega
  · cases x with
    | nil =>
      rw [same, List.append_nil] at lt
      exact Nat.lt_irrefl _ lt
    | cons d x =>
      obtain ⟨rfl, -⟩ := List.cons.inj rest
      rw [List.append_assoc] at same
      have inFront : c ∈ k.front := by
        rcases List.append_eq_append_iff.1 same with ⟨y, -, inside⟩ | ⟨y, rfl, inside⟩
        · rw [inside]
          simp
        · rw [List.length_append] at le
          obtain rfl : y = [] := List.eq_nil_of_length_eq_zero (by omega)
          rw [List.nil_append] at inside
          rw [← inside]
          simp
      have letter := k.front_isFront.chars c inFront
      rw [first] at letter
      cases letter

end ConstrWord

/-! ## The leftmost and longest word -/

/-- The word of the grammar a match is of: none starts in front of it, and none that starts with it is longer. -/
structure First (s p : Str) (k : ConstrWord) (t : Str) : Prop where
  split : s = p ++ k.word ++ t
  least : ∀ p' k' t', s = p' ++ ConstrWord.word k' ++ t' →
    p.length ≤ p'.length ∧ (p'.length = p.length → k'.word.length ≤ k.word.length)

theorem first_of_found {s : Str} {m : Match} (h : regexec contRegConstrBase s = some m) :
    ∃ p k t, First s p k t ∧ m.so = p.length ∧ m.len = k.word.length := by
  obtain ⟨p, w, t, split, so, len, parse⟩ := regexec_sound h
  obtain ⟨k, rfl, -⟩ := parses_constrBase parse
  refine ⟨p, k, t, ⟨split, fun p' k' t' split' => ?_⟩, so, len⟩
  obtain ⟨g, parse'⟩ := k'.matches (i := 0 + p'.length) (t := t')
  obtain ⟨le, long⟩ := search_first h split' parse'
  rw [so, len, Nat.zero_add] at *
  exact ⟨le, fun same => long same.symm⟩

theorem found_of_first {s p t : Str} {k : ConstrWord} (first : First s p k t) :
    ∃ m, regexec contRegConstrBase s = some m ∧ m.so = p.length ∧ m.len = k.word.length := by
  obtain ⟨g, parse⟩ := k.matches (i := 0 + p.length) (t := t)
  rw [first.split]
  obtain ⟨g', run, -⟩ := search_exists parse (by
    intro p' w' t' e lt g parse'
    obtain ⟨k', rfl, -⟩ := parses_constrBase parse'
    exact absurd (first.least p' k' t' (first.split.trans e)).1 (Nat.not_le.2 lt)) (by
    intro w' t' e lt g parse'
    obtain ⟨k', rfl, -⟩ := parses_constrBase parse'
    have split : s = p ++ k'.word ++ t' := by rw [first.split, List.append_assoc, e, List.append_assoc]
    exact absurd ((first.least p k' t' split).2 rfl) (Nat.not_le.2 lt))
  exact ⟨_, run, Nat.zero_add _, rfl⟩

theorem found_none {s : Str} : regexec contRegConstrBase s = none ↔ ∀ p k t, s ≠ p ++ ConstrWord.word k ++ t := by
  constructor
  · intro none p k t split
    obtain ⟨g, parse⟩ := k.matches (i := 0 + p.length) (t := t)
    exact search_none.1 none p k.word t g split parse
  · intro none
    refine search_none.2 fun p w t g e parse => ?_
    obtain ⟨k, rfl, -⟩ := parses_constrBase parse
    exact none p k t e

namespace First
variable {s p p' t t' : Str} {k k' : ConstrWord}

/-- Two first words of a text are the same. -/
theorem unique (h : First s p k t) (h' : First s p' k' t') : p = p' ∧ k.word = k'.word ∧ t = t' := by
  have least := h.least p' k' t' h'.split
  have least' := h'.least p k t h.split
  have place : p.length = p'.length := by omega
  have length : k.word.length = k'.word.length := Nat.le_antisymm (least'.2 place) (least.2 place.symm)
  have e := h.split.symm.trans h'.split
  obtain ⟨front, rfl⟩ := List.append_inj e (by simp [place, length])
  obtain ⟨rfl, word⟩ := List.append_inj front place
  exact ⟨rfl, word, rfl⟩

theorem congr (h : First s p k t) (same : k.word = k'.word) : First s p k' t :=
  ⟨same ▸ h.split, same ▸ h.least⟩

/-- Where a word starts as the first one does, the fronts are the same. -/
theorem front_eq (h : First s p k t) (split : s = p ++ k'.word ++ t') : k'.front = k.front := by
  have e : k.word ++ t = k'.word ++ t' := by
    have := h.split.symm.trans split
    rw [List.append_assoc, List.append_assoc] at this
    exact List.append_cancel_left this
  rw [← k.front_run t, ← k'.front_run t', e]

/-- **A text in front**: the first word is the same from its attribute on, and letters at the end of the text in front
are taken with it where it starts with the text behind. -/
theorem behind {w : Str} (h : First t p k t') (apart : ∀ p₁ k₁ t₁, First (w ++ t) p₁ k₁ t₁ → w.length ≤ (p₁ ++ k₁.front).length) :
    ∃ w₁ f k₁, w = w₁ ++ f ∧ (∀ c ∈ f, frontChar c = true) ∧ (f ≠ [] → p = []) ∧ k₁.bare = k.bare ∧ k₁.front = f ++ k.front ∧
      First (w ++ t) (w₁ ++ p) k₁ t' := by
  have split : w ++ t = (w ++ p) ++ k.word ++ t' := by rw [h.split]; simp
  obtain ⟨m, found⟩ : ∃ m, regexec contRegConstrBase (w ++ t) = some m := by
    cases found : regexec contRegConstrBase (w ++ t) with
    | some m => exact ⟨m, rfl⟩
    | none => exact absurd split (found_none.1 found _ _ _)
  obtain ⟨p₁, k₁, t₁, first, -⟩ := first_of_found found
  have inside := apart p₁ k₁ t₁ first
  have early := (first.least _ _ _ split).1
  have e := first.split
  rw [List.append_assoc] at e
  rcases List.append_eq_append_iff.1 e with ⟨x, rfl, rest⟩ | ⟨f, rfl, rest⟩
  · -- the word starts in the text behind
    have here : t = x ++ k₁.word ++ t₁ := by rw [rest, List.append_assoc]
    have same : First t x k₁ t₁ := by
      refine ⟨here, fun p' k' t' split' => ?_⟩
      have := first.least (w ++ p') k' t' (by rw [split']; simp)
      simp only [List.length_append] at this
      exact ⟨by omega, fun eq => this.2 (by omega)⟩
    obtain ⟨rfl, word, rfl⟩ := h.unique same
    refine ⟨w, [], k, (List.append_nil w).symm, List.forall_mem_nil _, fun ne => absurd rfl ne, rfl, rfl, first.congr word.symm⟩
  · -- it starts with letters of the text in front, which stand before its attribute
    obtain ⟨y, front⟩ : ∃ y, k₁.front = f ++ y := by
      rw [ConstrWord.word_bare, List.append_assoc] at rest
      rcases List.append_eq_append_iff.1 rest with ⟨x, short, -⟩ | ⟨x, front, -⟩
      · rw [short] at inside
        simp only [List.length_append] at inside
        obtain rfl : x = [] := List.eq_nil_of_length_eq_zero (by omega)
        exact ⟨[], by rw [short]; simp⟩
      · exact ⟨x, front⟩
    have isFront : IsFront (f ++ y) := front ▸ k₁.front_isFront
    obtain ⟨k₂, front₂, bare₂⟩ := k₁.refront isFront.suffix
    have t_split : t = [] ++ k₂.word ++ t₁ := by
      rw [ConstrWord.word_bare k₁, front] at rest
      simp only [List.append_assoc] at rest
      rw [← List.append_cancel_left rest, ConstrWord.word_bare k₂, front₂, bare₂]
      simp
    cases f with
    | nil =>
      rw [List.nil_append] at front
      have same : First t [] k₁ t₁ := by
        refine ⟨by simpa using rest.symm, fun p' k' t' split' => ?_⟩
        have := first.least (p₁ ++ [] ++ p') k' t' (by rw [split']; simp)
        simp only [List.length_append, List.length_nil, Nat.add_zero] at this
        exact ⟨Nat.zero_le _, fun eq => this.2 (by simpa using eq)⟩
      obtain ⟨rfl, word, rfl⟩ := h.unique same
      exact ⟨p₁, [], k, rfl, List.forall_mem_nil _, fun ne => absurd rfl ne, rfl, rfl, by simpa using first.congr word.symm⟩
    | cons c f =>
      have start : p = [] := List.eq_nil_of_length_eq_zero (Nat.le_zero.1 (h.least [] k₂ t₁ t_split).1)
      subst start
      have fronts : k₂.front = k.front := h.front_eq t_split
      have yEq : y = k.front := front₂.symm.trans fronts
      subst yEq
      have le := (h.least [] k₂ t₁ t_split).2 rfl
      obtain ⟨k₃, front₃, bare₃⟩ := k.refront isFront
      have split₃ : p₁ ++ c :: f ++ t = p₁ ++ k₃.word ++ t' := by
        rw [h.split, ConstrWord.word_bare k₃, front₃, bare₃, ConstrWord.word_bare k]
        simp
      have le' := (first.least p₁ k₃ t' split₃).2 rfl
      have bares : k₂.bare.word.length = k₁.bare.word.length := by rw [bare₂]
      have bares' : k₃.bare.word.length = k.bare.word.length := by rw [bare₃]
      have equal : k₃.word.length = k₁.word.length := by
        have l₁ := congrArg List.length (ConstrWord.word_bare k₁)
        have l₂ := congrArg List.length (ConstrWord.word_bare k₂)
        have l₃ := congrArg List.length (ConstrWord.word_bare k₃)
        have l := congrArg List.length (ConstrWord.word_bare k)
        rw [List.length_append] at l₁ l₂ l₃ l
        rw [front] at l₁
        rw [front₃] at l₃
        rw [fronts] at l₂
        simp only [List.length_append] at l₁ l₃
        omega
      have e₃ := first.split.symm.trans split₃
      obtain ⟨front_word, rfl⟩ := List.append_inj e₃ (by simp [equal])
      have word := List.append_cancel_left front_word
      exact ⟨p₁, c :: f, k₃, rfl, fun d mem => isFront.chars d (List.mem_append_left _ mem), fun _ => rfl, bare₃, front₃,
        by simpa using first.congr word⟩

end First

/-- Behind a text in which no attribute begins there is a match if and only if there is one without it. -/
theorem none_behind {w t : Str} (apart : ∀ p k q, First (w ++ t) p k q → w.length ≤ (p ++ ConstrWord.front k).length)
    (nothing : regexec contRegConstrBase t = none) : regexec contRegConstrBase (w ++ t) = none := by
  cases found : regexec contRegConstrBase (w ++ t) with
  | none => rfl
  | some m =>
    obtain ⟨p, k, q, first, -⟩ := first_of_found found
    have inside := apart p k q first
    have e : w ++ t = (p ++ k.front) ++ (k.bare.word ++ q) := by
      rw [first.split, ConstrWord.word_bare]
      simp
    rcases List.append_eq_append_iff.1 e with ⟨x, -, rest⟩ | ⟨x, short, rest⟩
    · exact absurd (rest.trans (List.append_assoc ..).symm) (found_none.1 nothing x k.bare q)
    · have length := congrArg List.length short
      rw [List.length_append] at length
      obtain rfl : x = [] := List.eq_nil_of_length_eq_zero (by omega)
      exact absurd rest.symm (found_none.1 nothing [] k.bare q)

/-! ## Rows -/

theorem cStr_append {w : Text} (noNul : NoNul w) (t : Text) : (w ++ t).cStr = w.str ++ t.cStr := by
  unfold Text.cStr
  rw [str_append, List.takeWhile_append_of_pos]
  intro c mem
  have ne : c ≠ Char.ofNat 0 := fun nul => noNul (nul ▸ mem)
  simpa using ne

theorem substr_behind (w t : Text) (a b : Nat) : (w ++ t).substr ⟨w.length + a, w.length + a + b⟩ = t.substr ⟨a, a + b⟩ := by
  unfold Text.substr
  rw [← List.drop_drop, List.drop_left, Nat.add_sub_cancel_left, Nat.add_sub_cancel_left]

theorem erase_behind (w t : Text) (so len : Nat) : (w ++ t).erase (w.length + so) len = w ++ t.erase so len := by
  unfold Text.erase
  rw [List.take_length_add_append, Nat.add_assoc, List.drop_length_add_append, List.append_assoc]

/-- The spans of the attribute, the comparator and the value of a word at `p`. -/
def ConstrWord.spans (p : Str) (k : ConstrWord) : List Span :=
  [⟨(p ++ k.front).length, (p ++ k.front).length + k.attr.length⟩, ⟨(p ++ k.upTo).length, (p ++ k.upTo).length + k.comparator.length⟩,
    ⟨(p ++ k.upTo ++ k.comparator ++ k.gap').length, (p ++ k.upTo ++ k.comparator ++ k.gap').length + k.value.length⟩]

/-- What is stored of the first word. -/
theorem First.stored {row : Text} {m : Match} {p t : Str} {k : ConstrWord} (first : First row.cStr p k t)
    (found : regexec contRegConstrBase row.cStr = some m) : m.so = p.length ∧ m.len = k.word.length ∧
      StringMatch.extract constrGroups m row = (k.spans p).map row.substr := by
  obtain ⟨m', found', so, len⟩ := found_of_first first
  obtain rfl : m = m' := Option.some.inj (found.symm.trans found')
  refine ⟨so, len, ?_⟩
  obtain ⟨p₁, w₁, t₁, split, so₁, len₁, parse⟩ := regexec_sound found
  obtain ⟨k₁, rfl, attr, comparator, value⟩ := parses_constrBase parse
  obtain ⟨head, -⟩ := List.append_inj (first.split.symm.trans split) (by simp [← so, ← len, so₁, len₁])
  obtain ⟨rfl, word⟩ := List.append_inj head (so.symm.trans so₁)
  have front : k₁.front = k.front := by rw [← k₁.front_run [], ← k.front_run [], word]
  have upTo : k₁.upTo = k.upTo := by rw [← k₁.word_split.1, ← k.word_split.1, word]
  obtain ⟨attrs, comparators', values⟩ := ConstrWord.parts_eq word
  have gap' : k₁.gap' = k.gap' := by
    have behind := k₁.word_split.2
    rw [← word, k.word_split.2, ← comparators', ← values] at behind
    exact (List.append_cancel_right (List.append_cancel_left behind)).symm
  simp only [StringMatch.extract, constrGroups, List.map_cons, List.map_nil, constrAttrGroup, constrComparatorGroup,
    constrValGroup, indexes, Match.group, ConstrWord.spans]
  rw [attr, comparator, value, front, upTo, gap', ← attrs, ← comparators', ← values]
  simp [Nat.add_assoc]

/-- **One round behind a text**: what is stored is the same, and blanks and a `&` may be gone from the text in front. -/
theorem step_behind {w t : Text} (noNul : NoNul w)
    (apart : ∀ p k q, First (w.str ++ t.cStr) p k q → w.str.length ≤ (p ++ ConstrWord.front k).length) {m : Match}
    (found : regexec contRegConstrBase t.cStr = some m) : ∃ w₁ f m', w = w₁ ++ f ∧ (∀ c ∈ f.str, frontChar c = true) ∧
      regexec contRegConstrBase (w ++ t).cStr = some m' ∧
      m'.so = w₁.length + m.so ∧ StringMatch.extract constrGroups m' (w ++ t) = StringMatch.extract constrGroups m t ∧
      (w ++ t).erase m'.so m'.len = w₁ ++ t.erase m.so m.len := by
  obtain ⟨p, k, q, first, -⟩ := first_of_found found
  obtain ⟨so, len, stored⟩ := first.stored found
  obtain ⟨w₁', f', k₁, split, chars, start, bare, front, first'⟩ := first.behind apart
  obtain ⟨w₁, f, rfl, rfl, rfl⟩ := List.map_eq_append_iff.1 split
  rw [← cStr_append noNul] at first'
  obtain ⟨m', found', -⟩ := found_of_first first'
  obtain ⟨so', len', stored'⟩ := first'.stored found'
  have attr : k₁.attr = k.attr := show k₁.bare.attr = k.bare.attr by rw [bare]
  have gap : k₁.gap = k.gap := show k₁.bare.gap = k.bare.gap by rw [bare]
  have comparator : k₁.comparator = k.comparator := show k₁.bare.comparator = k.bare.comparator by rw [bare]
  have gap' : k₁.gap' = k.gap' := show k₁.bare.gap' = k.bare.gap' by rw [bare]
  have value : k₁.value = k.value := show k₁.bare.value = k.bare.value by rw [bare]
  have upTo : k₁.upTo = f.map Letter.char ++ k.upTo := by
    change k₁.front ++ k₁.attr ++ k₁.gap = f.map Letter.char ++ (k.front ++ k.attr ++ k.gap)
    rw [front, attr, gap]
    simp
  have word : k₁.word.length = f.length + k.word.length := by
    rw [ConstrWord.word, ConstrWord.word, upTo, comparator, gap', value]
    simp only [List.length_append, List.length_map]
    omega
  refine ⟨w₁, f, m', rfl, chars, found', by rw [so', so]; simp, ?_, ?_⟩
  · rw [stored', stored]
    have shifted : k₁.spans (w₁.map Letter.char ++ p) =
        (k.spans p).map fun s => ⟨(w₁ ++ f).length + s.so, (w₁ ++ f).length + s.eo⟩ := by
      unfold ConstrWord.spans
      rw [front, upTo, attr, comparator, gap', value]
      simp [Nat.add_assoc, Nat.add_left_comm]
    rw [shifted, List.map_map]
    refine List.map_congr_left fun s mem => ?_
    have order : s.eo = s.so + (s.eo - s.so) := by
      simp only [ConstrWord.spans, List.mem_cons, List.not_mem_nil, or_false] at mem
      rcases mem with rfl | rfl | rfl <;> simp
    change Text.substr (w₁ ++ f ++ t) ⟨(w₁ ++ f).length + s.so, (w₁ ++ f).length + s.eo⟩ = t.substr s
    rw [order, ← Nat.add_assoc, substr_behind, ← order]
  · rw [so', len', so, len, word, List.length_append, List.length_map, List.append_assoc]
    by_cases empty : f = []
    · subst empty
      rw [List.nil_append, List.length_nil, Nat.zero_add, erase_behind]
    · obtain rfl : p = [] := start (by simpa using empty)
      rw [erase_behind, List.length_nil]
      simp [Text.erase]

end SqlHandler
