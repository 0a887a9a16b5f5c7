import SqlHandler.Container.Clauses

/-!
# Conditions cut out of a text

A text of conditions with words between them that hold no comparator. A match starts at the
blanks in front of a condition and ends where the condition ends (`cut_one`), so the loop takes
the conditions of the grammar out one after the other, and what stood between them stays
(`Stretch.cuts`).
-/

namespace SqlHandler
open Posix Text Stl

/-! ## Where a match ends -/

/-- The length of a run of blanks and of the run of other letters behind it. -/
def spanLength (s : Str) : Nat := (s.takeWhile (· == ' ')).length + ((s.dropWhile (· == ' ')).takeWhile (· != ' ')).length

theorem length_le_span {g v : Str} (blanks : ∀ c ∈ g, c = ' ') (letters : ∀ c ∈ v, c ≠ ' ') (t : Str) :
    (g ++ v).length ≤ spanLength (g ++ v ++ t) := by
  have skip : ∀ c ∈ g, (c == ' ') = true := fun c mem => by simpa using blanks c mem
  cases v with
  | nil =>
    unfold spanLength
    rw [List.append_nil, List.takeWhile_append_of_pos skip, List.length_append]
    omega
  | cons d v =>
    have first : d ≠ ' ' := letters d List.mem_cons_self
    obtain ⟨front, behind⟩ := run_split (b := d :: v ++ t) skip (by simpa using first)
    unfold spanLength
    rw [List.append_assoc, front, behind, List.takeWhile_append_of_pos (by intro c mem; simpa using letters c mem)]
    simp only [List.length_append]
    omega

theorem spanLength_eq {g v t : Str} (blanks : ∀ c ∈ g, c = ' ') (letters : ∀ c ∈ v, c ≠ ' ') (ne : v ≠ [])
    (ends : ∀ c ∈ t.head?, c = ' ') : spanLength (g ++ v ++ t) = (g ++ v).length := by
  have skip : ∀ c ∈ g, (c == ' ') = true := fun c mem => by simpa using blanks c mem
  have first : ∀ c ∈ (v ++ t).head?, (c == ' ') = false := by
    intro c mem
    obtain ⟨d, more, rfl⟩ := List.exists_cons_of_ne_nil ne
    cases mem
    simpa using letters _ List.mem_cons_self
  obtain ⟨front, behind⟩ := run_split skip first
  have word : (v ++ t).takeWhile (· != ' ') = v := by
    refine (run_split ?_ ?_).1
    · intro c mem
      simpa using letters c mem
    · intro c mem
      simp [ends c mem]
  unfold spanLength
  rw [List.append_assoc, front, behind, word, List.length_append]

namespace ConstrWord

/-- The letters up to the end of the value, by the parts. -/
theorem word_length (k : ConstrWord) : k.word.length = k.upTo.length + k.comparator.length + (k.gap' ++ k.value).length := by
  simp [ConstrWord.word]
  omega

/-- Behind letters without a comparator: up to the comparator, and from there. -/
theorem behind_split (k : ConstrWord) {u : Str} (plain : ∀ c ∈ u, compChar c = false) (rest : Str) :
    (u ++ (k.word ++ rest)).takeWhile (!compChar ·) = u ++ k.upTo ∧
      (u ++ (k.word ++ rest)).dropWhile (!compChar ·) = k.comparator ++ (k.gap' ++ k.value ++ rest) := by
  obtain ⟨before, onward⟩ := k.append_split rest
  have skip : ∀ c ∈ u, (!compChar c) = true := fun c mem => by simp [plain c mem]
  rw [List.takeWhile_append_of_pos skip, List.dropWhile_append_of_pos skip, before, onward]
  exact ⟨rfl, rfl⟩

/-- The comparator is the run of its letters. -/
theorem comparator_run (k : ConstrWord) (rest : Str) (ends : ∀ c ∈ rest.head?, compChar c = false) :
    (k.comparator ++ (k.gap' ++ k.value ++ rest)).takeWhile compChar = k.comparator := by
  refine (run_split (comparator_compChar k.comparator_mem).2 ?_).1
  intro c mem
  cases tail : k.gap' ++ k.value with
  | nil =>
    rw [tail, List.nil_append] at mem
    exact ends c mem
  | cons d more =>
    rw [tail, List.cons_append, List.head?_cons] at mem
    cases mem
    exact k.behind_letter (by simp [tail])

/-- No longer word starts where a word in front of a blank, or at the end, starts. -/
theorem length_le_blank {k k' : ConstrWord} {rest rest' : Str} (ends : rest = [] ∨ k.value ≠ [] ∧ rest.head? = some ' ')
    (e : k.word ++ rest = k'.word ++ rest') : k'.word.length ≤ k.word.length := by
  rcases ends with rfl | ⟨value, blank⟩
  · have length := congrArg List.length e
    simp only [List.append_nil, List.length_append] at length
    omega
  obtain ⟨before, onward⟩ := k.append_split rest
  obtain ⟨before', from'⟩ := k'.append_split rest'
  rw [e] at before onward
  have upTo : k'.upTo = k.upTo := before'.symm.trans before
  have behind := from'.symm.trans onward
  have run := k.comparator_run rest (by simp [blank]; decide)
  rw [← behind, List.takeWhile_append_of_pos (comparator_compChar k'.comparator_mem).2] at run
  rw [word_length k, word_length k', upTo]
  have letters : ∀ j : ConstrWord, ∀ c ∈ j.value, c ≠ ' ' := fun j c mem => (j.value_letter mem).1
  cases tail : k'.gap' ++ k'.value with
  | nil =>
    rw [← run, tail]
    simp
    omega
  | cons d more =>
    have stop : compChar d = false := k'.behind_letter (by simp [tail])
    rw [tail, List.cons_append, List.takeWhile_cons_of_neg (by simp [stop]), List.append_nil] at run
    rw [run] at behind
    have same := List.append_cancel_left behind
    have le := length_le_span k'.gap'_spaces (letters k') rest'
    rw [same, spanLength_eq k.gap'_spaces (letters k) value (by simp [blank])] at le
    rw [run, ← tail]
    omega

/-! ## Where a match starts -/

/-- In front of the comparator a letter of the attribute and a blank are followed by blanks only. -/
theorem upTo_blank {k : ConstrWord} {x y t : Str} {c d : Char} (e : k.upTo = x ++ c :: ' ' :: (y ++ d :: t))
    (letter : c ≠ ' ' ∧ c ≠ '&') : d = ' ' := by
  have parts : k.upTo = (k.lead ++ k.amp) ++ (k.attr ++ k.gap) := by simp [upTo]
  have front : ∀ a ∈ k.lead ++ k.amp, a = ' ' ∨ a = '&' := by
    intro a mem
    rcases List.mem_append.1 mem with mem | mem
    · exact .inl (k.lead_spaces a mem)
    · rcases k.amp_cases with amp | amp
      · rw [amp] at mem
        cases mem
      · rw [amp] at mem
        exact .inr (List.mem_singleton.1 mem)
  rw [parts] at e
  -- the letter stands behind the lead and the `&`
  obtain ⟨x', rfl, inside⟩ : ∃ x', x = (k.lead ++ k.amp) ++ x' ∧ k.attr ++ k.gap = x' ++ c :: ' ' :: (y ++ d :: t) := by
    rcases List.append_eq_append_iff.1 e with ⟨x', rfl, rest⟩ | ⟨z, lead, rest⟩
    · exact ⟨x', rfl, rest⟩
    · cases z with
      | nil => exact ⟨[], by simpa using lead.symm, by simpa using rest.symm⟩
      | cons a z =>
        obtain ⟨rfl, -⟩ := List.cons.inj rest
        rcases front c (by rw [lead]; simp) with same | same
        · exact absurd same letter.1
        · exact absurd same letter.2
  -- and the blank behind the attribute
  have behind : ∃ z, k.gap = z ++ ' ' :: (y ++ d :: t) := by
    rcases List.append_eq_append_iff.1 inside with ⟨z, -, rest⟩ | ⟨z, attr, rest⟩
    · exact ⟨z ++ [c], by simp [rest]⟩
    · cases z with
      | nil => exact ⟨[c], by simpa using rest.symm⟩
      | cons a z =>
        cases z with
        | nil =>
          obtain ⟨-, more⟩ := List.cons.inj rest
          exact ⟨[], more.symm⟩
        | cons b z =>
          obtain ⟨-, more⟩ := List.cons.inj rest
          obtain ⟨rfl, -⟩ := List.cons.inj more
          exact absurd rfl (k.attr_letter (c := ' ') (by rw [attr]; simp)).1
  obtain ⟨z, gap⟩ := behind
  exact k.gap_spaces d (by rw [gap]; simp)

/-- What stands in front of a word so that no match starts in it. -/
def Apart (pre : Str) (k : ConstrWord) : Prop :=
  pre = [] ∨ (∃ init c, pre = init ++ [c] ∧ c ≠ ' ' ∧ c ≠ '&') ∧ k.lead ≠ []

/-- No word starts in letters without a comparator in front of a word. -/
theorem starts {k k' : ConstrWord} {pre p rest t : Str} (plain : ∀ c ∈ pre, compChar c = false) (apart : Apart pre k)
    (e : pre ++ (k.word ++ rest) = p ++ (k'.word ++ t)) : pre.length ≤ p.length := by
  rcases List.append_eq_append_iff.1 e with ⟨u, rfl, -⟩ | ⟨u, rfl, same⟩
  · simp
  · rcases (List.eq_nil_or_concat u) with rfl | ⟨u, b, rfl⟩
    · simp
    exfalso
    rcases apart with none | ⟨⟨init, c, last, letter⟩, lead⟩
    · simp at none
    rw [List.concat_eq_append, ← List.append_assoc] at last
    obtain ⟨-, same'⟩ := List.append_inj' last rfl
    obtain rfl : b = c := (List.cons.inj same').1
    have inside : ∀ d ∈ u.concat b, compChar d = false := fun d mem => plain d (List.mem_append_right _ mem)
    -- up to the comparator, both words are the same letters
    have upTo := (k.behind_split inside rest).1
    rw [← same, (k'.append_split t).1] at upTo
    obtain ⟨blank, lead', lead_eq⟩ := List.exists_cons_of_ne_nil lead
    obtain rfl : blank = ' ' := k.lead_spaces blank (by rw [lead_eq]; exact List.mem_cons_self)
    obtain ⟨a, attr', attr_eq⟩ := List.exists_cons_of_ne_nil k.attr_ok.letters.1
    have shape : k'.upTo = u ++ b :: ' ' :: (lead' ++ k.amp ++ a :: (attr' ++ k.gap)) := by
      rw [upTo, ConstrWord.upTo, lead_eq, attr_eq]
      simp
    have first : a ≠ ' ' := (k.attr_letter (by rw [attr_eq]; exact List.mem_cons_self)).1
    exact first (upTo_blank shape letter)

/-- The match in a text with a word behind letters without a comparator is the word. -/
theorem found_behind (k : ConstrWord) {pre : Str} (rest : Str) (plain : ∀ c ∈ pre, compChar c = false) (apart : Apart pre k)
    (ends : rest = [] ∨ k.value ≠ [] ∧ rest.head? = some ' ') :
    ∃ g, regexec contRegConstrBase (pre ++ k.word ++ rest) = some ⟨pre.length, k.word.length, g⟩ := by
  obtain ⟨g, parse⟩ := k.matches (i := 0 + pre.length) (t := rest)
  obtain ⟨g', run, -⟩ := search_exists parse (by
    intro p w t e lt g parse'
    obtain ⟨k', rfl, -⟩ := parses_constrBase parse'
    rw [List.append_assoc, List.append_assoc] at e
    exact absurd (starts plain apart e) (Nat.not_le.2 lt)) (by
    intro w t e lt g parse'
    obtain ⟨k', rfl, -⟩ := parses_constrBase parse'
    exact absurd (length_le_blank ends e) (Nat.not_le.2 lt))
  rw [Nat.zero_add] at run
  exact ⟨g', run⟩

end ConstrWord

/-! ## One condition -/

/-- Without a comparator there is no match. -/
theorem constrBase_plain {s : Str} (plain : ∀ c ∈ s, compChar c = false) : regexec contRegConstrBase s = none := by
  refine search_none.2 fun p w t g e parse => ?_
  obtain ⟨k, rfl, -⟩ := parses_constrBase parse
  obtain ⟨ne, letters⟩ := comparator_compChar k.comparator_mem
  obtain ⟨c, more, comparator⟩ := List.exists_cons_of_ne_nil ne
  have inside : c ∈ s := by
    rw [e, ConstrWord.word, comparator]
    simp
  have := letters c (by rw [comparator]; exact List.mem_cons_self)
  rw [plain c inside] at this
  cases this

/-- Letters without a NUL. -/
def NoNul (t : Text) : Prop := Char.ofNat 0 ∉ t.str

/-- Letters without those of a comparator. -/
def Plain (t : Text) : Prop := ∀ c ∈ t.str, compChar c = false

theorem NoNul.append {a b : Text} (ha : NoNul a) (hb : NoNul b) : NoNul (a ++ b) := by
  unfold NoNul at *
  rw [str_append, List.mem_append]
  exact not_or.2 ⟨ha, hb⟩

theorem Plain.append {a b : Text} (ha : Plain a) (hb : Plain b) : Plain (a ++ b) := by
  intro c mem
  rw [str_append] at mem
  exact (List.mem_append.1 mem).elim (ha c) (hb c)

/-- The loop takes the first condition of a text out. -/
theorem cut_one (pre rest : Text) {body : Text} {k : ConstrWord} (word : body.str = k.word) (plain : Plain pre) (noNul : NoNul pre)
    (noNul' : NoNul rest) (apart : ConstrWord.Apart pre.str k) (ends : rest = [] ∨ k.value ≠ [] ∧ rest.str.head? = some ' ') :
    ∃ m, regexec contRegConstrBase (pre ++ (body ++ rest)).cStr = some m ∧
      (pre ++ (body ++ rest)).erase m.so m.len = pre ++ rest ∧
      Extracts (StringMatch.extract constrGroups m (pre ++ (body ++ rest))) k := by
  have str : (pre ++ (body ++ rest)).str = pre.str ++ k.word ++ rest.str := by
    rw [str_append, str_append, word, List.append_assoc]
  have bodyNul : NoNul body := by
    unfold NoNul
    rw [word]
    exact k.noNul
  have read : (pre ++ (body ++ rest)).cStr = pre.str ++ k.word ++ rest.str := by
    rw [cStr_of_noNul (noNul.append (bodyNul.append noNul')), str]
  obtain ⟨g, run⟩ := k.found_behind rest.str plain apart (by
    rcases ends with rfl | ends
    · exact .inl rfl
    · exact .inr ends)
  rw [← read] at run
  refine ⟨_, run, ?_, ?_⟩
  · have length : body.length = k.word.length := by rw [← word, str_length]
    rw [erase, str_length, ← length, List.take_left, ← List.append_assoc, ← List.length_append, List.drop_left]
  · obtain ⟨k', p, t, split, so, len, a, c, v, stored, attr, comparator, value⟩ := constraint_found run
    rw [read, List.append_assoc, List.append_assoc] at split
    obtain ⟨rfl, more⟩ := List.append_inj split so
    obtain ⟨same, -⟩ := List.append_inj more len
    obtain ⟨attrs, comparators, values⟩ := ConstrWord.parts_eq same
    rw [stored]
    constructor
    · exact attr.trans attrs.symm
    · exact comparator.trans comparators.symm
    · exact value.trans values.symm

/-! ## One after the other -/

theorem forall₂_mem {α β : Type} {R : α → β → Prop} {l : List α} {l' : List β} (h : List.Forall₂ R l l') :
    (∀ b ∈ l', ∃ a ∈ l, R a b) ∧ ∀ a ∈ l, ∃ b ∈ l', R a b := by
  induction h with
  | nil => exact ⟨nofun, nofun⟩
  | cons here _ ih =>
    constructor
    · intro b mem
      rcases List.mem_cons.1 mem with rfl | mem
      · exact ⟨_, List.mem_cons_self, here⟩
      · obtain ⟨a, inList, rel⟩ := ih.1 b mem
        exact ⟨a, List.mem_cons_of_mem _ inList, rel⟩
    · intro a mem
      rcases List.mem_cons.1 mem with rfl | mem
      · exact ⟨_, List.mem_cons_self, here⟩
      · obtain ⟨b, inList, rel⟩ := ih.2 a mem
        exact ⟨b, List.mem_cons_of_mem _ inList, rel⟩

/-- What stays of a text, and behind it a condition of the grammar or letters without a comparator. -/
structure Stretch where
  front : Text
  body : Text
  word : Option ConstrWord
  front_plain : Plain front
  front_noNul : NoNul front
  starts : front.str.head? = some ' '
  other : word = none → Plain body ∧ NoNul body
  body_word : ∀ k ∈ word, body.str = k.word
  value_ne : ∀ k ∈ word, k.value ≠ []
  lead_ne : ∀ k ∈ word, k.lead ≠ []
  ends : ∃ init d, front.str = init ++ [d] ∧ d ≠ ' ' ∧ d ≠ '&'

namespace Stretch

def text (c : Stretch) : Text := c.front ++ c.body

/-- What the loop leaves of it. -/
def left (c : Stretch) : Text := if c.word.isSome then c.front else c.text

theorem text_noNul (c : Stretch) : NoNul c.text := by
  refine c.front_noNul.append ?_
  cases word : c.word with
  | none => exact (c.other word).2
  | some k =>
    unfold NoNul
    rw [c.body_word k word]
    exact k.noNul

theorem texts_noNul (l : List Stretch) {tail : Text} (noNul : NoNul tail) : NoNul (l.flatMap text ++ tail) := by
  induction l with
  | nil => exact noNul
  | cons c l ih =>
    rw [List.flatMap_cons, List.append_assoc]
    exact c.text_noNul.append ih

/-- Behind a condition there is a blank or nothing. -/
theorem texts_head (l : List Stretch) {tail : Text} (head : tail = [] ∨ tail.str.head? = some ' ') :
    l.flatMap text ++ tail = [] ∨ (str (l.flatMap text ++ tail)).head? = some ' ' := by
  cases l with
  | nil => exact head
  | cons c l =>
    right
    rw [List.flatMap_cons, text, List.append_assoc, List.append_assoc, str_append, List.head?_append, c.starts]
    rfl

/-- The loop takes the conditions of the grammar out, each from its blanks on. -/
theorem cuts (l : List Stretch) {pre tail : Text} (plain : Plain pre) (noNul : NoNul pre) (plain' : Plain tail)
    (noNul' : NoNul tail) (head : tail = [] ∨ tail.str.head? = some ' ') :
    ∃ cuts, StringMatch.Cuts (regexec contRegConstrBase) (pre ++ (l.flatMap text ++ tail)) cuts
        (pre ++ (l.flatMap left ++ tail)) ∧
      List.Forall₂ (fun c k => Extracts (StringMatch.extract constrGroups c.2 c.1) k) cuts (l.filterMap word) := by
  induction l generalizing pre with
  | nil =>
    refine ⟨[], .stop ?_, .nil⟩
    rw [List.flatMap_nil, List.nil_append, cStr_of_noNul (noNul.append noNul')]
    exact constrBase_plain (plain.append plain')
  | cons c l ih =>
    rw [List.flatMap_cons, List.flatMap_cons, text, left]
    have stays := plain.append c.front_plain
    have stays' := noNul.append c.front_noNul
    cases word : c.word with
    | none =>
      obtain ⟨body, bodyNul⟩ := c.other word
      obtain ⟨cuts, path, extracts⟩ := ih (stays.append body) (stays'.append bodyNul)
      refine ⟨cuts, ?_, by rwa [List.filterMap_cons_none word]⟩
      simpa [text] using path
    | some k =>
      obtain ⟨init, d, last, letter⟩ := c.ends
      obtain ⟨m, found, erased, extract⟩ := cut_one (pre ++ c.front) (l.flatMap text ++ tail) (c.body_word k word)
        stays stays' (texts_noNul l noNul') (.inr ⟨⟨pre.str ++ init, d, by rw [str_append, last, List.append_assoc], letter⟩,
          c.lead_ne k word⟩) ((texts_head l head).imp_right fun blank => ⟨c.value_ne k word, blank⟩)
      obtain ⟨cuts, path, extracts⟩ := ih stays stays'
      rw [← erased] at path
      refine ⟨(pre ++ c.front ++ (c.body ++ (l.flatMap text ++ tail)), m) :: cuts, ?_, ?_⟩
      · have step := StringMatch.Cuts.cut found path
        simpa using step
      · rw [List.filterMap_cons_some word]
        exact .cons extract extracts

end Stretch

namespace SQLQuery

/-- A condition made of a word. -/
structure Reads (c : SQLConstraint) (k : ConstrWord) : Prop where
  attr : c.attr.attr.str = k.attr
  made : SQLAttribute.make c.attr.attr 0 = .ok c.attr
  comparator : c.comparator.str = k.comparator
  value : c.value.str = k.value
  substitute : c.substitute = []

theorem reads_of {groups : List Text} {c : SQLConstraint} {k : ConstrWord} (extracts : Extracts groups k)
    (run : made groups = .ok c) : Reads c k := by
  obtain ⟨makes, comparator, value⟩ := made_ok run
  have attr := (SQLAttribute.make_ok makes).1
  have substitute := congrArg SQLConstraint.substitute (Except.ok.inj ((made_of makes).symm.trans run))
  constructor
  · rw [attr]
    exact extracts.attr
  · rw [attr]
    exact makes
  · rw [comparator]
    exact extracts.comparator
  · rw [value]
    exact extracts.value
  · exact substitute.symm

/-- What was loaded of a text that is cut into words. -/
theorem loadConstraints_words {shape : Shape} {row left left' : Text} {cs : SQLConstraintSet} {cuts : List (Text × Match)}
    {ks : List ConstrWord} (run : loadConstraints shape row = .ok cs left)
    (path : StringMatch.Cuts (regexec contRegConstrBase) row cuts left')
    (extracts : List.Forall₂ (fun c k => Extracts (StringMatch.extract constrGroups c.2 c.1) k) cuts ks) :
    left = left' ∧ ∃ constraints, cs.toList.Perm constraints ∧ List.Forall₂ Reads constraints ks := by
  obtain ⟨cuts', path', inserted⟩ := loadConstraints_iff.1 run
  obtain ⟨rfl, rfl⟩ := path'.unique path
  obtain ⟨constraints, all, elements⟩ := insertConstraints_ok inserted
  refine ⟨rfl, constraints, by simpa using elements, ?_⟩
  clear path path' inserted elements run
  induction extracts generalizing constraints with
  | nil =>
    cases constraints with
    | nil => exact .nil
    | cons c constraints => cases all
  | cons first rest ih =>
    cases constraints with
    | nil => cases all
    | cons c constraints =>
      obtain ⟨one, others⟩ := List.cons.inj all
      exact .cons (reads_of first one) (ih constraints others)

end SQLQuery

end SqlHandler
