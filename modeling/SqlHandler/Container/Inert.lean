import SqlHandler.Container.FirstMatch
import SqlHandler.Container.Residue

/-!
# Texts in front of conditions

A text in front of a part of `[where]` changes what is loaded of the part if and only if a
condition of the grammar begins in it (`Inert`): one that stands in it, or one that letters of
a later row make of its end. The letters in front of an attribute do not count, as they are cut
out with it.
-/

namespace SqlHandler
open Posix Text Stl

/-! ## Texts in which nothing begins -/

/-- A condition begins with the text, or the text begins with one. -/
def Begins (u : Str) : Prop := ∃ (k : ConstrWord) (v q : Str), k.front = [] ∧ u ++ v = k.word ++ q

/-- No condition begins in the text, also not where blanks and `&` are taken from its end. -/
def Inert (w : Str) : Prop :=
  Char.ofNat 0 ∉ w ∧ ∀ p u j, w = p ++ u ++ j → u ≠ [] → (∀ c ∈ j, frontChar c = true) → ¬ Begins u

namespace Inert

theorem take {w f : Str} (h : Inert (w ++ f)) (chars : ∀ c ∈ f, frontChar c = true) : Inert w := by
  refine ⟨fun mem => h.1 (List.mem_append_left _ mem), fun p u j split ne front => ?_⟩
  apply h.2 p u (j ++ f) (by rw [split]; simp) ne
  intro c mem
  exact (List.mem_append.1 mem).elim (front c) (chars c)

/-- No attribute of a condition begins in it. -/
theorem apart {w t p q : Str} {k : ConstrWord} (h : Inert w) (split : w ++ t = p ++ k.word ++ q) :
    w.length ≤ (p ++ k.front).length := by
  by_contra lt
  have e : w ++ t = (p ++ k.front) ++ (k.bare.word ++ q) := by
    rw [split, ConstrWord.word_bare]
    simp
  rcases List.append_eq_append_iff.1 e with ⟨x, same, -⟩ | ⟨u, same, rest⟩
  · rw [same, List.length_append] at lt
    omega
  · refine h.2 (p ++ k.front) u [] (by rw [same, List.append_nil]) ?_ (List.forall_mem_nil _) ⟨k.bare, t, q, rfl, rest.symm⟩
    rintro rfl
    rw [same, List.append_nil] at lt
    exact lt (Nat.le_refl _)

/-- The loop cuts the same behind it. -/
theorem cuts {t left : Text} {cuts : List (Text × Match)} (path : StringMatch.Cuts (regexec contRegConstrBase) t cuts left)
    {w : Text} (h : Inert w.str) : ∃ w' cuts', StringMatch.Cuts (regexec contRegConstrBase) (w ++ t) cuts' (w' ++ left) ∧
      cuts'.map (fun c => StringMatch.extract constrGroups c.2 c.1) = cuts.map fun c => StringMatch.extract constrGroups c.2 c.1 := by
  induction path generalizing w with
  | @stop row nothing =>
    refine ⟨w, [], .stop ?_, rfl⟩
    rw [cStr_append h.1]
    exact none_behind (fun p k q first => h.apart first.split) nothing
  | @cut row m cuts left found rest ih =>
    obtain ⟨w₁, f, m', rfl, chars, found', -, stored, erased⟩ :=
      step_behind h.1 (fun p k q first => h.apart first.split) found
    rw [str_append] at h
    obtain ⟨w', cuts', path', same⟩ := ih (h.take chars)
    rw [← erased] at path'
    exact ⟨w', _, .cut found' path', by rw [List.map_cons, List.map_cons, stored, same]⟩

end Inert

/-! ## What goes on where a text ends -/

theorem bracket_behind {a b : Str} {c : Char} (h : IsConstrVal (a ++ ']' :: c :: b)) : c = ']' ∨ quoteChar c = true := by
  obtain ⟨q, u, m, b', q', split, hq, hu, hm, hb, hq'⟩ := h
  have before : ∀ d ∈ q ++ u ++ m, d ≠ ']' := by
    intro d mem
    rintro rfl
    simp only [List.mem_append] at mem
    rcases mem with (mem | mem) | mem
    · exact absurd (hq _ mem) (by decide)
    · exact absurd (hu _ mem) (by decide)
    · exact absurd (hm _ mem) (by decide)
  have parts : a ++ (']' :: c :: b) = (q ++ u ++ m) ++ (b' ++ q') := by rw [split]; simp
  have inside : c ∈ b' ++ q' := by
    rcases List.append_eq_append_iff.1 parts with ⟨x, same, rest⟩ | ⟨x, -, rest⟩
    · cases x with
      | nil =>
        rw [List.nil_append] at rest
        rw [← rest]
        simp
      | cons d x =>
        obtain ⟨rfl, -⟩ := List.cons.inj rest
        exact absurd rfl (before ']' (by rw [same]; simp))
    · rw [rest]
      simp
  rcases List.mem_append.1 inside with mem | mem
  · exact .inl (hb c mem)
  · exact .inr (hq' c mem)

/-- The first letter of an attribute is no dot. -/
theorem IsConstrAttr.no_dot {a : Str} (h : IsConstrAttr ('.' :: a)) : False := by
  obtain ⟨pre, u, dot, v, split, front, ne, hu, -⟩ := h
  rcases front with rfl | ⟨p, ne', hp, rfl⟩
  · obtain ⟨c, u, rfl⟩ := List.exists_cons_of_ne_nil ne
    obtain ⟨rfl, -⟩ := List.cons.inj split
    exact absurd (hu '.' List.mem_cons_self) (by decide)
  · obtain ⟨c, p, rfl⟩ := List.exists_cons_of_ne_nil ne'
    obtain ⟨rfl, -⟩ := List.cons.inj split
    exact absurd (hp '.' List.mem_cons_self) (by decide)

/-- An attribute that has begun goes on with a name, or with a dot and a name. -/
theorem IsConstrAttr.goes_on {u rest name : Str} (h : IsConstrAttr (u ++ rest)) (begun : u ≠ []) (name_ne : name ≠ [])
    (letters : ∀ c ∈ name, wordChar c = true) : IsConstrAttr (u ++ name) ∨ IsConstrAttr (u ++ '.' :: name) := by
  obtain ⟨pre, x, dot, y, split, front, ne, hx, hdot, hy⟩ := h
  have behind : ∀ z : Str, (∀ c ∈ z, wordChar c = true) → ∀ c ∈ z ++ name, wordChar c = true :=
    fun z hz c mem => (List.mem_append.1 mem).elim (hz c) (letters c)
  rcases List.append_eq_append_iff.1 split with ⟨z, part, -⟩ | ⟨y₁, rfl, rfl⟩
  · rcases List.append_eq_append_iff.1 part with ⟨d, rfl, dots⟩ | ⟨z, part, -⟩
    · have one : d = [] ∨ d = ['.'] := by
        rcases hdot with none | dotted
        · exact .inl (List.append_eq_nil_iff.1 (dots.symm.trans none)).1
        · rw [dotted] at dots
          cases d with
          | nil => exact .inl rfl
          | cons c d =>
            obtain ⟨rfl, nil⟩ := List.cons.inj dots
            obtain ⟨rfl, -⟩ := List.append_eq_nil_iff.1 nil.symm
            exact .inr rfl
      exact .inl ⟨pre, x, d, name, by simp, front, ne, hx, one, letters⟩
    · rcases List.append_eq_append_iff.1 part with ⟨x₁, rfl, rfl⟩ | ⟨z, inFront, -⟩
      · exact .inl ⟨pre, x₁ ++ name, [], [], by simp, front, List.append_ne_nil_of_right_ne_nil _ name_ne,
          behind x₁ fun c mem => hx c (List.mem_append_left _ mem), .inl rfl, List.forall_mem_nil _⟩
      · -- in the letters in front of the dot, or behind that dot
        rcases front with none | ⟨p, ne', hp, dotted⟩
        · exact absurd (List.append_eq_nil_iff.1 (inFront.symm.trans none)).1 begun
        · rw [inFront] at dotted
          rcases List.append_eq_append_iff.1 dotted with ⟨e, rfl, -⟩ | ⟨d, rfl, last⟩
          · exact .inr ⟨u ++ ['.'], name, [], [], by simp, .inr ⟨u, begun, fun c mem => hp c (List.mem_append_left _ mem), rfl⟩,
              name_ne, letters, .inl rfl, List.forall_mem_nil _⟩
          · cases d with
            | nil =>
              rw [List.append_nil]
              exact .inr ⟨p ++ ['.'], name, [], [], by simp, .inr ⟨p, ne', hp, rfl⟩, name_ne, letters, .inl rfl, List.forall_mem_nil _⟩
            | cons c d =>
              obtain ⟨rfl, nil⟩ := List.cons.inj last
              obtain ⟨rfl, -⟩ := List.append_eq_nil_iff.1 nil.symm
              exact .inl ⟨p ++ ['.'], name, [], [], by simp, .inr ⟨p, ne', hp, rfl⟩, name_ne, letters, .inl rfl, List.forall_mem_nil _⟩
  · exact .inl ⟨pre, x, dot, y₁ ++ name, by simp, front, ne, hx, hdot, behind y₁ fun c mem => hy c (List.mem_append_left _ mem)⟩

theorem greater_mem : ['>'] ∈ comparators := by decide

/-- A word of an attribute, `>` and a value. -/
def greater {attr value : Str} (attr_ok : IsConstrAttr attr) (value_ok : IsConstrVal value) : ConstrWord where
  lead := []
  amp := []
  attr := attr
  gap := []
  comparator := ['>']
  gap' := []
  value := value
  lead_spaces := ConstrWord.no_spaces
  amp_cases := ConstrWord.no_amp
  attr_ok := attr_ok
  gap_spaces := ConstrWord.no_spaces
  comparator_mem := greater_mem
  gap'_spaces := ConstrWord.no_spaces
  value_ok := value_ok

theorem greater_word {attr value : Str} (attr_ok : IsConstrAttr attr) (value_ok : IsConstrVal value) :
    (greater attr_ok value_ok).word = attr ++ '>' :: value := by
  simp [ConstrWord.word, ConstrWord.upTo, greater]

theorem emptyVal : IsConstrVal [] :=
  ⟨[], [], [], [], [], rfl, List.forall_mem_nil _, List.forall_mem_nil _, List.forall_mem_nil _, List.forall_mem_nil _, List.forall_mem_nil _⟩

/-- The rest of a name, or of a comparator. -/
def IsTail (name v : Str) : Prop :=
  v = name ++ ['>'] ∨ v = '.' :: (name ++ ['>']) ∨ (v ≠ [] ∧ ∀ c ∈ v, compChar c = true)

/-- Where a condition begins there is one, or it goes on where the text, but for blanks, ends. -/
theorem Begins.goes_on {u name : Str} (h : Begins u) (ne : u ≠ []) (name_ne : name ≠ []) (letters : ∀ c ∈ name, wordChar c = true) :
    (∃ p k q, u = p ++ ConstrWord.word k ++ q) ∨ ∃ u' g v, u = u' ++ g ∧ (∀ c ∈ g, c = ' ') ∧ u' ≠ [] ∧ IsTail name v ∧
      (∃ k : ConstrWord, k.front = [] ∧ u' ++ v = k.word) ∧ ∀ c ∈ u'.getLast?, frontChar c = false := by
  obtain ⟨k, v, q, none, e⟩ := h
  let core : ConstrWord :=
    { k with
      gap' := []
      value := []
      gap'_spaces := List.forall_mem_nil _
      value_ok := emptyVal }
  have core_word : core.word = (k.attr ++ k.gap) ++ k.comparator := by
    have lead : k.lead = [] := (List.append_eq_nil_iff.1 none).1
    have amp : k.amp = [] := (List.append_eq_nil_iff.1 none).2
    simp [ConstrWord.word, ConstrWord.upTo, core, lead, amp]
  have parts : u ++ v = core.word ++ (k.gap' ++ k.value ++ q) := by
    rw [e]
    simp [ConstrWord.word, core, ConstrWord.upTo]
  -- the attribute has begun
  have named : ∀ u' g rest : Str, u = u' ++ g → (∀ c ∈ g, c = ' ') → u' ≠ [] → IsConstrAttr (u' ++ rest) →
      ∃ u' g v, u = u' ++ g ∧ (∀ c ∈ g, c = ' ') ∧ u' ≠ [] ∧ IsTail name v ∧
        (∃ k : ConstrWord, k.front = [] ∧ u' ++ v = k.word) ∧ ∀ c ∈ u'.getLast?, frontChar c = false := by
    intro u' g rest split blanks begun attr
    have last : ∀ c ∈ u'.getLast?, frontChar c = false := by
      intro c mem
      exact (greater attr emptyVal).attr_front (List.mem_append_left _ (List.mem_of_getLast? mem))
    rcases attr.goes_on begun name_ne letters with attr' | attr'
    · exact ⟨u', g, name ++ ['>'], split, blanks, begun, .inl rfl, ⟨greater attr' emptyVal, rfl, by rw [greater_word]; simp⟩, last⟩
    · exact ⟨u', g, '.' :: (name ++ ['>']), split, blanks, begun, .inr (.inl rfl),
        ⟨greater attr' emptyVal, rfl, by rw [greater_word]; simp⟩, last⟩
  rcases List.append_eq_append_iff.1 parts with ⟨z, inside, -⟩ | ⟨z, rfl, -⟩
  · rw [core_word] at inside
    rcases List.append_eq_append_iff.1 inside with ⟨c, rfl, comp⟩ | ⟨c, same, -⟩
    · cases c with
      | nil =>
        exact .inr (named k.attr k.gap [] (List.append_nil _) k.gap_spaces k.attr_ok.letters.1
          (by rw [List.append_nil]; exact k.attr_ok))
      | cons d c =>
        cases z with
        | nil =>
          refine .inl ⟨[], core, [], ?_⟩
          rw [core_word, comp]
          simp
        | cons b z =>
          obtain ⟨-, all⟩ := comparator_compChar k.comparator_mem
          rw [comp] at all
          refine .inr ⟨_, [], b :: z, (List.append_nil _).symm, List.forall_mem_nil _, by simp,
            .inr (.inr ⟨by simp, fun x mem => all x (List.mem_append_right _ mem)⟩), ⟨core, none, ?_⟩, ?_⟩
          · rw [core_word, comp, List.append_assoc]
          · intro x mem
            rw [List.getLast?_append_of_ne_nil _ (List.cons_ne_nil d c)] at mem
            have comps := all x (List.mem_append_left _ (List.mem_of_getLast? mem))
            cases front : frontChar x with
            | false => rfl
            | true =>
              simp only [frontChar, Bool.or_eq_true, beq_iff_eq] at front
              rcases front with rfl | rfl <;> exact absurd comps (by decide)
    · rcases List.append_eq_append_iff.1 same.symm with ⟨x, attr, -⟩ | ⟨g, rfl, gap⟩
      · exact .inr (named u [] x (List.append_nil u).symm (List.forall_mem_nil _) ne (attr ▸ k.attr_ok))
      · exact .inr (named k.attr g [] rfl (fun d mem => k.gap_spaces d (by rw [gap]; exact List.mem_append_left _ mem))
          k.attr_ok.letters.1 (by rw [List.append_nil]; exact k.attr_ok))
  · exact .inl ⟨[], core, z, rfl⟩

namespace SQLTextContainer
variable (rt : Runtime)

theorem constraintsOf_cuts {row left : Text} {cuts : List (Text × Match)}
    (path : StringMatch.Cuts (regexec contRegConstrBase) row cuts left) : constraintsOf rt row =
      SQLQuery.insertConstraints rt.shape .leaf (cuts.map fun c => StringMatch.extract constrGroups c.2 c.1) := by
  have run : StringMatch.matchVector (regexec contRegConstrBase) constrGroups row = .ok _ left :=
    (StringMatch.matchVector_iff constrBase_cutting).2 ⟨cuts, path, rfl⟩
  have opened : SQLQuery.loadConstraints rt.shape = (StringMatch.matchVector (regexec contRegConstrBase) constrGroups >>=
      fun found => Proc.lift (SQLQuery.insertConstraints rt.shape .leaf found)) := rfl
  unfold constraintsOf
  rw [opened, Proc.bind_ok run]
  cases SQLQuery.insertConstraints rt.shape .leaf (cuts.map fun c => StringMatch.extract constrGroups c.2 c.1) <;> rfl

/-- Behind a text in which nothing begins the same conditions are loaded. -/
theorem constraintsOf_inert {w : Text} (h : Inert w.str) (t : Text) : constraintsOf rt (w ++ t) = constraintsOf rt t := by
  obtain ⟨cuts, left, path⟩ := StringMatch.cuts_exist constrBase_cutting t
  obtain ⟨w', cuts', path', same⟩ := h.cuts path
  rw [constraintsOf_cuts rt path, constraintsOf_cuts rt path', same]

end SQLTextContainer

end SqlHandler
