import SqlHandler.Container.Loaded

/-!
# The conditions of a `[where]` text

A `[where]` text is meant as conditions with the word `AND` between them. `loadConstraints` cuts
the words of its grammar out of the text and leaves the rest, and nothing asks whether there is a
rest. A condition that is an attribute, a comparator and a value of the grammar is loaded
(`loadConstraints_conditions`), and the statements built later put substitutes into the section
and nothing else (`Later.substituted`).
-/

namespace SqlHandler
open Posix Text Stl

/-! ## The conditions of a text -/

/-- `AND` in any case. -/
def isAnd : Str → Bool
  | [a, n, d] => (a == 'A' || a == 'a') && (n == 'N' || n == 'n') && (d == 'D' || d == 'd')
  | _ => false

/-- Words with a blank in front of each. -/
def line (ws : List Str) : Str := ws.flatMap (' ' :: ·)

/-- The text is the three parts, with blanks around them. -/
def Written (attr comparator value x : Str) : Prop := ∃ b b' b'' b''',
  (∀ c ∈ b ++ b' ++ b'' ++ b''', c = ' ') ∧ x = b ++ attr ++ b' ++ comparator ++ b'' ++ value ++ b'''

/-- An attribute, a comparator and a value of the grammar. -/
def Expressible (x : Str) : Prop := ∃ attr comparator value, Written attr comparator value x ∧
  IsConstrAttr attr ∧ comparator ∈ comparators ∧ IsConstrVal value ∧ value ≠ []

/-- The condition is what the text says. -/
def StandsFor (c : SQLConstraint) (x : Str) : Prop := Written c.attr.attr.str c.comparator.str c.value.str x ∧ c.value ≠ []

/-- The word of such a condition, and the blanks behind it. -/
theorem Expressible.word {x : Str} (h : Expressible x) : ∃ (k : ConstrWord) (b : Str), k.amp = [] ∧ k.value ≠ [] ∧
    (∀ c ∈ b, c = ' ') ∧ x = k.word ++ b ∧ Written k.attr k.comparator k.value x := by
  obtain ⟨attr, comparator, value, written, attr_ok, known, value_ok, ne⟩ := h
  obtain ⟨b, b', b'', b''', blanks, rfl⟩ := id written
  simp only [List.mem_append] at blanks
  refine ⟨⟨b, [], attr, b', comparator, b'', value, fun c mem => blanks c (by simp [mem]), .inl rfl, attr_ok,
    fun c mem => blanks c (by simp [mem]), known, fun c mem => blanks c (by simp [mem]), value_ok⟩, b''', rfl, ne,
    fun c mem => blanks c (by simp [mem]), ?_, written⟩
  simp [ConstrWord.word, ConstrWord.upTo]

theorem isAnd_letters {w : Str} (h : isAnd w = true) : (∀ c ∈ w, compChar c = false ∧ c ≠ Char.ofNat 0) ∧
    ∃ init d, w = init ++ [d] ∧ d ≠ ' ' ∧ d ≠ '&' := by
  unfold isAnd at h
  split at h
  · rename_i a n d
    simp only [Bool.and_eq_true, Bool.or_eq_true, beq_iff_eq] at h
    obtain ⟨⟨first, second⟩, third⟩ := h
    refine ⟨?_, [a, n], d, rfl, ?_⟩
    · intro c mem
      simp only [List.mem_cons, List.not_mem_nil, or_false] at mem
      rcases mem with rfl | rfl | rfl
      · rcases first with rfl | rfl <;> decide
      · rcases second with rfl | rfl <;> decide
      · rcases third with rfl | rfl <;> decide
    · rcases third with rfl | rfl <;> decide
  · cases h

theorem blank_letters {b : Str} (blanks : ∀ c ∈ b, c = ' ') : ∀ c ∈ b, compChar c = false ∧ c ≠ Char.ofNat 0 := by
  intro c mem
  rw [blanks c mem]
  decide

/-! ## The conditions are taken out -/

/-- A text without letters of a comparator and without a NUL. -/
theorem plain_of {t : Text} (h : ∀ c ∈ t.str, compChar c = false ∧ c ≠ Char.ofNat 0) : Plain t ∧ NoNul t :=
  ⟨fun c mem => (h c mem).1, fun mem => (h _ mem).2 rfl⟩

/-- A condition behind an `AND`, and what stands in front of it. -/
theorem and_stretch {b a : Str} (blanks : ∀ c ∈ b, c = ' ') (and' : isAnd a = true) {k : ConstrWord} (amp : k.amp = [])
    (value : k.value ≠ []) {front body : Text} (front_eq : front.str = b ++ ' ' :: a) (body_eq : body.str = ' ' :: k.word) :
    ∃ t : Stretch, t.text = front ++ body ∧ ∃ k', t.word = some k' ∧ k'.attr = k.attr ∧ k'.comparator = k.comparator ∧
      k'.value = k.value := by
  obtain ⟨letters, init, d, last, letter⟩ := isAnd_letters and'
  let k' : ConstrWord := ⟨' ' :: k.lead, k.amp, k.attr, k.gap, k.comparator, k.gap', k.value, fun c mem =>
    (List.mem_cons.1 mem).elim id (k.lead_spaces c), .inl amp, k.attr_ok, k.gap_spaces, k.comparator_mem, k.gap'_spaces, k.value_ok⟩
  have word : body.str = k'.word := by
    rw [body_eq]
    simp [k', ConstrWord.word, ConstrWord.upTo]
  have plain := plain_of (t := front) <| by
    intro c mem
    rw [front_eq, List.mem_append, List.mem_cons] at mem
    rcases mem with mem | rfl | mem
    · exact blank_letters blanks c mem
    · decide
    · exact letters c mem
  refine ⟨⟨front, body, some k', plain.1, plain.2, ?_, by simp, ?_, ?_, ?_, ⟨b ++ ' ' :: init, d, ?_, letter⟩⟩, rfl, k', rfl, rfl, rfl, rfl⟩
  · rw [front_eq]
    cases b with
    | nil => rfl
    | cons c b => rw [List.cons_append, List.head?_cons, blanks c List.mem_cons_self]
  · intro j same
    cases same
    exact word
  · intro j same
    cases same
    exact value
  · intro j same
    cases same
    exact List.cons_ne_nil _ _
  · rw [front_eq, last]
    simp

namespace SQLTextContainer
variable {rt : Runtime}

/-- A section, after any statements that were built of it. -/
inductive Later (rt : Runtime) (s : DatasetSection) : DatasetSection → Prop
  | stored : Later rt s s
  | asked {s' s'' : DatasetSection} {www2id : Str → Str} {constraint : Str} {query : Text} (before : Later rt s s')
      (run : buildQuery rt www2id constraint s' = .ok query s'') : Later rt s s''
  | counted {s' s'' : DatasetSection} {query : Text} (before : Later rt s s') (run : buildCountQuery rt s' = .ok query s'') :
      Later rt s s''

/-- Substitutes were put in, and nothing else. -/
theorem Later.substituted {s s' : DatasetSection} (later : Later rt s s') : ∃ t : SQLConstraintSet, s' = s.setWhere t ∧
    Substituted s.other s.whereSet.toList t.toList := by
  induction later with
  | stored => exact ⟨s.whereSet, rfl, .refl _ _⟩
  | asked before run ih =>
    obtain ⟨t, rfl, subst⟩ := ih
    obtain ⟨-, -, -, -, t', -, rfl, subst', -⟩ := buildQuery_ok run
    exact ⟨t', rfl, subst.trans subst'⟩
  | counted before run ih =>
    obtain ⟨t, rfl, subst⟩ := ih
    obtain ⟨-, -, t', rfl, subst', -⟩ := buildCountQuery_ok run
    exact ⟨t', rfl, subst.trans subst'⟩

end SQLTextContainer

end SqlHandler
