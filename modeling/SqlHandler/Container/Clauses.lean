import SqlHandler.Container.Names

/-!
# The conditions of a request

`loadConstraints` cuts the matches of `_SQLH_CONT_REG_CONSTR_BASE` out of a text. A word of
the grammar in front of a `&`, or at the end, is cut out whole: no longer word starts where
it starts (`ConstrWord.length_le`). So a chain of such words is read word by word
(`words_cut`), and what is read is always a word of the grammar.
-/

namespace SqlHandler
open Posix Text Stl

namespace ConstrWord

theorem behind_ne (k : ConstrWord) {c : Char} (h : c ∈ k.gap' ++ k.value) : c ≠ '&' := by
  rcases List.mem_append.1 h with h | h
  · rw [k.gap'_spaces c h]
    decide
  · exact (k.value_letter h).2.1

/-- A word with something behind it: up to the comparator, and from there. -/
theorem append_split (k : ConstrWord) (rest : Str) :
    (k.word ++ rest).takeWhile (!compChar ·) = k.upTo ∧
      (k.word ++ rest).dropWhile (!compChar ·) = k.comparator ++ (k.gap' ++ k.value ++ rest) := by
  have comp := comparator_compChar k.comparator_mem
  have word : k.word ++ rest = k.upTo ++ (k.comparator ++ (k.gap' ++ k.value ++ rest)) := by
    simp [ConstrWord.word]
  rw [word]
  apply run_split
  · intro c h
    simp [k.upTo_letter h]
  · intro c h
    obtain ⟨d, more, e⟩ := List.exists_cons_of_ne_nil comp.1
    rw [e] at h
    cases h
    have first : compChar c = true := comp.2 c (by simp [e])
    simp [first]

/-- No longer word starts where a word in front of a `&` starts. -/
theorem length_le {k k' : ConstrWord} {rest rest' : Str} (ends : ∀ c ∈ rest.head?, c = '&')
    (e : k.word ++ rest = k'.word ++ rest') : k'.word.length ≤ k.word.length := by
  obtain ⟨before, onward⟩ := k.append_split rest
  obtain ⟨before', from'⟩ := k'.append_split rest'
  rw [e] at before onward
  have upTo : k'.upTo = k.upTo := before'.symm.trans before
  have behind := from'.symm.trans onward
  have length : ∀ j : ConstrWord, j.word.length = j.upTo.length + j.comparator.length + (j.gap' ++ j.value).length := by
    intro j
    simp [ConstrWord.word]
    omega
  rw [length k, length k', upTo]
  -- the comparator is the run of its letters
  have run : (k.comparator ++ (k.gap' ++ k.value ++ rest)).takeWhile compChar = k.comparator := by
    refine (run_split (comparator_compChar k.comparator_mem).2 ?_).1
    intro c h
    have mem := List.mem_of_mem_head? h
    cases tail : k.gap' ++ k.value with
    | nil =>
      rw [tail, List.nil_append] at h
      rw [ends c h]
      decide
    | cons d more =>
      rw [tail, List.cons_append, List.head?_cons] at h
      cases h
      exact k.behind_letter (by simp [tail])
  rw [← behind, List.takeWhile_append_of_pos (comparator_compChar k'.comparator_mem).2] at run
  cases tail : k'.gap' ++ k'.value with
  | nil =>
    rw [← run]
    simp
    omega
  | cons d more =>
    have stop : compChar d = false := k'.behind_letter (by simp [tail])
    rw [tail, List.cons_append, List.takeWhile_cons_of_neg (by simp [stop]), List.append_nil] at run
    rw [run, tail] at behind
    have behind := List.append_cancel_left behind
    have cut : (k.gap' ++ k.value ++ rest).takeWhile (· != '&') = k.gap' ++ k.value := by
      refine (run_split ?_ ?_).1
      · intro c h
        simpa using k.behind_ne h
      · intro c h
        simp [ends c h]
    rw [← behind, List.takeWhile_append_of_pos] at cut
    · rw [run, ← cut]
      simp
    · intro c h
      rw [← tail] at h
      simpa using k'.behind_ne h

/-- The match in a word in front of a `&`, or at the end, is the word. -/
theorem found (k : ConstrWord) {rest : Str} (ends : ∀ c ∈ rest.head?, c = '&') :
    ∃ g, regexec contRegConstrBase (k.word ++ rest) = some ⟨0, k.word.length, g⟩ := by
  obtain ⟨g, parse⟩ := k.matches (i := 0) (t := rest)
  obtain ⟨g', run, -⟩ := search_exists (p := []) (i := 0) parse (by simp) (by
    intro w' t' e lt g parse'
    obtain ⟨k', rfl, -⟩ := parses_constrBase parse'
    have le := length_le ends e
    omega)
  exact ⟨g', by simpa [regexec] using run⟩

end ConstrWord

/-! ## A chain of words -/

theorem compChar_nul : compChar (Char.ofNat 0) = false := by decide

theorem ConstrWord.noNul (k : ConstrWord) : Char.ofNat 0 ∉ k.word := by
  intro h
  simp only [ConstrWord.word, ConstrWord.upTo, List.mem_append] at h
  rcases h with ((((h | h) | h) | h) | h) | h | h
  · exact absurd (k.lead_spaces _ h) (by decide)
  · rcases k.amp_cases with e | e
    · rw [e] at h
      cases h
    · rw [e] at h
      exact absurd (List.mem_singleton.1 h) (by decide)
  · rcases k.attr_ok.letters.2 _ h with h | h
    · exact absurd h (by decide)
    · exact absurd h (by decide)
  · exact absurd (k.gap_spaces _ h) (by decide)
  · have letter := (comparator_compChar k.comparator_mem).2 _ h
    rw [compChar_nul] at letter
    cases letter
  · exact absurd (k.gap'_spaces _ h) (by decide)
  · exact absurd (k.value_ok.letters _ h) (by decide)

/-- What `loadConstraints` takes of a match. -/
structure Extracts (groups : List Text) (k : ConstrWord) : Prop where
  attr : (groups.getD 0 []).str = k.attr
  comparator : (groups.getD 1 []).str = k.comparator
  value : (groups.getD 2 []).str = k.value

theorem constrBase_nil : regexec contRegConstrBase [] = none := by
  cases found : regexec contRegConstrBase [] with
  | none => rfl
  | some m =>
    have := constrBase_cutting _ _ found
    simp only [List.length_nil] at this
    omega

/-- A chain of words, each behind a `&` but the first, is cut word by word. -/
theorem words_cut {ks : List ConstrWord} (chained : ∀ k ∈ ks.tail, k.front = ['&']) {row : Text}
    (e : row.str = ks.flatMap ConstrWord.word) :
    ∃ cuts left, StringMatch.Cuts (regexec contRegConstrBase) row cuts left ∧
      List.Forall₂ (fun c k => Extracts (StringMatch.extract constrGroups c.2 c.1) k) cuts ks := by
  have read : row.cStr = ks.flatMap ConstrWord.word := by
    rw [cStr_of_noNul, e]
    rw [e]
    intro h
    obtain ⟨k, -, h⟩ := List.mem_flatMap.1 h
    exact k.noNul h
  induction ks generalizing row with
  | nil =>
    refine ⟨[], row, .stop ?_, .nil⟩
    rw [read]
    exact constrBase_nil
  | cons k ks ih =>
    rw [List.flatMap_cons] at e read
    have ends : ∀ c ∈ (ks.flatMap ConstrWord.word).head?, c = '&' := by
      intro c h
      cases ks with
      | nil => cases h
      | cons k' ks =>
        have front : k'.front = ['&'] := chained k' (by simp)
        rw [List.flatMap_cons, ConstrWord.word, ConstrWord.upTo, ← ConstrWord.front, front] at h
        simpa using h.symm
    obtain ⟨g, run⟩ := k.found ends
    rw [← read] at run
    have dropped : (row.erase 0 k.word.length).str = ks.flatMap ConstrWord.word := by
      rw [str_erase, e]
      simp
    have read' : (row.erase 0 k.word.length).cStr = ks.flatMap ConstrWord.word := by
      rw [cStr_of_noNul, dropped]
      rw [dropped]
      intro h
      obtain ⟨k', -, h⟩ := List.mem_flatMap.1 h
      exact k'.noNul h
    obtain ⟨cuts, left, path, extracts⟩ := ih (fun k' mem => chained k' (List.mem_of_mem_tail mem)) dropped read'
    obtain ⟨k', p, t, word, so, len, a, c, v, stored, attr, comparator, value⟩ := constraint_found run
    have first : p = [] := List.eq_nil_of_length_eq_zero so.symm
    have same : k'.word = k.word := by
      rw [read, first, List.nil_append] at word
      exact (List.append_inj word len).1.symm
    obtain ⟨attrs, comparators, values⟩ := ConstrWord.parts_eq same
    refine ⟨(row, ⟨0, k.word.length, g⟩) :: cuts, left, .cut run path, .cons ?_ extracts⟩
    rw [stored]
    constructor
    · exact attr.trans attrs
    · exact comparator.trans comparators
    · exact value.trans values

/-! ## The constraints made -/

namespace SQLConstraint

/-- A set of constraints keeps every constraint put in. -/
theorem less_total (a c : SQLConstraint) (h : less a c = false) : less c a = true := by
  unfold less at *
  split at h
  · rename_i greater
    rw [if_neg]
    intro smaller
    exact lt_asymm greater.1 smaller.1
  · cases h

/-- The texts of a constraint: attribute, look-up name, comparator and value. -/
def reading (c : SQLConstraint) : Str × Str × Str × Str := (c.attr.attr.str, c.attr.name.str, c.comparator.str, c.value.str)

end SQLConstraint

namespace SQLQuery
variable {shape : Shape}

/-- The constraint made of a match. -/
def made (groups : List Text) : Except Fault SQLConstraint :=
  SQLConstraint.make (groups.getD 0 []) (groups.getD 1 []) (groups.getD 2 [])

theorem made_ok {groups : List Text} {c : SQLConstraint} (h : made groups = .ok c) :
    SQLAttribute.make (groups.getD 0 []) 0 = .ok c.attr ∧ c.comparator = groups.getD 1 [] ∧ c.value = groups.getD 2 [] := by
  unfold made SQLConstraint.make at h
  cases run : SQLAttribute.make (groups.getD 0 []) 0 with
  | error fault =>
    rw [run] at h
    cases h
  | ok a =>
    rw [run] at h
    cases h
    exact ⟨rfl, rfl, rfl⟩

theorem made_of {groups : List Text} {a : SQLAttribute} (h : SQLAttribute.make (groups.getD 0 []) 0 = .ok a) :
    made groups = .ok ⟨a, groups.getD 1 [], [], groups.getD 2 []⟩ := by
  unfold made SQLConstraint.make
  rw [h]
  rfl

theorem insertConstraints_ok {ret cs : SQLConstraintSet} {found : List (List Text)}
    (h : insertConstraints shape ret found = .ok cs) :
    ∃ constraints, found.map made = constraints.map .ok ∧ cs.toList.Perm (ret.toList ++ constraints) := by
  induction found generalizing ret with
  | nil =>
    cases h
    exact ⟨[], rfl, by simp⟩
  | cons groups found ih =>
    cases first : made groups with
    | error fault =>
      rw [insertConstraints, show SQLConstraint.make _ _ _ = _ from first] at h
      cases h
    | ok c =>
      rw [insertConstraints, show SQLConstraint.make _ _ _ = _ from first] at h
      obtain ⟨constraints, all, perm⟩ := ih h
      refine ⟨c :: constraints, by rw [List.map_cons, List.map_cons, first, all], ?_⟩
      have one : ((insert shape SQLConstraint.less c ret).toList ++ constraints).Perm (c :: ret.toList ++ constraints) :=
        (insert_perm shape SQLConstraint.less_total c ret).append_right constraints
      exact (perm.trans one).trans List.perm_middle.symm

theorem insertConstraints_of {found : List (List Text)} {constraints : List SQLConstraint}
    (all : found.map made = constraints.map .ok) (ret : SQLConstraintSet) :
    ∃ cs, insertConstraints shape ret found = .ok cs := by
  induction found generalizing constraints ret with
  | nil => exact ⟨ret, rfl⟩
  | cons groups found ih =>
    cases constraints with
    | nil => cases all
    | cons c constraints =>
      obtain ⟨first, rest⟩ := List.cons.inj all
      obtain ⟨cs, run⟩ := ih rest (insert shape SQLConstraint.less c ret)
      refine ⟨cs, ?_⟩
      rw [insertConstraints, show SQLConstraint.make _ _ _ = _ from first]
      exact run

/-- What `loadConstraints` returned: the constraints made of the matches cut out. -/
theorem loadConstraints_iff {row left : Text} {cs : SQLConstraintSet} :
    loadConstraints shape row = .ok cs left ↔ ∃ cuts, StringMatch.Cuts (regexec contRegConstrBase) row cuts left ∧
      insertConstraints shape .leaf (cuts.map fun c => StringMatch.extract constrGroups c.2 c.1) = .ok cs := by
  have opened : loadConstraints shape = (StringMatch.matchVector (regexec contRegConstrBase) constrGroups >>=
      fun found => Proc.lift (insertConstraints shape .leaf found)) := rfl
  rw [opened]
  constructor
  · intro h
    obtain ⟨found, t, first, last⟩ := Proc.of_bind_ok h
    obtain ⟨cuts, path, rfl⟩ := (StringMatch.matchVector_iff constrBase_cutting).1 first
    refine ⟨cuts, ?_⟩
    cases inserted : insertConstraints shape .leaf (cuts.map fun c => StringMatch.extract constrGroups c.2 c.1) with
    | error fault =>
      rw [inserted] at last
      cases last
    | ok cs' =>
      rw [inserted] at last
      cases last
      exact ⟨path, rfl⟩
  · rintro ⟨cuts, path, inserted⟩
    rw [Proc.bind_ok ((StringMatch.matchVector_iff constrBase_cutting).2 ⟨cuts, path, rfl⟩), inserted]
    rfl

end SQLQuery

/-! ## Clauses -/

/-- A letter or `_`, and letters, digits or `_` behind it. -/
def IsIdentifier (x : Str) : Prop :=
  ∃ c rest, x = c :: rest ∧ (wordChar c = true ∧ digit c = false) ∧ ∀ d ∈ rest, wordChar d = true

/-- A decimal number with or without a sign. -/
def IsNumber (v : Str) : Prop :=
  ∃ sign whole fraction, v = sign ++ whole ++ fraction ∧ (sign = [] ∨ sign = ['+'] ∨ sign = ['-']) ∧
    (whole ≠ [] ∧ ∀ c ∈ whole, digit c = true) ∧
    (fraction = [] ∨ ∃ digits, fraction = '.' :: digits ∧ digits ≠ [] ∧ ∀ c ∈ digits, digit c = true)

/-- A string between quotes that it does not hold. -/
def IsQuoted (v : Str) : Prop := ∃ q body, v = q :: (body ++ [q]) ∧ (q = '\'' ∨ q = '"') ∧ q ∉ body

/-- A condition of a request. -/
structure Clause where
  name : AttrPath
  comparator : Str
  value : Str
  identifiers : ∀ x ∈ name.init ++ [name.last], IsIdentifier x
  comparator_mem : comparator ∈ comparators
  value_ok : IsNumber value ∨ IsQuoted value

namespace Clause

def text (k : Clause) : Str := k.name.text ++ k.comparator ++ k.value

/-- What the clause asks for: attribute, look-up name, comparator and value. -/
def reading (k : Clause) : Str × Str × Str × Str := (k.name.text, k.name.last, k.comparator, k.value)

/-- The clauses joined by `&`. -/
def joined (clauses : List Clause) : Str := ['&'].intercalate (clauses.map text)

/-- `loadConstraints` returns the clauses and nothing else. -/
def Exact (shape : Shape) (origin : Origin) (clauses : List Clause) : Prop :=
  ∃ cs left, SQLQuery.loadConstraints shape (of origin (joined clauses)) = .ok cs left ∧
    (cs.toList.map SQLConstraint.reading).Perm (clauses.map reading)

/-- The word of a clause in the grammar, behind what stands in front of it. -/
def word (k : Clause) (amp : Str) (amp_cases : amp = [] ∨ amp = ['&']) (attr_ok : IsConstrAttr k.name.text)
    (value_ok : IsConstrVal k.value) : ConstrWord where
  lead := []
  amp := amp
  attr := k.name.text
  gap := []
  comparator := k.comparator
  gap' := []
  value := k.value
  lead_spaces := by simp
  amp_cases := amp_cases
  attr_ok := attr_ok
  gap_spaces := by simp
  comparator_mem := k.comparator_mem
  gap'_spaces := by simp
  value_ok := value_ok

theorem joined_cons (k : Clause) (more : List Clause) :
    joined (k :: more) = k.text ++ more.flatMap fun k => '&' :: k.text := by
  unfold joined
  induction more generalizing k with
  | nil => simp [List.intercalate]
  | cons k' more ih =>
    rw [List.map_cons, List.map_cons, List.flatMap_cons, List.intercalate_cons_cons, ← List.map_cons, ih]
    simp

/-- Clauses of the grammar, as the words of a chain. -/
theorem chain {clauses : List Clause} (h : ∀ k ∈ clauses, IsConstrAttr k.name.text ∧ IsConstrVal k.value) :
    ∃ ks : List ConstrWord, joined clauses = ks.flatMap ConstrWord.word ∧ (∀ k ∈ ks.tail, k.front = ['&']) ∧
      List.Forall₂ (fun w k => w.attr = k.name.text ∧ w.comparator = k.comparator ∧ w.value = k.value) ks clauses := by
  have behind : ∀ more : List Clause, (∀ k ∈ more, IsConstrAttr k.name.text ∧ IsConstrVal k.value) →
      ∃ ks : List ConstrWord, (more.flatMap fun k => '&' :: k.text) = ks.flatMap ConstrWord.word ∧
        (∀ k ∈ ks, k.front = ['&']) ∧
        List.Forall₂ (fun w k => w.attr = k.name.text ∧ w.comparator = k.comparator ∧ w.value = k.value) ks more := by
    intro more
    induction more with
    | nil => exact fun _ => ⟨[], rfl, by simp, .nil⟩
    | cons k more ih =>
      intro ok
      obtain ⟨attr, value⟩ := ok k List.mem_cons_self
      obtain ⟨ks, text, front, all⟩ := ih fun k' mem => ok k' (List.mem_cons_of_mem _ mem)
      refine ⟨k.word ['&'] (.inr rfl) attr value :: ks, ?_, ?_, .cons ⟨rfl, rfl, rfl⟩ all⟩
      · rw [List.flatMap_cons, List.flatMap_cons, text]
        simp [word, ConstrWord.word, ConstrWord.upTo, Clause.text]
      · intro k' mem
        rcases List.mem_cons.1 mem with rfl | mem
        · rfl
        · exact front k' mem
  cases clauses with
  | nil => exact ⟨[], by simp [joined, List.intercalate], by simp, .nil⟩
  | cons k more =>
    obtain ⟨attr, value⟩ := h k List.mem_cons_self
    obtain ⟨ks, text, front, all⟩ := behind more fun k' mem => h k' (List.mem_cons_of_mem _ mem)
    refine ⟨k.word [] (.inl rfl) attr value :: ks, ?_, front, .cons ⟨rfl, rfl, rfl⟩ all⟩
    rw [joined_cons, List.flatMap_cons, text]
    simp [word, ConstrWord.word, ConstrWord.upTo, Clause.text]

/-- The constraint made of a clause's match. -/
theorem read_of {groups : List Text} {w : ConstrWord} {k : Clause} (extracts : Extracts groups w)
    (same : w.attr = k.name.text ∧ w.comparator = k.comparator ∧ w.value = k.value) :
    ∃ c, SQLQuery.made groups = .ok c ∧ c.reading = k.reading := by
  obtain ⟨a, run, attr, -, name⟩ := SQLAttribute.make_path (extracts.attr.trans same.1) 0
  refine ⟨_, SQLQuery.made_of run, ?_⟩
  simp only [SQLConstraint.reading, reading, attr, name, extracts.attr, extracts.comparator, extracts.value, same]

/-- A clause that was read is one of the grammar. -/
theorem grammar_of_made {row left : Text} {cuts : List (Text × Match)}
    (path : StringMatch.Cuts (regexec contRegConstrBase) row cuts left) {constraints : List SQLConstraint}
    (all : (cuts.map fun c => StringMatch.extract constrGroups c.2 c.1).map SQLQuery.made = constraints.map .ok)
    {k : Clause} (mem : k.reading ∈ constraints.map SQLConstraint.reading) :
    IsConstrAttr k.name.text ∧ IsConstrVal k.value := by
  obtain ⟨c, inConstraints, same⟩ := List.mem_map.1 mem
  have made : Except.ok c ∈ constraints.map (Except.ok (ε := Fault)) := List.mem_map_of_mem inConstraints
  rw [← all, List.map_map] at made
  obtain ⟨cut, inCuts, run⟩ := List.mem_map.1 made
  obtain ⟨w, p, t, -, -, -, a, comparator, v, stored, attr, -, value⟩ := constraint_found (path.found cut inCuts)
  obtain ⟨makes, -, values⟩ := SQLQuery.made_ok run
  have attrs := (SQLAttribute.make_ok makes).1
  dsimp only at attrs values
  rw [stored] at attrs values
  simp only [SQLConstraint.reading, reading, Prod.mk.injEq] at same
  have attr_text : k.name.text = w.attr := by
    rw [← same.1, attrs]
    exact attr
  have value_text : k.value = w.value := by
    rw [← same.2.2.2, values]
    exact value
  rw [attr_text, value_text]
  exact ⟨w.attr_ok, w.value_ok⟩

/-- Clauses of the grammar are made one by one. -/
theorem made_of_extracts {cuts : List (Text × Match)} {ks : List ConstrWord} {clauses : List Clause}
    (extracts : List.Forall₂ (fun c k => Extracts (StringMatch.extract constrGroups c.2 c.1) k) cuts ks)
    (same : List.Forall₂ (fun w k => w.attr = k.name.text ∧ w.comparator = k.comparator ∧ w.value = k.value) ks clauses) :
    ∃ constraints : List SQLConstraint,
      (cuts.map fun c => StringMatch.extract constrGroups c.2 c.1).map SQLQuery.made = constraints.map .ok ∧
      constraints.map SQLConstraint.reading = clauses.map reading := by
  induction extracts generalizing clauses with
  | nil =>
    cases same
    exact ⟨[], rfl, rfl⟩
  | cons first rest ih =>
    cases same with
    | cons first' rest' =>
      obtain ⟨c, run, readings⟩ := read_of first first'
      obtain ⟨constraints, all, readings'⟩ := ih rest'
      refine ⟨c :: constraints, ?_, by rw [List.map_cons, List.map_cons, readings, readings']⟩
      rw [List.map_cons, List.map_cons, List.map_cons, run, all]

/-- A clause read exactly is one of the grammar. -/
theorem Exact.grammar {shape : Shape} {origin : Origin} {clauses : List Clause} (h : Exact shape origin clauses)
    {k : Clause} (mem : k ∈ clauses) : IsConstrAttr k.name.text ∧ IsConstrVal k.value := by
  obtain ⟨cs, left, run, perm⟩ := h
  obtain ⟨cuts, path, inserted⟩ := SQLQuery.loadConstraints_iff.1 run
  obtain ⟨constraints, all, elements⟩ := SQLQuery.insertConstraints_ok inserted
  have inSet : k.reading ∈ cs.toList.map SQLConstraint.reading := perm.mem_iff.2 (List.mem_map_of_mem mem)
  exact grammar_of_made path all ((elements.map SQLConstraint.reading).mem_iff.1 inSet)

/-- Clauses of the grammar are read exactly. -/
theorem exact_of_grammar (shape : Shape) (origin : Origin) {clauses : List Clause}
    (grammar : ∀ k ∈ clauses, IsConstrAttr k.name.text ∧ IsConstrVal k.value) : Exact shape origin clauses := by
  obtain ⟨ks, text, chained, same⟩ := chain grammar
  have str : (of origin (joined clauses)).str = ks.flatMap ConstrWord.word := by rw [str_of, text]
  obtain ⟨cuts, left, path, extracts⟩ := words_cut chained str
  obtain ⟨constraints, all, readings⟩ := made_of_extracts extracts same
  obtain ⟨cs, inserted⟩ := SQLQuery.insertConstraints_of all .leaf
  obtain ⟨constraints', all', elements⟩ := SQLQuery.insertConstraints_ok inserted
  have one : constraints' = constraints := by
    apply List.map_injective_iff.2 (fun _ _ => Except.ok.inj)
    exact all'.symm.trans all
  refine ⟨cs, left, SQLQuery.loadConstraints_iff.2 ⟨cuts, path, inserted⟩, ?_⟩
  rw [← readings, ← one]
  exact elements.map SQLConstraint.reading

/-! ## Names and values of the grammar -/

theorem count_dots {s : Str} (h : ∀ c ∈ s, c ≠ '.') : s.count '.' = 0 :=
  List.count_eq_zero.2 (fun mem => h '.' mem rfl)

/-- An attribute of the grammar has two dots at most. -/
theorem dots_le {a : Str} (h : IsConstrAttr a) : a.count '.' ≤ 2 := by
  obtain ⟨pre, u, dot, v, rfl, front, -, hu, hdot, hv⟩ := h
  have word : ∀ w : Str, (∀ c ∈ w, wordChar c = true) → w.count '.' = 0 := by
    intro w hw
    apply count_dots
    rintro c mem rfl
    exact absurd (hw _ mem) (by decide)
  have one : pre.count '.' ≤ 1 := by
    rcases front with rfl | ⟨p, -, hp, rfl⟩
    · simp
    · have none : p.count '.' = 0 := by
        apply count_dots
        rintro c mem rfl
        exact absurd (hp _ mem) (by decide)
      rw [List.count_append, none]
      decide
  have other : dot.count '.' ≤ 1 := by
    rcases hdot with rfl | rfl <;> decide
  rw [List.count_append, List.count_append, List.count_append, word u hu, word v hv]
  omega

theorem identifier_word {x : Str} (h : IsIdentifier x) : x ≠ [] ∧ ∀ c ∈ x, wordChar c = true := by
  obtain ⟨c, rest, rfl, first, others⟩ := h
  refine ⟨by simp, ?_⟩
  intro d mem
  rcases List.mem_cons.1 mem with rfl | mem
  · exact first.1
  · exact others d mem

/-- A name has a dot for each of its qualifiers. -/
theorem dots_of_name (k : Clause) : k.name.text.count '.' = k.name.init.length := by
  have none : ∀ x ∈ k.name.init ++ [k.name.last], x.count '.' = 0 := by
    intro x mem
    apply count_dots
    rintro c hc rfl
    exact absurd ((identifier_word (k.identifiers x mem)).2 _ hc) (by decide)
  rw [AttrPath.text, AttrPath.qualifiers, List.count_append, none k.name.last (by simp)]
  have init : ∀ l : List Str, (∀ x ∈ l, x.count '.' = 0) → (l.flatMap (· ++ ['.'])).count '.' = l.length := by
    intro l
    induction l with
    | nil => simp
    | cons x l ih =>
      intro h
      rw [List.flatMap_cons, List.count_append, List.count_append, h x List.mem_cons_self,
        ih fun y mem => h y (List.mem_cons_of_mem _ mem)]
      simp
      omega
  exact init _ fun x mem => none x (List.mem_append_left _ mem)

/-- The names of the grammar are those with two qualifiers at most. -/
theorem name_iff (k : Clause) : IsConstrAttr k.name.text ↔ k.name.init.length ≤ 2 := by
  constructor
  · intro h
    rw [← k.dots_of_name]
    exact dots_le h
  · intro short
    have last := identifier_word (k.identifiers k.name.last (by simp))
    have part : ∀ x ∈ k.name.init, x ≠ [] ∧ ∀ c ∈ x, wordChar c = true :=
      fun x mem => identifier_word (k.identifiers x (List.mem_append_left _ mem))
    unfold AttrPath.text AttrPath.qualifiers
    match init : k.name.init, short with
    | [], _ => exact ⟨[], k.name.last, [], [], by simp, .inl rfl, last.1, last.2, .inl rfl, by simp⟩
    | [x], _ =>
      have first := part x (by simp [init])
      exact ⟨[], x, ['.'], k.name.last, by simp, .inl rfl, first.1, first.2, .inr rfl, last.2⟩
    | [x, y], _ =>
      have first := part x (by simp [init])
      have second := part y (by simp [init])
      exact ⟨x ++ ['.'], y, ['.'], k.name.last, by simp, .inr ⟨x, first.1, fun c hc => wordChar_attr (first.2 c hc), rfl⟩,
        second.1, second.2, .inr rfl, last.2⟩
    | _ :: _ :: _ :: _, short => simp at short

/-- A number is a value of the grammar if and only if it has no sign. -/
theorem number_iff {v : Str} (h : IsNumber v) : IsConstrVal v ↔ ∀ c ∈ v.head?, c ≠ '+' ∧ c ≠ '-' := by
  obtain ⟨sign, whole, fraction, rfl, hsign, ⟨ne, hwhole⟩, hfraction⟩ := h
  constructor
  · intro value c mem
    have letter := value.letters c (List.mem_of_mem_head? mem)
    constructor <;>
    · rintro rfl
      exact absurd letter (by decide)
  · intro unsigned
    have none : sign = [] := by
      rcases hsign with rfl | rfl | rfl
      · rfl
      · exact absurd rfl (unsigned '+' (by simp)).1
      · exact absurd rfl (unsigned '-' (by simp)).2
    refine ⟨[], whole, fraction, [], [], by simp [none], by simp, ?_, ?_, by simp, by simp⟩
    · intro c mem
      simp [wordChar, hwhole c mem]
    · rcases hfraction with rfl | ⟨digits, rfl, -, hdigits⟩
      · simp
      · intro c mem
        rcases List.mem_cons.1 mem with rfl | mem
        · decide
        · simp [midChar, hdigits c mem]

/-- **The conditions of a request** are read exactly if and only if each name has two
qualifiers at most and each value is one of the grammar. The clauses are joined by `&` without spaces, in
any number and any order; their letters may come from anywhere. -/
theorem exact_iff (shape : Shape) (origin : Origin) (clauses : List Clause) :
    Exact shape origin clauses ↔ ∀ k ∈ clauses, k.name.init.length ≤ 2 ∧ IsConstrVal k.value := by
  constructor
  · intro exact' k mem
    obtain ⟨name, value⟩ := exact'.grammar mem
    exact ⟨k.name_iff.1 name, value⟩
  · intro grammar
    apply exact_of_grammar
    intro k mem
    obtain ⟨name, value⟩ := grammar k mem
    exact ⟨k.name_iff.2 name, value⟩

/-- `a=-5` -/
def negative : Clause where
  name := .single ['a'] (by simp) (List.all_eq_true.1 (by decide))
  comparator := ['=']
  value := ['-', '5']
  identifiers := by
    intro x mem
    rw [List.mem_singleton.1 mem]
    exact ⟨'a', [], rfl, by decide, by simp⟩
  comparator_mem := by decide
  value_ok := .inl ⟨['-'], ['5'], [], rfl, .inr (.inr rfl), ⟨by simp, List.all_eq_true.1 (by decide)⟩, .inl rfl⟩

/-- A negative number is not read. -/
theorem negative_lost : ¬ Exact .plain .client [negative] := by
  intro exact'
  have value := (exact'.grammar (List.mem_singleton_self negative)).2
  exact absurd (value.letters '-' List.mem_cons_self) (by decide)

end Clause

end SqlHandler
