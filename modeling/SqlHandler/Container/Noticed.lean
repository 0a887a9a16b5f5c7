import SqlHandler.Container.Blanks
import SqlHandler.Container.Inert

/-!
# Texts that are noticed

A text in which a condition begins is noticed in front of some row. The rows are conditions on
one name that is longer than the text (`chain`). Each round takes one of them with the letters
in front of it, so the letters between the text and the row are used up, and what began in the
text goes on in the end of the row (`stray`): a condition on another name is loaded.
-/

namespace SqlHandler
open Posix Text Stl

variable {n m : Nat} {v : Str}

/-! ## The rows -/

/-- A name of more than `n` letters. -/
def longName (n : Nat) : Str := List.replicate (n + 1) 'n'

theorem longName_mem {c : Char} (mem : c ∈ longName n) : c = 'n' := List.eq_of_mem_replicate mem

theorem longName_length : (longName n).length = n + 1 := List.length_replicate

theorem longName_ne : longName n ≠ [] := by simp [longName]

theorem longName_letters : ∀ c ∈ longName n, wordChar c = true := by
  intro c mem
  rw [longName_mem mem]
  decide

theorem longName_attr : IsConstrAttr (longName n) :=
  ⟨[], longName n, [], [], by simp, .inl rfl, longName_ne, longName_letters, .inl rfl, List.forall_mem_nil _⟩

theorem bracketVal : IsConstrVal "0]".toList :=
  ⟨[], ['0'], [], [']'], [], rfl, List.forall_mem_nil _, List.forall_mem_singleton.2 (by decide), List.forall_mem_nil _,
    List.forall_mem_singleton.2 (by decide), List.forall_mem_nil _⟩

/-- A condition on the name. Only brackets and quotes go on behind its value. -/
def condition (n : Nat) : ConstrWord := greater (longName_attr (n := n)) bracketVal

theorem longCondition_word : (condition n).word = longName n ++ ">0]".toList := greater_word _ _

/-- `m` conditions, and what stands behind them. -/
def chain (n : Nat) : Nat → Str → Str
  | 0, v => v
  | m + 1, v => (condition n).word ++ chain n m v

theorem chain_letters {c : Char} (mem : c ∈ chain n m v) : c = 'n' ∨ c ∈ ">0]".toList ∨ c ∈ v := by
  induction m with
  | zero => exact .inr (.inr mem)
  | succ m ih =>
    rw [chain, longCondition_word] at mem
    rcases List.mem_append.1 mem with mem | mem
    · exact (List.mem_append.1 mem).imp longName_mem .inl
    · exact ih mem

theorem tail_letters (tail : IsTail (longName n) v) {c : Char} (mem : c ∈ v) : c = 'n' ∨ c = '.' ∨ compChar c = true := by
  rcases tail with rfl | rfl | ⟨-, comps⟩
  · rcases List.mem_append.1 mem with mem | mem
    · exact .inl (longName_mem mem)
    · rw [List.mem_singleton.1 mem]
      decide
  · rcases List.mem_cons.1 mem with rfl | mem
    · exact .inr (.inl rfl)
    · rcases List.mem_append.1 mem with mem | mem
      · exact .inl (longName_mem mem)
      · rw [List.mem_singleton.1 mem]
        decide
  · exact .inr (.inr (comps c mem))

/-- No letter that the rows do not use. -/
theorem chain_without (tail : IsTail (longName n) v) {c : Char} (other : c ∉ ['n', '>', '0', ']', '.'])
    (plain : compChar c = false) : c ∉ chain n m v := by
  intro mem
  rcases chain_letters mem with rfl | mem | mem
  · exact other (by decide)
  · have all : ">0]".toList ⊆ ['n', '>', '0', ']', '.'] := by simp
    exact other (all mem)
  · rcases tail_letters tail mem with rfl | rfl | comps
    · exact other (by decide)
    · exact other (by decide)
    · rw [plain] at comps
      cases comps

/-- A row starts with the whole name, or with a letter that is not of the name. -/
theorem chain_begins (tail : IsTail (longName n) v) :
    (∃ s, chain n m v = longName n ++ s) ∨ ∃ c s, chain n m v = c :: s ∧ (c = '.' ∨ compChar c = true) := by
  cases m with
  | succ m =>
    refine .inl ⟨">0]".toList ++ chain n m v, ?_⟩
    rw [chain, longCondition_word, List.append_assoc]
  | zero =>
    rcases tail with rfl | rfl | ⟨ne, comps⟩
    · exact .inl ⟨['>'], rfl⟩
    · exact .inr ⟨'.', longName n ++ ['>'], rfl, .inl rfl⟩
    · obtain ⟨c, s, rfl⟩ := List.exists_cons_of_ne_nil ne
      exact .inr ⟨c, s, rfl, .inr (comps c List.mem_cons_self)⟩

/-- What stands behind a condition of a row is no part of its value. -/
theorem chain_follows (tail : IsTail (longName n) v) :
    ∀ c ∈ (chain n m v).head?, c ≠ ']' ∧ quoteChar c = false := by
  intro c mem
  have letter : c = 'n' ∨ c = '.' ∨ compChar c = true := by
    rcases chain_begins (m := m) tail with ⟨s, begins⟩ | ⟨d, s, begins, letter⟩
    · rw [begins, longName, List.replicate_succ, List.cons_append, List.head?_cons] at mem
      exact .inl (Option.some.inj mem).symm
    · rw [begins, List.head?_cons] at mem
      exact .inr (Option.some.inj mem ▸ letter)
  rcases letter with rfl | rfl | comps
  · decide
  · decide
  · simp only [compChar, Bool.or_eq_true, beq_iff_eq] at comps
    rcases comps with (((rfl | rfl) | rfl) | rfl) | rfl <;> decide

/-- The first word of a row is its first condition. -/
theorem chain_first (tail : IsTail (longName n) v) : First (chain n (m + 1) v) [] (condition n) (chain n m v) := by
  refine ⟨rfl, fun p' k' t' split => ⟨Nat.zero_le _, fun start => ?_⟩⟩
  obtain rfl : p' = [] := List.eq_nil_of_length_eq_zero start
  rw [List.nil_append, chain] at split
  -- both have the same comparator
  obtain ⟨before, onward⟩ := (condition n).append_split (chain n m v)
  obtain ⟨before', onward'⟩ := k'.append_split t'
  rw [split] at before onward
  have upTo : k'.upTo = (condition n).upTo := before'.symm.trans before
  have behind : k'.comparator ++ (k'.gap' ++ k'.value ++ t') = '>' :: '0' :: ']' :: chain n m v := onward'.symm.trans onward
  obtain ⟨ne, comps⟩ := comparator_compChar k'.comparator_mem
  obtain ⟨c, more, comparator⟩ := List.exists_cons_of_ne_nil ne
  rw [comparator, List.cons_append] at behind
  obtain ⟨rfl, next⟩ := List.cons.inj behind
  clear behind
  have one : more = [] := by
    cases more with
    | nil => rfl
    | cons d more =>
      obtain ⟨rfl, -⟩ := List.cons.inj next
      exact absurd (comps '0' (by rw [comparator]; simp)) (by decide)
  subst one
  have close : k'.gap' = [] := by
    cases gap : k'.gap' with
    | nil => rfl
    | cons d more =>
      rw [gap] at next
      obtain ⟨rfl, -⟩ := List.cons.inj next
      exact absurd (k'.gap'_spaces '0' (by rw [gap]; simp)) (by decide)
  rw [close, List.nil_append, List.nil_append] at next
  -- the value ends with the bracket
  have value : k'.value.length ≤ 2 := by
    by_contra long
    rw [Nat.not_le] at long
    match same : k'.value with
    | [] | [_] | [_, _] =>
      rw [same] at long
      simp at long
    | a :: b :: d :: rest =>
      rw [same] at next
      obtain ⟨rfl, next'⟩ := List.cons.inj next
      obtain ⟨rfl, last⟩ := List.cons.inj next'
      have follows := chain_follows (m := m) tail d (by rw [← last]; rfl)
      have valued := k'.value_ok
      rw [same] at valued
      rcases bracket_behind (a := ['0']) valued with same | quote
      · exact follows.1 same
      · rw [follows.2] at quote
        cases quote
  rw [k'.word_length, (condition n).word_length, upTo, comparator, close]
  simp only [List.nil_append, List.length_singleton]
  change _ ≤ (condition n).upTo.length + 1 + 2
  omega

/-! ## The name -/

/-- A condition that begins in a shorter text is none on the name. -/
theorem not_named (tail : IsTail (longName n) v) {x p q : Str} {k : ConstrWord} (split : x ++ chain n m v = p ++ k.word ++ q)
    (early : (p ++ k.front).length < x.length) (short : x.length ≤ n) : k.attr ≠ longName n := by
  intro named
  -- what stands behind the attribute starts with another letter
  obtain ⟨d, rest, behind, other⟩ : ∃ d rest, k.gap ++ k.comparator ++ (k.gap' ++ k.value ++ q) = d :: rest ∧ d ≠ 'n' := by
    cases gap : k.gap with
    | cons d more =>
      refine ⟨d, more ++ k.comparator ++ (k.gap' ++ k.value ++ q), by simp, ?_⟩
      rw [k.gap_spaces d (by rw [gap]; simp)]
      decide
    | nil =>
      obtain ⟨ne, comps⟩ := comparator_compChar k.comparator_mem
      obtain ⟨c, more, comparator⟩ := List.exists_cons_of_ne_nil ne
      refine ⟨c, more ++ (k.gap' ++ k.value ++ q), by rw [comparator]; simp, ?_⟩
      rintro rfl
      exact absurd (comps 'n' (by rw [comparator]; simp)) (by decide)
  have parts : x ++ chain n m v = (p ++ k.front) ++ (longName n ++ d :: rest) := by
    rw [split, ← behind, ← named]
    simp [ConstrWord.word, ConstrWord.upTo, ConstrWord.front]
  rcases List.append_eq_append_iff.1 parts with ⟨y, same, -⟩ | ⟨y, same, more⟩
  · rw [same, List.length_append] at early
    omega
  · have yLength : 0 < y.length ∧ y.length ≤ n := by
      have := congrArg List.length same
      rw [List.length_append] at this
      omega
    rcases List.append_eq_append_iff.1 more with ⟨z, long, -⟩ | ⟨z, name, row⟩
    · have := congrArg List.length long
      rw [List.length_append, longName_length] at this
      omega
    · have zLetters : ∀ c ∈ z, c = 'n' := fun c mem => longName_mem (n := n) (by rw [name]; exact List.mem_append_right _ mem)
      have zLength := congrArg List.length name
      rw [List.length_append, longName_length] at zLength
      rcases chain_begins (m := m) tail with ⟨s, begins⟩ | ⟨c, s, begins, letter⟩
      · rw [begins] at row
        rcases List.append_eq_append_iff.1 row with ⟨a, long, -⟩ | ⟨a, whole, next⟩
        · have := congrArg List.length long
          rw [List.length_append, longName_length] at this
          omega
        · cases a with
          | nil =>
            have := congrArg List.length whole
            rw [List.append_nil, longName_length] at this
            omega
          | cons e a =>
            obtain ⟨rfl, -⟩ := List.cons.inj next
            exact other (longName_mem (n := n) (by rw [whole]; simp))
      · rw [begins] at row
        cases z with
        | nil =>
          rw [List.length_nil] at zLength
          omega
        | cons e z =>
          obtain ⟨rfl, -⟩ := List.cons.inj row
          rw [zLetters c List.mem_cons_self] at letter
          exact absurd letter (by decide)

/-! ## What is cut out -/

/-- The attribute a match stores. -/
def attrCut (c : Text × Match) : Str := ((StringMatch.extract constrGroups c.2 c.1).getD 0 []).str

theorem First.attrCut {row : Text} {mt : Match} {p q : Str} {k : ConstrWord} (first : First row.cStr p k q)
    (found : regexec contRegConstrBase row.cStr = some mt) : attrCut (row, mt) = k.attr := by
  obtain ⟨-, -, stored⟩ := first.stored found
  unfold SqlHandler.attrCut
  rw [stored]
  refine substr_at (p := p ++ k.front) (t := k.gap ++ k.comparator ++ (k.gap' ++ k.value) ++ q) ?_
  rw [first.split]
  simp [ConstrWord.word, ConstrWord.upTo, ConstrWord.front]

theorem chain_noNul (tail : IsTail (longName n) v) : Char.ofNat 0 ∉ chain n m v := chain_without tail (by decide) (by decide)

/-- A rest of a row holds no condition but one on the name. -/
theorem tail_cuts (tail : IsTail (longName n) v) {t left : Text} (row : t.str = v) {cuts : List (Text × Match)}
    (path : StringMatch.Cuts (regexec contRegConstrBase) t cuts left) : ∀ c ∈ cuts, attrCut c = longName n := by
  have read : t.cStr = v := by
    rw [← row]
    exact cStr_of_noNul (row ▸ chain_noNul (m := 0) tail)
  have single : ∀ p, (p = [] ∨ p = ['.']) → v = p ++ (longName n ++ ['>']) → ∀ c ∈ cuts, attrCut c = longName n := by
    intro p front same
    have word : (greater (longName_attr (n := n)) emptyVal).word = longName n ++ ['>'] := greater_word _ _
    have first : First t.cStr p (greater (longName_attr (n := n)) emptyVal) [] := by
      refine ⟨by rw [read, same, word, List.append_nil], fun p' k' t' split => ?_⟩
      have length := congrArg List.length split
      rw [read, same, ← word] at length split
      simp only [List.length_append] at length
      refine ⟨?_, fun _ => by omega⟩
      rcases front with rfl | rfl
      · exact Nat.zero_le _
      · cases p' with
        | cons c p' => simp
        | nil =>
          -- no word starts with the dot
          exfalso
          rw [List.nil_append] at split
          cases lead : k'.front with
          | cons d more =>
            rw [ConstrWord.word_bare k', lead] at split
            obtain ⟨rfl, -⟩ := List.cons.inj split
            exact absurd (k'.front_isFront.chars '.' (by rw [lead]; simp)) (by decide)
          | nil =>
            obtain ⟨c, attr, begins⟩ := List.exists_cons_of_ne_nil k'.attr_ok.letters.1
            have shape : k'.word = k'.attr ++ (k'.gap ++ k'.comparator ++ (k'.gap' ++ k'.value)) := by
              rw [ConstrWord.word_bare k', lead]
              simp [ConstrWord.word, ConstrWord.upTo, ConstrWord.bare]
            rw [shape, begins] at split
            obtain ⟨rfl, -⟩ := List.cons.inj split
            exact (begins ▸ k'.attr_ok).no_dot
    obtain ⟨mt, found, so, len⟩ := found_of_first first
    cases path with
    | stop nothing =>
      rw [nothing] at found
      cases found
    | @cut _ m' cuts left found' rest =>
      obtain rfl : mt = m' := Option.some.inj (found.symm.trans found')
      have left' : (t.erase mt.so mt.len).str = p := by
        have take : t.str = p ++ (longName n ++ ['>']) := row.trans same
        rw [str_erase, so, len, word, take]
        simp
      intro c mem
      rcases List.mem_cons.1 mem with rfl | mem
      · exact first.attrCut found
      · cases rest with
        | stop _ => cases mem
        | cut found'' _ =>
          rw [constrBase_plain] at found''
          · cases found''
          · intro d inside
            have mem' : d ∈ p := left' ▸ (List.takeWhile_prefix _).mem inside
            rcases front with rfl | rfl
            · cases mem'
            · rw [List.mem_singleton.1 mem']
              decide
  rcases tail with same | same | ⟨-, comps⟩
  · exact single [] (.inl rfl) same
  · exact single ['.'] (.inr rfl) same
  · -- letters of comparators alone are no attribute
    cases path with
    | stop _ => exact List.forall_mem_nil _
    | cut found _ =>
      obtain ⟨p, k, q, first, -⟩ := first_of_found found
      obtain ⟨c, attr, begins⟩ := List.exists_cons_of_ne_nil k.attr_ok.letters.1
      have inside : c ∈ k.attr := by
        rw [begins]
        exact List.mem_cons_self
      have mem : c ∈ v := by
        rw [← read, first.split]
        simp [ConstrWord.word, ConstrWord.upTo, inside]
      have letter := comps c mem
      rw [(k.attr_letter inside).2.2] at letter
      cases letter

/-- All conditions of a row are on the name. -/
theorem chain_cuts (tail : IsTail (longName n) v) {t left : Text} (row : t.str = chain n m v) {cuts : List (Text × Match)}
    (path : StringMatch.Cuts (regexec contRegConstrBase) t cuts left) : ∀ c ∈ cuts, attrCut c = longName n := by
  induction m generalizing t cuts with
  | zero => exact tail_cuts tail row path
  | succ m ih =>
    have read : t.cStr = chain n (m + 1) v := by
      rw [← row]
      exact cStr_of_noNul (row ▸ chain_noNul tail)
    have first := read ▸ chain_first (m := m) tail
    cases path with
    | stop _ => exact List.forall_mem_nil _
    | @cut _ mt cuts left found rest =>
      obtain ⟨so, len, -⟩ := first.stored found
      intro c mem
      rcases List.mem_cons.1 mem with rfl | mem
      · exact first.attrCut found
      · refine ih ?_ rest c mem
        rw [str_erase, so, len, row, chain]
        simp

/-- What begins in front of a row is cut out of it first. -/
theorem early_cut (tail : IsTail (longName n) v) {x p q : Str} {k : ConstrWord} {row left : Text}
    (read : row.cStr = x ++ chain n m v) (short : x.length ≤ n) (split : row.cStr = p ++ k.word ++ q)
    (early : (p ++ k.front).length < x.length) {cuts : List (Text × Match)}
    (path : StringMatch.Cuts (regexec contRegConstrBase) row cuts left) : ∃ c ∈ cuts, attrCut c ≠ longName n := by
  cases path with
  | stop nothing => exact absurd split (found_none.1 nothing _ _ _)
  | @cut _ mt cuts left found _ =>
    obtain ⟨p₁, k₁, q₁, first, -⟩ := first_of_found found
    refine ⟨_, List.mem_cons_self, ?_⟩
    rw [first.attrCut found]
    have order : (p₁ ++ k₁.front).length ≤ (p ++ k.front).length :=
      ConstrWord.attr_starts (first.split.symm.trans split) (first.least _ _ _ split).1
    exact not_named tail (read.symm.trans first.split) (Nat.lt_of_le_of_lt order early) short

/-- Letters of a front that end a text with something begun stand behind it. -/
theorem begun_split {x y p u j : Str} (begun : u ≠ []) (last : ∀ c ∈ u.getLast?, frontChar c = false)
    (front : ∀ c ∈ y, frontChar c = true) (split : x ++ y = p ++ u ++ j) : ∃ j₁, x = p ++ u ++ j₁ ∧ j = j₁ ++ y := by
  rcases List.append_eq_append_iff.1 split with ⟨a, inside, taken⟩ | ⟨j₁, behind, jSplit⟩
  · rcases List.eq_nil_or_concat a with rfl | ⟨a, c, rfl⟩
    · exact ⟨[], by simpa using inside.symm, by simpa using taken.symm⟩
    · exfalso
      have ends : (p ++ u).getLast? = some c := by
        rw [inside]
        simp
      rw [List.getLast?_append_of_ne_nil _ begun] at ends
      have letter := front c (by rw [taken]; simp)
      rw [last c ends] at letter
      cases letter
  · exact ⟨j₁, behind, jSplit⟩

theorem isFront_char {c : Char} (letter : frontChar c = true) : IsFront [c] := by
  simp only [frontChar, Bool.or_eq_true, beq_iff_eq] at letter
  rcases letter with rfl | rfl
  · exact ⟨[' '], [], rfl, List.forall_mem_singleton.2 (by decide), .inl rfl⟩
  · exact ⟨[], ['&'], rfl, List.forall_mem_nil _, .inr rfl⟩

/-- **What begins goes on**: one round for each letter between its beginning and its end brings them together. -/
theorem stray (tail : IsTail (longName n) v) {p u : Str} {k : ConstrWord} (word : u ++ v = k.word) (bare : k.front = [])
    (begun : u ≠ []) (last : ∀ c ∈ u.getLast?, frontChar c = false) {j : Str} {w t left : Text} (split : w.str = p ++ u ++ j)
    (noNul : NoNul w) (chars : ∀ c ∈ j, frontChar c = true) (rounds : j.length ≤ m) (short : w.length ≤ n)
    (row : t.str = chain n m v) {cuts : List (Text × Match)}
    (path : StringMatch.Cuts (regexec contRegConstrBase) (w ++ t) cuts left) : ∃ c ∈ cuts, attrCut c ≠ longName n := by
  have length : ∀ w : Text, w.str.length = w.length := fun w => str_length w
  induction m generalizing j w t cuts with
  | zero =>
    obtain rfl : j = [] := List.eq_nil_of_length_eq_zero (Nat.le_zero.1 rounds)
    have read : (w ++ t).cStr = w.str ++ chain n 0 v := by
      rw [cStr_append noNul, ← row, cStr_of_noNul (row ▸ chain_noNul tail)]
    refine early_cut tail read (by rw [length]; exact short) (p := p) (k := k) (q := []) ?_ ?_ path
    · rw [read, split, ← word]
      simp [chain]
    · rw [bare, split]
      have := List.length_pos_iff.2 begun
      simp only [List.length_append, List.length_nil]
      omega
  | succ m ih =>
    have rowRead : t.cStr = chain n (m + 1) v := by
      rw [← row]
      exact cStr_of_noNul (row ▸ chain_noNul tail)
    have read : (w ++ t).cStr = w.str ++ chain n (m + 1) v := by rw [cStr_append noNul, rowRead]
    by_cases early : ∃ p' k' q', (w ++ t).cStr = p' ++ ConstrWord.word k' ++ q' ∧ (p' ++ k'.front).length < w.str.length
    · obtain ⟨p', k', q', split', lt⟩ := early
      exact early_cut tail read (by rw [length]; exact short) split' lt path
    -- the round takes the first condition of the row, and letters in front of it
    have apart : ∀ p' k' q', First (w.str ++ t.cStr) p' k' q' → w.str.length ≤ (p' ++ ConstrWord.front k').length := by
      intro p' k' q' first
      by_contra lt
      exact early ⟨p', k', q', (cStr_append noNul t).trans first.split, Nat.not_le.1 lt⟩
    have first := rowRead ▸ chain_first (m := m) tail
    obtain ⟨mt, found, so, len⟩ := found_of_first first
    obtain ⟨w₁, f, m', rfl, front, found', place, -, erased⟩ := step_behind noNul apart found
    rw [so, List.length_nil, Nat.add_zero] at place
    cases path with
    | stop nothing =>
      rw [nothing] at found'
      cases found'
    | @cut _ m₁ cuts left found₁ rest =>
      obtain rfl : m' = m₁ := Option.some.inj (found'.symm.trans found₁)
      rw [erased] at rest
      have left' : (t.erase mt.so mt.len).str = chain n m v := by
        rw [str_erase, so, len, row, chain]
        simp
      -- the letters taken stand behind what has begun
      obtain ⟨j₁, behind, jSplit⟩ : ∃ j₁, w₁.str = p ++ u ++ j₁ ∧ j = j₁ ++ f.str := by
        rw [str_append] at split
        exact begun_split begun last front split
      have fewer : j₁.length ≤ m := by
        cases jShape : List.eq_nil_or_concat j with
        | inl none =>
          rw [none] at jSplit
          rw [(List.append_eq_nil_iff.1 jSplit.symm).1]
          exact Nat.zero_le m
        | inr some =>
          -- a word starts with the last letter, and none that starts later is found
          obtain ⟨j', c, concat⟩ := some
          have letter : frontChar c = true := chars c (by rw [concat]; simp)
          obtain ⟨k', front', bare'⟩ := (condition n).refront (isFront_char letter)
          have shape : (w₁ ++ f ++ t).cStr = (p ++ u ++ j') ++ k'.word ++ chain n m v := by
            rw [read, split, concat, ConstrWord.word_bare k', front', bare', chain]
            simp [show (condition n).bare = condition n from rfl]
          obtain ⟨p₁, k₁, q₁, first₁, place₁, -⟩ := first_of_found found₁
          have start := (first₁.least _ _ _ shape).1
          have whole := congrArg List.length split
          have parts := congrArg List.length jSplit
          have ends := congrArg List.length concat
          rw [str_append] at whole
          have l₁ := length w₁
          simp only [List.length_append, List.length_concat] at whole parts ends start rounds
          have l₂ := congrArg List.length behind
          simp only [List.length_append] at l₂
          omega
      obtain ⟨c, mem, other⟩ := ih behind (fun mem => noNul (by rw [str_append]; exact List.mem_append_left _ mem))
        (fun c mem => chars c (by rw [jSplit]; exact List.mem_append_left _ mem)) fewer
        (Nat.le_trans (by rw [List.length_append]; exact Nat.le_add_right _ _) short) left' rest
      exact ⟨c, List.mem_cons_of_mem _ mem, other⟩

namespace SQLTextContainer
variable {rt : Runtime}

theorem named_made {groups : List Text} (named : (groups.getD 0 []).str = longName n) : ∃ c, SQLQuery.made groups = .ok c := by
  have letters : ∀ c ∈ longName n, nameChar c = true := by
    intro c mem
    rw [longName_mem mem]
    decide
  obtain ⟨a, run, -⟩ := SQLAttribute.make_path (p := .single (longName n) longName_ne letters) named 0
  exact ⟨_, SQLQuery.made_of run⟩

/-- The attributes of the conditions loaded are those cut out. -/
theorem inserted_attrs {cuts : List (Text × Match)} {cs : SQLConstraintSet} (inserted : SQLQuery.insertConstraints rt.shape .leaf
    (cuts.map fun c => StringMatch.extract constrGroups c.2 c.1) = .ok cs) :
    (cs.toList.map fun c => c.attr.attr.str).Perm (cuts.map attrCut) := by
  obtain ⟨made, all, perm⟩ := SQLQuery.insertConstraints_ok inserted
  have texts : (made.map fun c => c.attr.attr.str) = cuts.map attrCut := by
    clear perm inserted
    induction cuts generalizing made with
    | nil =>
      obtain rfl : made = [] := List.map_eq_nil_iff.1 all.symm
      rfl
    | cons c cuts ih =>
      cases made with
      | nil => cases all
      | cons first made =>
        rw [List.map_cons, List.map_cons, List.map_cons] at all
        obtain ⟨run, rest⟩ := List.cons.inj all
        rw [List.map_cons, List.map_cons, ih made rest, (SQLAttribute.make_ok (SQLQuery.made_ok run).1).1]
        rfl
  rw [← texts]
  exact perm.map _

/-- A row of conditions. -/
theorem chain_literal (tail : IsTail (longName n) v) : isLiteral (chain n (m + 1) v) = true ∧ '\n' ∉ chain n (m + 1) v := by
  have ne : chain n (m + 1) v ≠ [] := by
    rw [chain, longCondition_word]
    simp [longName]
  exact ⟨literal_plain ne (chain_without tail (by decide) (by decide)) (chain_without tail (by decide) (by decide))
    (chain_without tail (by decide) (by decide)), chain_without tail (by decide) (by decide)⟩

/-- Where the text in front is not noticed, all conditions are on the name. -/
theorem chain_same (tail : IsTail (longName n) v) {w : Text} (same : ∀ cs, constraintsOf rt (rowText (chain n (m + 1) v)) = .ok cs →
    constraintsOf rt (w ++ rowText (chain n (m + 1) v)) = .ok cs) {cuts : List (Text × Match)} {left : Text}
    (path : StringMatch.Cuts (regexec contRegConstrBase) (w ++ rowText (chain n (m + 1) v)) cuts left) :
    cuts ≠ [] ∧ ∀ c ∈ cuts, attrCut c = longName n := by
  let t : Text := .of .dataset (chain n (m + 1) v)
  have row : t.str = chain n (m + 1) v := str_of _ _
  -- the blank in front of the row changes nothing
  have blank : Inert (Text.of .dataset [' ']).str := by
    refine ⟨by decide, fun p u j split ne front begins => ?_⟩
    have one : u = [' '] := by
      cases p with
      | nil =>
        obtain ⟨c, u', rfl⟩ := List.exists_cons_of_ne_nil ne
        obtain ⟨rfl, rest⟩ := List.cons.inj (show [' '] = c :: (u' ++ j) by simpa using split)
        rw [(List.append_eq_nil_iff.1 rest.symm).1]
      | cons c p =>
        obtain ⟨-, rest⟩ := List.cons.inj (show [' '] = c :: (p ++ u ++ j) by simpa using split)
        exact absurd (List.append_eq_nil_iff.1 (List.append_eq_nil_iff.1 rest.symm).1).2 ne
    subst one
    obtain ⟨k, v, q, none, e⟩ := begins
    obtain ⟨c, attr, first⟩ := List.exists_cons_of_ne_nil k.attr_ok.letters.1
    rw [ConstrWord.word_bare, none] at e
    obtain ⟨d, more, bare, letter⟩ := k.bare_head q
    rw [List.nil_append, bare] at e
    obtain ⟨rfl, -⟩ := List.cons.inj e
    exact absurd letter (by decide)
  have alone : constraintsOf rt (rowText (chain n (m + 1) v)) = constraintsOf rt t := constraintsOf_inert rt blank t
  obtain ⟨cuts₀, left₀, path₀⟩ := StringMatch.cuts_exist constrBase_cutting t
  have named := chain_cuts tail row path₀
  have some : cuts₀ ≠ [] := by
    rintro rfl
    cases path₀ with
    | stop nothing =>
      refine found_none.1 nothing [] (condition n) (chain n m v) ?_
      rw [cStr_of_noNul (row ▸ chain_noNul tail), row]
      rfl
  obtain ⟨made, all⟩ : ∃ made : List SQLConstraint,
      (cuts₀.map fun c => StringMatch.extract constrGroups c.2 c.1).map SQLQuery.made = made.map .ok := by
    clear path₀ some
    induction cuts₀ with
    | nil => exact ⟨[], rfl⟩
    | cons c cuts₀ ih =>
      obtain ⟨made, all⟩ := ih fun c mem => named c (List.mem_cons_of_mem _ mem)
      obtain ⟨first, run⟩ := named_made (named c List.mem_cons_self)
      exact ⟨first :: made, by rw [List.map_cons, List.map_cons, List.map_cons, run, all]⟩
  obtain ⟨cs, inserted⟩ : ∃ cs, SQLQuery.insertConstraints rt.shape .leaf _ = .ok cs := SQLQuery.insertConstraints_of all .leaf
  have loaded : constraintsOf rt (rowText (chain n (m + 1) v)) = .ok cs := by
    rw [alone, constraintsOf_cuts rt path₀, inserted]
  have kept := same cs loaded
  rw [constraintsOf_cuts rt path] at kept
  have attrs := (inserted_attrs kept).symm.trans (inserted_attrs inserted)
  constructor
  · rintro rfl
    exact some (List.map_eq_nil_iff.1 attrs.symm.eq_nil)
  · intro c mem
    obtain ⟨c₀, mem₀, eq⟩ := List.mem_map.1 (attrs.mem_iff.1 (List.mem_map_of_mem mem))
    rw [← eq, named c₀ mem₀]

variable (rt) in
/-- **What is not noticed is inert**: a text behind which rows without variables load what they load alone begins no condition. -/
theorem inert_of_kept {w : Text} (same : ∀ row, isLiteral row = true → '\n' ∉ row →
    ∀ cs, constraintsOf rt (rowText row) = .ok cs → constraintsOf rt (w ++ rowText row) = .ok cs) : Inert w.str := by
  let n := w.length + 1
  let blank : Text := .of .dataset [' ']
  have rows : ∀ {m v}, IsTail (longName n) v → ∃ cuts left,
      StringMatch.Cuts (regexec contRegConstrBase) (w ++ blank ++ Text.of .dataset (chain n (m + 1) v)) cuts left ∧
        cuts ≠ [] ∧ ∀ c ∈ cuts, attrCut c = longName n := by
    intro m v tail
    obtain ⟨literal, line⟩ := chain_literal (m := m) tail
    obtain ⟨cuts, left, path⟩ := StringMatch.cuts_exist constrBase_cutting (w ++ rowText (chain n (m + 1) v))
    obtain ⟨some, named⟩ := chain_same tail (same _ literal line) path
    refine ⟨cuts, left, ?_, some, named⟩
    rw [List.append_assoc]
    exact path
  have plain : IsTail (longName n) (longName n ++ ['>']) := .inl rfl
  by_cases nul : Char.ofNat 0 ∈ w.str
  · -- the row is not read
    exfalso
    obtain ⟨cuts, left, path, some, named⟩ := rows (m := 0) plain
    cases path with
    | stop _ => exact some rfl
    | @cut _ mt cuts left found _ =>
      obtain ⟨p, k, q, first, -⟩ := first_of_found found
      have attr := (first.attrCut found).symm.trans (named _ List.mem_cons_self)
      have read : (w ++ blank ++ Text.of .dataset (chain n (0 + 1) (longName n ++ ['>']))).cStr = w.cStr := by
        unfold Text.cStr
        rw [List.append_assoc, str_append]
        exact rowStr_cut nul _
      have length := congrArg List.length first.split
      have cut := w.cStr_length_le
      rw [read, ConstrWord.word, ConstrWord.upTo, attr] at length
      simp only [List.length_append, longName_length] at length
      omega
  refine ⟨nul, fun p u j split ne front begins => ?_⟩
  have noNul : NoNul (w ++ blank) := by
    refine NoNul.append nul ?_
    unfold NoNul
    decide
  have short : (w ++ blank).length ≤ n := by simp [n, blank, Text.of]
  have wide : (w ++ blank).str = w.str ++ [' '] := str_append _ _
  rcases begins.goes_on ne longName_ne (longName_letters (n := n)) with ⟨p', k, q, inside⟩ |
    ⟨u', g, v, rfl, blanks, begun, tail, ⟨k, bare, word⟩, last⟩
  · -- a whole condition in the text
    obtain ⟨cuts, left, path, -, named⟩ := rows (m := 0) plain
    have row : (Text.of .dataset (chain n (0 + 1) (longName n ++ ['>']))).str = chain n (0 + 1) (longName n ++ ['>']) := str_of _ _
    have read : (w ++ blank ++ Text.of .dataset (chain n (0 + 1) (longName n ++ ['>']))).cStr =
        (w ++ blank).str ++ chain n (0 + 1) (longName n ++ ['>']) := by
      rw [cStr_append noNul, cStr_of_noNul, row]
      rw [row]
      exact chain_noNul plain
    obtain ⟨c, mem, other⟩ := early_cut plain read (by rw [str_length]; exact short) (p := p ++ p') (k := k)
      (q := q ++ j ++ [' '] ++ chain n (0 + 1) (longName n ++ ['>'])) (by rw [read, wide, split, inside]; simp) (by
        have attr := List.length_pos_iff.2 k.attr_ok.letters.1
        rw [wide, split, inside, ConstrWord.word, ConstrWord.upTo, ConstrWord.front]
        simp only [List.length_append]
        omega) path
    exact other (named c mem)
  · -- a condition that goes on
    have letters : ∀ c ∈ g ++ j ++ [' '], frontChar c = true := by
      intro c mem
      rcases List.mem_append.1 mem with mem | mem
      · rcases List.mem_append.1 mem with mem | mem
        · rw [blanks c mem]
          rfl
        · exact front c mem
      · rw [List.mem_singleton.1 mem]
        rfl
    obtain ⟨cuts, left, path, -, named⟩ := rows (m := (g ++ j).length) tail
    have row : (Text.of .dataset (chain n ((g ++ j).length + 1) v)).str = chain n ((g ++ j).length + 1) v := str_of _ _
    obtain ⟨c, mem, other⟩ := stray (m := (g ++ j).length + 1) tail word bare begun last (p := p)
      (j := g ++ j ++ [' ']) (by rw [wide, split]; simp) noNul letters (by rw [List.length_append]; exact Nat.le_refl _) short row path
    exact other (named c mem)

end SQLTextContainer

end SqlHandler
