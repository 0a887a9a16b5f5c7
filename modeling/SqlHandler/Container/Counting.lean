import SqlHandler.Container.Attributes
import SqlHandler.Container.Constraints
import SqlHandler.Container.Loaded
import Mathlib.Data.List.DropRight

/-!
# The rows that are counted

`buildCountQuery` does not look at the constraint of the request, and it reads the conditions of
the section once more from the text they make: what the matches leave of it, the words `AND`
between the conditions, stays in front. So the two statements have the same conditions only where
nothing is read again, or one condition is that reads back as it stands (`counted_same`).
-/

namespace SqlHandler
open Posix Text Stl

/-! ## Substitutes put in -/

/-- A condition with the substitute of its comparator, if it has one. -/
def SQLConstraint.settled (other : OtherMap) (c : SQLConstraint) : SQLConstraint :=
  { c with substitute := (SQLTextContainer.substitution other c.comparator.str).getD [] }

/-- A loop of `comparatorSubst` that ended has put every substitute in. -/
def Runtime.Thorough (rt : Runtime) : Prop := ∀ other t t', SQLTextContainer.comparatorSubst rt other t = .ok () t' →
  ∀ c ∈ t'.toList, ∀ subst, SQLTextContainer.substitution other c.comparator.str = some subst → c.substitute = subst

namespace SQLTextContainer
variable {rt : Runtime} {other : OtherMap}

/-- So has one that uses no erased iterator. -/
theorem standard_thorough (shape : Shape) (patience : Nat) : (Runtime.standard shape patience).Thorough := by
  intro other t t' run c mem subst made
  obtain ⟨i, there⟩ := List.getElem?_of_mem mem
  obtain ⟨rfl, none⟩ := substRounds_standard run
  rw [none i c (Nat.zero_le i) there] at made
  cases made

/-- The substitute of a condition is its own, or it has none. -/
def Proper (other : OtherMap) (c : SQLConstraint) : Prop :=
  c.substitute = [] ∨ substitution other c.comparator.str = some c.substitute

/-- The conditions behind `comparatorSubst` are those before it, settled. -/
theorem Swaps.settled {t t' : SQLConstraintSet} (thorough : rt.Thorough) (h : Swaps rt other t t')
    (proper : ∀ c ∈ t.toList, Proper other c) : t'.toList.Perm (t.toList.map (SQLConstraint.settled other)) := by
  let make : SQLAttribute × Text × Text → SQLConstraint := fun k => ⟨k.1, k.2.1, (substitution other k.2.1.str).getD [], k.2.2⟩
  have settles : ∀ c ∈ t'.toList, c = make c.core := by
    intro c mem
    have put : c.substitute = (substitution other c.comparator.str).getD [] := by
      cases made : substitution other c.comparator.str with
      | some subst =>
        rcases h with ⟨empty, rfl⟩ | run
        · rw [empty] at mem
          cases mem
        · exact thorough other t t' run c mem subst made
      | none =>
        rcases h.substituted.operators c mem with same | set
        · rcases proper c same with none | set
          · exact none
          · rw [made] at set
            cases set
        · rw [made] at set
          cases set
    change c = ⟨c.attr, c.comparator, (substitution other c.comparator.str).getD [], c.value⟩
    rw [← put]
  have after : t'.toList = (t'.toList.map SQLConstraint.core).map make := by
    rw [List.map_map]
    exact (List.map_id' _).symm.trans (List.map_congr_left settles)
  rw [after]
  have before : t.toList.map (SQLConstraint.settled other) = (t.toList.map SQLConstraint.core).map make := by
    rw [List.map_map]
    rfl
  rw [before]
  exact h.substituted.same.map make

/-! ## Conditions joined -/

/-- A letter of the handler. -/
abbrev handler (c : Char) : Letter := ⟨c, .literal⟩

/-- A letter of the words `AND` of the handler. -/
def ofAnd (x : Letter) : Bool := x.origin == .literal && (x.char == 'A' || x.char == 'N' || x.char == 'D')

/-- A condition as a text. -/
structure IsPart (p : Text) : Prop where
  ne : p ≠ []
  free : ∀ x ∈ p, ofAnd x = false

/-- The text joins the conditions. -/
structure Joins (w : Text) (ps : List Text) : Prop where
  text : w = (of .literal constrJoin).intercalate ps
  parts : ∀ p ∈ ps, IsPart p

theorem join_letters : of .literal constrJoin = [handler ' ', handler 'A', handler 'N', handler 'D', handler ' '] := rfl

theorem intercalate_part (p : Text) (ps : List Text) : (of .literal constrJoin).intercalate (p :: ps) =
    p ++ match ps with
      | [] => []
      | q :: ps => of .literal constrJoin ++ (of .literal constrJoin).intercalate (q :: ps) := by
  cases ps with
  | nil => simp [intercalate_cons]
  | cons q ps => simp [intercalate_cons]

theorem takeWhile_part {p : Text} (part : IsPart p) (t : Text) :
    (p ++ (of .literal constrJoin ++ t)).takeWhile (!ofAnd ·) = p ++ [handler ' '] := by
  rw [List.takeWhile_append_of_pos (by intro x mem; simp [part.free x mem]), join_letters]
  rfl

theorem takeWhile_last {p : Text} (part : IsPart p) : p.takeWhile (!ofAnd ·) = p :=
  List.takeWhile_eq_self_iff.2 fun x mem => by simp [part.free x mem]

theorem intercalate_ne {ps : List Text} (parts : ∀ p ∈ ps, IsPart p) (ne : ps ≠ []) : (of .literal constrJoin).intercalate ps ≠ [] := by
  obtain ⟨p, more, rfl⟩ := List.exists_cons_of_ne_nil ne
  rw [intercalate_cons]
  exact List.append_ne_nil_of_left_ne_nil (parts p List.mem_cons_self).ne _

/-- A text joins one list of conditions. -/
theorem Joins.unique {w : Text} {ps ps' : List Text} (h : Joins w ps) (h' : Joins w ps') : ps = ps' := by
  obtain ⟨rfl, parts⟩ := h
  obtain ⟨same, parts'⟩ := h'
  induction ps generalizing ps' with
  | nil =>
    cases ps' with
    | nil => rfl
    | cons p' ps' => exact absurd same.symm (intercalate_ne parts' (List.cons_ne_nil _ _))
  | cons p ps ih =>
    cases ps' with
    | nil => exact absurd same (intercalate_ne parts (List.cons_ne_nil _ _))
    | cons p' ps' =>
      have part := parts p List.mem_cons_self
      have part' := parts' p' List.mem_cons_self
      rw [intercalate_part, intercalate_part] at same
      have front := congrArg (List.takeWhile (!ofAnd ·)) same
      cases ps with
      | nil =>
        cases ps' with
        | nil => rw [List.append_cancel_right same]
        | cons q' ps' =>
          simp only [List.append_nil] at same front
          rw [takeWhile_last part, takeWhile_part part', same] at front
          have length := congrArg List.length front
          simp [join_letters] at length
      | cons q ps =>
        cases ps' with
        | nil =>
          simp only [List.append_nil] at same front
          rw [takeWhile_last part', takeWhile_part part, ← same] at front
          have length := congrArg List.length front
          simp [join_letters] at length
        | cons q' ps' =>
          simp only [takeWhile_part part, takeWhile_part part'] at front
          obtain rfl : p = p' := List.append_cancel_right front
          have rest := List.append_cancel_left (List.append_cancel_left same)
          rw [ih (fun p mem => parts p (List.mem_cons_of_mem _ mem)) rest fun p mem => parts' p (List.mem_cons_of_mem _ mem)]

/-- No stray `AND` stands in front, and none behind another. -/
theorem Joins.no_stray {w : Text} {ps : List Text} (h : Joins w ps) :
    ¬ [handler ' ', handler 'A'] <+: w ∧ ¬ [handler 'D', handler ' ', handler 'A'] <:+: w := by
  obtain ⟨rfl, parts⟩ := h
  have second : ∀ {ps : List Text}, (∀ p ∈ ps, IsPart p) → ¬ [handler 'A'] <+: (of .literal constrJoin).intercalate ps := by
    intro ps parts front
    cases ps with
    | nil => exact absurd (List.prefix_nil.1 front) (by decide)
    | cons p ps =>
      rw [intercalate_cons] at front
      obtain ⟨x, p', rfl⟩ := List.exists_cons_of_ne_nil (parts p List.mem_cons_self).ne
      obtain ⟨rfl, -⟩ := List.cons_prefix_cons.1 front
      exact absurd ((parts _ List.mem_cons_self).free _ List.mem_cons_self) (by decide)
  constructor
  · intro front
    cases ps with
    | nil => exact absurd (List.prefix_nil.1 front) (by decide)
    | cons p ps =>
      have part := parts p List.mem_cons_self
      rw [intercalate_part] at front
      obtain ⟨x, p', rfl⟩ := List.exists_cons_of_ne_nil part.ne
      obtain ⟨rfl, behind⟩ := List.cons_prefix_cons.1 front
      clear front
      cases p' with
      | cons y p' =>
        obtain ⟨rfl, -⟩ := List.cons_prefix_cons.1 behind
        exact absurd (part.free (handler 'A') (by simp)) (by decide)
      | nil =>
        cases ps with
        | nil => exact absurd (List.prefix_nil.1 behind) (by decide)
        | cons q ps =>
          obtain ⟨wrong, -⟩ := List.cons_prefix_cons.1 behind
          exact absurd wrong (by decide)
  · induction ps with
    | nil => exact fun inside => absurd (List.infix_nil.1 inside) (by decide)
    | cons p ps ih =>
      have later := fun p mem => parts p (List.mem_cons_of_mem _ mem)
      have part := (parts p List.mem_cons_self).free
      rw [intercalate_part]
      clear parts
      induction p with
      | cons x p ihp =>
        intro inside
        rcases List.infix_cons_iff.1 inside with front | inside
        · obtain ⟨rfl, -⟩ := List.cons_prefix_cons.1 front
          exact absurd (part _ List.mem_cons_self) (by decide)
        · exact ihp (fun y mem => part y (List.mem_cons_of_mem _ mem)) inside
      | nil =>
        cases ps with
        | nil => exact fun inside => absurd (List.infix_nil.1 inside) (by decide)
        | cons q ps =>
          intro inside
          rw [List.nil_append, join_letters] at inside
          simp only [List.cons_append, List.nil_append, List.infix_cons_iff] at inside
          rcases inside with front | front | front | front | front | inside
          · exact absurd (List.cons_prefix_cons.1 front).1 (by decide)
          · exact absurd (List.cons_prefix_cons.1 front).1 (by decide)
          · exact absurd (List.cons_prefix_cons.1 front).1 (by decide)
          · exact second later (List.cons_prefix_cons.1 (List.cons_prefix_cons.1 front).2).2
          · exact absurd (List.cons_prefix_cons.1 front).1 (by decide)
          · exact ih later inside

/-- No letter of an `AND` of the handler. -/
def Free (t : Text) : Prop := ∀ x ∈ t, ofAnd x = false

theorem Free.append {a b : Text} (ha : Free a) (hb : Free b) : Free (a ++ b) := by
  intro x mem
  exact (List.mem_append.1 mem).elim (ha x) (hb x)

theorem free_of_origin {t : Text} (other : ∀ x ∈ t, x.origin ≠ .literal) : Free t := by
  intro x mem
  simp [ofAnd, other x mem]

theorem free_of_dataset {t : Text} (h : OfDataset t) : Free t :=
  free_of_origin fun x mem => by simp [h x mem]

/-! ## Operators -/

/-- What stands for a comparator: a value of the section between blanks, `<>` or `LIKE`. -/
theorem substitution_cases {comparator : Str} {subst : Text} (made : substitution other comparator = some subst) :
    (∃ v, getOther other comparator = some v ∧ subst = lit " " ++ of .dataset v ++ lit " ") ∨
      subst = lit "<>" ∨ subst = lit " LIKE " := by
  unfold substitution at made
  split at made
  · rename_i v found
    cases made
    exact .inl ⟨v, found, rfl⟩
  · split at made
    · cases made
      exact .inr (.inl rfl)
    · split at made
      · cases made
        exact .inr (.inr rfl)
      · cases made

theorem substitution_free {comparator : Str} {subst : Text} (made : substitution other comparator = some subst) : Free subst := by
  have letters : ∀ t : String, ((lit t).all fun x => !ofAnd x) = true → Free (lit t) := fun t all x mem => by
    simpa using List.all_eq_true.1 all x mem
  rcases substitution_cases made with ⟨v, -, rfl⟩ | rfl | rfl
  · exact ((letters " " (by decide)).append (free_of_origin fun x mem => by simp [origin_of mem])).append (letters " " (by decide))
  · exact letters "<>" (by decide)
  · exact letters " LIKE " (by decide)

theorem settled_operator (c : SQLConstraint) :
    (c.settled other).operator = (substitution other c.comparator.str).getD c.comparator := by
  unfold SQLConstraint.settled SQLConstraint.operator
  cases made : substitution other c.comparator.str with
  | none => simp
  | some subst => simp [substitution_ne made]

theorem settled_free {c : SQLConstraint} (comparator : Free c.comparator) : Free (c.settled other).operator := by
  rw [settled_operator]
  cases made : substitution other c.comparator.str with
  | none => exact comparator
  | some subst => exact substitution_free made

theorem settled_operator_ne {c : SQLConstraint} (comparator : c.comparator.str ∈ comparators) : (c.settled other).operator ≠ [] := by
  rw [settled_operator]
  cases made : substitution other c.comparator.str with
  | none =>
    intro empty
    rw [Option.getD_none] at empty
    rw [empty] at comparator
    exact (comparator_compChar comparator).1 rfl
  | some subst => exact substitution_ne made

/-! ## Blanks -/

/-- The text without the blanks around it. -/
def trimmed (t : Text) : Text := (t.dropWhile fun x => x.char == ' ').rdropWhile fun x => x.char == ' '

theorem trimmed_split (t : Text) : ∃ sp sp', t = sp ++ trimmed t ++ sp' ∧ (∀ x ∈ sp, x.char = ' ') ∧ ∀ x ∈ sp', x.char = ' ' := by
  let blank : Letter → Bool := fun x => x.char == ' '
  refine ⟨t.takeWhile blank, (t.dropWhile blank).rtakeWhile blank, ?_, ?_, ?_⟩
  · rw [trimmed, List.append_assoc, List.rdropWhile, List.rtakeWhile, ← List.reverse_append, List.takeWhile_append_dropWhile,
      List.reverse_reverse, List.takeWhile_append_dropWhile]
  · intro x mem
    simpa [blank] using List.mem_takeWhile_imp mem
  · intro x mem
    simpa [blank] using List.mem_rtakeWhile_imp mem

theorem trimmed_self {t : Text} (letters : ∀ x ∈ t, x.char ≠ ' ') : trimmed t = t := by
  have front : t.dropWhile (fun x => x.char == ' ') = t := by
    cases t with
    | nil => rfl
    | cons x t => rw [List.dropWhile_cons_of_neg (by simpa using letters x List.mem_cons_self)]
  rw [trimmed, front, List.rdropWhile_eq_self_iff]
  intro ne
  simpa using letters _ (List.getLast_mem ne)

/-- Blanks around a text do not count. -/
theorem trimmed_between (t : Text) : trimmed (lit " " ++ t ++ lit " ") = trimmed t := by
  have one : lit " " = [handler ' '] := rfl
  rw [trimmed, trimmed, one, List.append_assoc, List.singleton_append, List.dropWhile_cons_of_pos rfl, List.dropWhile_append]
  split
  · rename_i empty
    rw [List.isEmpty_iff.1 empty]
    rfl
  · exact List.rdropWhile_concat_pos _ _ _ rfl

/-- The letters that are no blanks. -/
def bare (t : Text) : Str := t.str.filter (· != ' ')

theorem bare_append (a b : Text) : bare (a ++ b) = bare a ++ bare b := by simp [bare]

theorem bare_blanks {t : Text} (blanks : ∀ x ∈ t, x.char = ' ') : bare t = [] := by
  unfold bare str
  rw [List.filter_eq_nil_iff]
  intro c mem
  obtain ⟨x, inText, rfl⟩ := List.mem_map.1 mem
  simp [blanks x inText]

theorem bare_self {t : Text} (letters : ∀ c ∈ t.str, c ≠ ' ') : bare t = t.str :=
  List.filter_eq_self.2 fun c mem => by simpa using letters c mem

theorem bare_trimmed (t : Text) : bare (trimmed t) = bare t := by
  obtain ⟨sp, sp', whole, front, behind⟩ := trimmed_split t
  conv => rhs; rw [whole]
  rw [bare_append, bare_append, bare_blanks front, bare_blanks behind, List.nil_append, List.append_nil]

/-! ## What is read again -/

/-- The operator is one that the grammar reads. -/
def Readable (c : SQLConstraint) : Prop := (trimmed c.operator).str ∈ comparators

/-- A condition with such an operator is a word of the grammar, also behind blanks. -/
theorem condition_word {c : SQLConstraint} (attr : IsConstrAttr c.attr.attr.str) (value : IsConstrVal c.value.str)
    (readable : Readable c) (lead : Text) (blanks : ∀ x ∈ lead, x.char = ' ') : ∃ k : ConstrWord, (lead ++ c.toText).str = k.word ∧
      k.lead = lead.str ∧ k.attr = c.attr.attr.str ∧ k.comparator = (trimmed c.operator).str ∧ k.value = c.value.str := by
  obtain ⟨sp, sp', whole, front, behind⟩ := trimmed_split c.operator
  have letters : ∀ {t : Text}, (∀ x ∈ t, x.char = ' ') → ∀ d ∈ t.str, d = ' ' := by
    intro t all d mem
    obtain ⟨x, inText, rfl⟩ := List.mem_map.1 mem
    exact all x inText
  refine ⟨⟨lead.str, [], c.attr.attr.str, sp.str, (trimmed c.operator).str, sp'.str, c.value.str, letters blanks, .inl rfl, attr,
    letters front, readable, letters behind, value⟩, ?_, rfl, rfl, rfl, rfl⟩
  have operator := congrArg str whole
  rw [str_append, str_append] at operator
  rw [SQLConstraint.toText, ConstrWord.word, ConstrWord.upTo, str_append, str_append, str_append, operator]
  simp

theorem constr_letters {a : Str} (h : IsConstrAttr a) : ∀ c ∈ a, c ≠ ' ' ∧ compChar c = false ∧ c ≠ Char.ofNat 0 := by
  intro c mem
  rcases h.letters.2 c mem with letter | rfl
  · refine ⟨?_, prefixChar_compChar letter, ?_⟩ <;>
    · rintro rfl
      exact absurd letter (by decide)
  · decide

theorem value_letters {v : Str} (h : IsConstrVal v) : ∀ c ∈ v, c ≠ ' ' ∧ compChar c = false ∧ c ≠ Char.ofNat 0 := by
  intro c mem
  have letter := h.letters c mem
  refine ⟨?_, valueChar_compChar letter, ?_⟩ <;>
  · rintro rfl
    exact absurd letter (by decide)

/-- A text of one condition is read as that condition. -/
theorem single_read {shape : Shape} {c : SQLConstraint} (cond : IsCondition other c) (readable : Readable c) {left : Text}
    {loaded : SQLConstraintSet} (run : SQLQuery.loadConstraints shape c.toText = .ok loaded left) :
    left = [] ∧ ∃ d, loaded.toList = [d] ∧ d.attr.nameKey = c.attr.nameKey ∧ d.comparator.str = (trimmed c.operator).str ∧
      d.value.str = c.value.str ∧ d.substitute = [] ∧ ∀ x ∈ d.letters, x ∈ c.toText := by
  obtain ⟨k, word, lead, attr, comparator, value⟩ := condition_word cond.attr cond.value readable [] (by simp)
  rw [List.nil_append] at word
  obtain ⟨m, found, erased, extracts⟩ := cut_one [] [] word nofun nofun nofun (.inl rfl) (.inl rfl)
  simp only [List.nil_append, List.append_nil] at found erased extracts
  have stop : StringMatch.Cuts (regexec contRegConstrBase) (c.toText.erase m.so m.len) [] [] := by
    rw [erased]
    exact .stop constrBase_nil
  have path := StringMatch.Cuts.cut found stop
  obtain ⟨rfl, constraints, perm, reads⟩ := SQLQuery.loadConstraints_words run path (.cons extracts .nil)
  refine ⟨rfl, ?_⟩
  cases reads with
  | @cons d _ constraints _ read none =>
    cases none
    have one := List.perm_singleton.1 perm
    refine ⟨d, one, ?_, read.comparator.trans comparator, read.value.trans value, read.substitute, fun x inText => ?_⟩
    · obtain ⟨-, -, form, -⟩ := SQLAttribute.make_ok read.made
      obtain ⟨-, -, form', -⟩ := SQLAttribute.make_ok cond.made
      have same : d.attr.attr.cStr = c.attr.attr.cStr := by
        rw [Text.cStr, Text.cStr, read.attr.trans attr]
      exact (form.accepts.unique (same ▸ form'.accepts)).2
    · exact (loadConstraints_grammar run d (by rw [one]; exact List.mem_singleton_self d)).letters x inText

theorem plain_toText {c : SQLConstraint} (cond : IsCondition other c) (operator : Plain c.operator) : Plain c.toText := by
  have attr : Plain c.attr.attr := fun d mem => (constr_letters cond.attr d mem).2.1
  have value : Plain c.value := fun d mem => (value_letters cond.value d mem).2.1
  exact (attr.append operator).append value

theorem noNul_toText {c : SQLConstraint} (cond : IsCondition other c) (operator : NoNul c.operator) : NoNul c.toText := by
  have attr : NoNul c.attr.attr := fun mem => (constr_letters cond.attr _ mem).2.2 rfl
  have value : NoNul c.value := fun mem => (value_letters cond.value _ mem).2.2 rfl
  exact (attr.append operator).append value

theorem joinConditions_cons (c : SQLConstraint) (l : List SQLConstraint) :
    joinConditions (c :: l) = c.toText ++ l.flatMap fun c => of .literal constrJoin ++ c.toText := by
  rw [joinConditions_eq, clauseText, List.map_cons, List.map_cons, intercalate_cons, List.map_map, List.flatMap_map]
  rfl

/-- A text of conditions without comparators is read as none. -/
theorem plain_read {shape : Shape} {l : List SQLConstraint} (conds : ∀ c ∈ l, IsCondition other c)
    (plain : ∀ c ∈ l, Plain c.operator) {left : Text} {loaded : SQLConstraintSet}
    (run : SQLQuery.loadConstraints shape (joinConditions l) = .ok loaded left) : left = joinConditions l ∧ loaded.toList = [] := by
  have whole : Plain (joinConditions l) := by
    cases l with
    | nil => exact nofun
    | cons c l =>
      rw [joinConditions_cons]
      have text : ∀ c' ∈ c :: l, Plain c'.toText := fun c' mem => plain_toText (conds c' mem) (plain c' mem)
      refine (text c List.mem_cons_self).append fun d mem => ?_
      obtain ⟨x, inTexts, rfl⟩ := List.mem_map.1 mem
      obtain ⟨c', inList, inText⟩ := List.mem_flatMap.1 inTexts
      rcases List.mem_append.1 inText with inJoin | inText
      · have all : ((of .literal constrJoin).all fun x => !compChar x.char) = true := by decide
        simpa using List.all_eq_true.1 all x inJoin
      · exact text c' (List.mem_cons_of_mem _ inList) _ (List.mem_map_of_mem inText)
  have stop : regexec contRegConstrBase (joinConditions l).cStr = none :=
    constrBase_plain fun d mem => whole d (List.takeWhile_sublist _ |>.subset mem)
  obtain ⟨rfl, constraints, perm, reads⟩ := SQLQuery.loadConstraints_words run (.stop stop) .nil
  cases reads
  exact ⟨rfl, List.perm_nil.1 perm⟩

/-- What a match leaves between two conditions. -/
def andWord : Text := [handler ' ', handler 'A', handler 'N', handler 'D']

theorem join_split (t : Text) : of .literal constrJoin ++ t = andWord ++ (lit " " ++ t) := rfl

/-- A condition that the loop takes out or leaves as it is. -/
structure Legible (other : OtherMap) (c : SQLConstraint) : Prop extends IsCondition other c where
  noNul : NoNul c.operator
  kinds : Readable c ∨ Plain c.operator
  value_ne : c.value ≠ []

theorem legible_stretch {c : SQLConstraint} (h : Legible other c) : ∃ t : Stretch, of .literal constrJoin ++ c.toText = t.text ∧
    t.front = andWord ∧ (Readable c → t.word.isSome = true) := by
  have plain : Plain andWord := fun d mem => by
    have all : (andWord.all fun x => !compChar x.char) = true := by decide
    obtain ⟨x, inText, rfl⟩ := List.mem_map.1 mem
    simpa using List.all_eq_true.1 all x inText
  have noNul : NoNul andWord := by unfold NoNul; decide
  have ends : ∃ init d, andWord.str = init ++ [d] ∧ d ≠ ' ' ∧ d ≠ '&' := ⟨[' ', 'A', 'N'], 'D', rfl, by decide, by decide⟩
  have blank : ∀ x ∈ lit " ", x.char = ' ' := by
    intro x mem
    rw [List.mem_singleton.1 mem]
    rfl
  by_cases readable : Readable c
  · obtain ⟨k, word, lead, -, -, value⟩ := condition_word h.attr h.value readable (lit " ") blank
    refine ⟨⟨andWord, lit " " ++ c.toText, some k, plain, noNul, rfl, nofun, ?_, ?_, ?_, ends⟩, join_split _, rfl, fun _ => rfl⟩
    · intro k' same
      cases same
      exact word
    · intro k' same
      cases same
      rw [value]
      exact mt str_eq_nil.1 h.value_ne
    · intro k' same
      cases same
      rw [lead]
      exact List.cons_ne_nil _ _
  · have operator := h.kinds.resolve_left readable
    have blankPlain : Plain (lit " ") := fun d mem => by rw [List.mem_singleton.1 mem]; decide
    have blankNul : NoNul (lit " ") := by unfold NoNul; decide
    refine ⟨⟨andWord, lit " " ++ c.toText, none, plain, noNul, rfl, fun _ => ⟨?_, ?_⟩, nofun, nofun, nofun, ends⟩, join_split _, rfl,
      fun is => absurd is readable⟩
    · exact blankPlain.append (plain_toText h.toIsCondition operator)
    · exact blankNul.append (noNul_toText h.toIsCondition h.noNul)

theorem legible_stretches {l : List SQLConstraint} (h : ∀ c ∈ l, Legible other c) : ∃ ts : List Stretch,
    (l.flatMap fun c => of .literal constrJoin ++ c.toText) = ts.flatMap Stretch.text ∧
      List.Forall₂ (fun c t => t.front = andWord ∧ (Readable c → t.word.isSome = true)) l ts := by
  induction l with
  | nil => exact ⟨[], rfl, .nil⟩
  | cons c l ih =>
    obtain ⟨t, text, front, word⟩ := legible_stretch (h c List.mem_cons_self)
    obtain ⟨ts, texts, all⟩ := ih fun c' mem => h c' (List.mem_cons_of_mem _ mem)
    exact ⟨t :: ts, by rw [List.flatMap_cons, List.flatMap_cons, text, texts], .cons ⟨front, word⟩ all⟩

theorem left_front (t : Stretch) : ∃ rest, t.left = t.front ++ rest := by
  unfold Stretch.left
  split
  · exact ⟨[], (List.append_nil _).symm⟩
  · exact ⟨t.body, rfl⟩

/-- In front of a condition there is a blank and the first letter of an `AND`. -/
theorem lefts_front (ts : List Stretch) (fronts : ∀ t ∈ ts, t.front = andWord) (tail : Text) :
    [handler ' ', handler 'A'] <+: ts.flatMap Stretch.left ++ (of .literal constrJoin ++ tail) := by
  cases ts with
  | nil => exact ⟨[handler 'N', handler 'D', handler ' '] ++ tail, rfl⟩
  | cons t ts =>
    obtain ⟨rest, left⟩ := left_front t
    rw [List.flatMap_cons, left, fronts t List.mem_cons_self]
    exact ⟨[handler 'N', handler 'D'] ++ (rest ++ ts.flatMap Stretch.left ++ (of .literal constrJoin ++ tail)), by simp [andWord]⟩

/-- Of several conditions, one of which is read, a stray `AND` is left. -/
theorem several_read {shape : Shape} {c : SQLConstraint} {l : List SQLConstraint} (legible : ∀ c' ∈ c :: l, Legible other c')
    (several : l ≠ []) (readable : ∃ c' ∈ c :: l, Readable c') {left : Text} {loaded : SQLConstraintSet}
    (run : SQLQuery.loadConstraints shape (joinConditions (c :: l)) = .ok loaded left) : loaded.toList ≠ [] ∧ left ≠ [] ∧
      ∀ tail, [handler ' ', handler 'A'] <+: left ++ (of .literal constrJoin ++ tail) ∨
        [handler 'D', handler ' ', handler 'A'] <:+: left ++ (of .literal constrJoin ++ tail) := by
  have first := legible c List.mem_cons_self
  obtain ⟨ts, texts, all⟩ := legible_stretches fun c' mem => legible c' (List.mem_cons_of_mem _ mem)
  rw [joinConditions_cons, texts] at run
  have fronts : ∀ t ∈ ts, t.front = andWord := fun t mem => by
    obtain ⟨-, -, front, -⟩ := (forall₂_mem all).1 t mem
    exact front
  have some' : ts ≠ [] := by
    rintro rfl
    exact several (List.forall₂_nil_right_iff.1 all)
  have noTail : Plain [] ∧ NoNul [] := ⟨nofun, nofun⟩
  by_cases here : Readable c
  · -- the text left starts with an `AND`
    obtain ⟨k, word, -, -, -, value⟩ := condition_word first.attr first.value here [] (by simp)
    rw [List.nil_append] at word
    have behind := Stretch.texts_head ts (.inl rfl)
    rw [List.append_nil] at behind
    have noNul := Stretch.texts_noNul ts noTail.2
    rw [List.append_nil] at noNul
    obtain ⟨m, found, erased, extract⟩ := cut_one [] _ word nofun nofun noNul (.inl rfl)
      (behind.imp_right fun blank => ⟨by rw [value]; exact mt str_eq_nil.1 first.value_ne, blank⟩)
    obtain ⟨cuts, path, extracts⟩ := Stretch.cuts ts noTail.1 noTail.2 noTail.1 noTail.2 (.inl rfl)
    simp only [List.nil_append, List.append_nil] at found erased extract path
    rw [← erased] at path
    obtain ⟨rfl, constraints, perm, reads⟩ := SQLQuery.loadConstraints_words run (.cut found path) (.cons extract extracts)
    refine ⟨?_, ?_, fun tail => .inl (lefts_front ts fronts tail)⟩
    · intro none
      rw [none] at perm
      rw [List.nil_perm.1 perm] at reads
      cases reads
    · obtain ⟨t, more, rfl⟩ := List.exists_cons_of_ne_nil some'
      obtain ⟨rest, left⟩ := left_front t
      rw [List.flatMap_cons, left, fronts t List.mem_cons_self]
      exact List.cons_ne_nil _ _
  · -- an `AND` with nothing behind it stands in front of the next one
    have plain := plain_toText first.toIsCondition (first.kinds.resolve_left here)
    have noNul := noNul_toText first.toIsCondition first.noNul
    obtain ⟨cuts, path, extracts⟩ := Stretch.cuts ts plain noNul noTail.1 noTail.2 (.inl rfl)
    simp only [List.append_nil] at path
    obtain ⟨rfl, constraints, perm, reads⟩ := SQLQuery.loadConstraints_words run path extracts
    obtain ⟨c', inList, is⟩ := readable
    rcases List.mem_cons.1 inList with rfl | inList
    · exact absurd is here
    obtain ⟨t, inStretches, front, word⟩ := (forall₂_mem all).2 c' inList
    obtain ⟨k, taken⟩ := Option.isSome_iff_exists.1 (word is)
    refine ⟨?_, ?_, fun tail => .inr ?_⟩
    · intro none
      rw [none] at perm
      rw [List.nil_perm.1 perm, List.forall₂_nil_left_iff, List.filterMap_eq_nil_iff] at reads
      rw [reads t inStretches] at taken
      cases taken
    · refine List.append_ne_nil_of_left_ne_nil ?_ _
      intro empty
      obtain ⟨d, more, attr⟩ := List.exists_cons_of_ne_nil first.attr.letters.1
      have := congrArg str empty
      rw [SQLConstraint.toText, str_append, str_append, attr] at this
      cases this
    · obtain ⟨ts₁, ts₂, rfl⟩ := List.append_of_mem inStretches
      have only : t.left = andWord := by
        unfold Stretch.left
        rw [word is, if_pos rfl, front]
      obtain ⟨rest, next⟩ := lefts_front ts₂ (fun t mem => fronts t (by simp [mem])) tail
      refine ⟨c.toText ++ ts₁.flatMap Stretch.left ++ [handler ' ', handler 'A', handler 'N'], rest, ?_⟩
      rw [List.flatMap_append, List.flatMap_cons, only]
      have shape : c.toText ++ (ts₁.flatMap Stretch.left ++ (andWord ++ ts₂.flatMap Stretch.left)) ++ (of .literal constrJoin ++ tail) =
          c.toText ++ ts₁.flatMap Stretch.left ++ andWord ++ (ts₂.flatMap Stretch.left ++ (of .literal constrJoin ++ tail)) := by
        simp only [List.append_assoc]
      rw [shape, ← next]
      simp [andWord]

/-! ## The two clauses -/

/-- The two texts join the same conditions, up to blanks. -/
def SameConditions (w w' : Text) : Prop :=
  ∃ ps ps', Joins w ps ∧ Joins w' ps' ∧ ∀ x, x ∈ ps.map bare ↔ x ∈ ps'.map bare

/-- Then they select the same rows of any table, whatever the conditions mean. -/
theorem SameConditions.rows {w w' : Text} (h : SameConditions w w') : ∃ ps ps', Joins w ps ∧ Joins w' ps' ∧
    ∀ {Row : Type} (holds : Str → Row → Bool) (rows : List Row),
      rows.filter (fun row => ps.all fun p => holds (bare p) row) = rows.filter (fun row => ps'.all fun p => holds (bare p) row) := by
  obtain ⟨ps, ps', joins, joins', same⟩ := h
  refine ⟨ps, ps', joins, joins', fun holds rows => List.filter_congr fun row _ => ?_⟩
  have all : ∀ l : List Text, (l.all fun p => holds (bare p) row) = (l.map bare).all fun x => holds x row := fun l => by
    rw [List.all_map]
    rfl
  rw [all, all, Bool.eq_iff_iff, List.all_eq_true, List.all_eq_true]
  exact ⟨fun h x mem => h x ((same x).2 mem), fun h x mem => h x ((same x).1 mem)⟩

/-- The conditions of a section as they stand in a statement. -/
def settledConditions (s : DatasetSection) : List SQLConstraint := s.whereSet.toList.map (SQLConstraint.settled s.other)

theorem IsCondition.part {c : SQLConstraint} (h : IsCondition other c) : IsPart c.toText := by
  have letters : ∀ t : Text, (∀ x ∈ t, x ∈ c.attr.attr ++ c.comparator ++ c.value) → Free t :=
    fun t inside => free_of_dataset fun x mem => h.letters x (inside x mem)
  have operator : Free c.operator := by
    unfold SQLConstraint.operator
    split
    · rename_i set
      exact substitution_free (h.substitute.resolve_left set)
    · exact letters _ fun x mem => by simp [mem]
  constructor
  · rw [SQLConstraint.toText, List.append_assoc]
    exact List.append_ne_nil_of_left_ne_nil (mt str_eq_nil.2 h.attr.letters.1) _
  · exact ((letters _ fun x mem => by simp [mem]).append operator).append (letters _ fun x mem => by simp [mem])

/-- A condition loaded from a text without an `AND` of the handler. -/
theorem Loaded.part {s : DatasetSection} (h : Loaded rt s) {row : Text} (free : Free row) {c : SQLConstraint}
    (grammar : OfGrammar row c) : IsPart ((c.settled s.other).conjunctIn s.query.select).text := by
  have letters : ∀ t : Text, (∀ x ∈ t, x ∈ c.letters) → Free t := fun t inside x mem => free x (grammar.letters x (inside x mem))
  have comparator : Free c.comparator := letters _ fun x mem => by simp [SQLConstraint.letters, mem]
  constructor
  · rw [Conjunct.text, SQLConstraint.conjunctIn]
    exact List.append_ne_nil_of_left_ne_nil (List.append_ne_nil_of_right_ne_nil _ (settled_operator_ne grammar.comparator)) _
  · refine (Free.append ?_ (settled_free comparator)).append (letters _ fun x mem => by
      have inValue : x ∈ c.value := mem
      simp [SQLConstraint.letters, inValue])
    unfold SQLConstraint.conjunctIn
    cases found : find attrNameComp (c.settled s.other).attr s.query.select with
    | none => exact List.forall_mem_nil _
    | some a => exact free_of_dataset (h.fullName a (find_mem found)).1

/-- The clause of the request: the conditions of the section, and those loaded. -/
theorem query_joins {s : DatasetSection} (h : Loaded rt s) (thorough : rt.Thorough) {t : SQLConstraintSet}
    (swaps : Swaps rt s.other s.whereSet t) {row left : Text} (free : Free row) {found : List SQLConstraint}
    (loads : LoadsBy rt s row left found) : ∃ (loaded : SQLConstraintSet) (own : List SQLConstraint), SQLQuery.loadConstraints rt.shape row = .ok loaded left ∧
      own.Perm (settledConditions s) ∧
      Joins (found.foldl (addCondition s.query.select) (joinConditions t.toList)) (own.map SQLConstraint.toText ++
        found.map fun c => (c.conjunctIn s.query.select).text) ∧
      found.Perm (loaded.toList.map (SQLConstraint.settled s.other)) := by
  obtain ⟨loaded, t', load, swaps', rfl⟩ := loads
  have grammar := loadConstraints_grammar load
  have perm := swaps.settled thorough fun c mem => (h.isCondition c mem).substitute
  have perm' := swaps'.settled thorough fun c mem => .inl (grammar c mem).substitute
  have conds : ∀ c ∈ t.toList, IsCondition s.other c := (h.setWhere swaps.substituted).isCondition
  have parts : ∀ c ∈ t'.toList, IsPart (c.conjunctIn s.query.select).text ∧ c.operator ≠ [] := by
    intro c mem
    obtain ⟨b, inLoaded, rfl⟩ := List.mem_map.1 (perm'.mem_iff.1 mem)
    exact ⟨h.part free (grammar b inLoaded), settled_operator_ne (grammar b inLoaded).comparator⟩
  refine ⟨loaded, t.toList, load, perm, ⟨?_, ?_⟩, perm'⟩
  · rw [joinConditions_eq, conditions_clause _ fun c mem => (parts c mem).2]
    · rw [clauseText, List.map_append, List.map_map, List.map_map]
      rfl
    · intro empty
      refine List.eq_nil_iff_forall_not_mem.2 fun k mem => clauseText_ne mem ?_ empty
      obtain ⟨c, inSet, rfl⟩ := List.mem_map.1 mem
      exact (conds c inSet).part.ne
  · intro p mem
    rcases List.mem_append.1 mem with mem | mem
    · obtain ⟨c, inSet, rfl⟩ := List.mem_map.1 mem
      exact (conds c inSet).part
    · obtain ⟨c, inFound, rfl⟩ := List.mem_map.1 mem
      exact (parts c inFound).1

/-- The clause of the rows counted, where nothing is read again. -/
theorem count_plain {s : DatasetSection} {t : SQLConstraintSet} (conds : ∀ c ∈ t.toList, IsCondition s.other c)
    (plain : ∀ c ∈ t.toList, Plain c.operator) {left : Text} {found : List SQLConstraint}
    (reread : LoadsBy rt s (joinConditions t.toList) left found) :
    Joins (found.foldl (addCondition s.query.select) left) (t.toList.map SQLConstraint.toText) := by
  obtain ⟨loaded, t', load, swaps, rfl⟩ := reread
  obtain ⟨rfl, none⟩ := plain_read conds plain load
  rw [swaps.substituted.nil_iff.2 none, List.foldl_nil]
  constructor
  · rw [joinConditions_eq, clauseText, List.map_map]
    rfl
  · intro p mem
    obtain ⟨c, inSet, rfl⟩ := List.mem_map.1 mem
    exact (conds c inSet).part

/-- Where one condition is read again. -/
theorem count_single {s : DatasetSection} (h : Loaded rt s) (thorough : rt.Thorough) {t : SQLConstraintSet} {c : SQLConstraint}
    (one : t.toList = [c]) (cond : IsCondition s.other c) (readable : Readable c) {left : Text} {found : List SQLConstraint}
    (reread : LoadsBy rt s (joinConditions t.toList) left found) : ∃ d : SQLConstraint,
      Joins (found.foldl (addCondition s.query.select) left) [((d.settled s.other).conjunctIn s.query.select).text] ∧
      d.attr.nameKey = c.attr.nameKey ∧ d.comparator.str = (trimmed c.operator).str ∧ d.value.str = c.value.str := by
  obtain ⟨loaded, t', load, swaps, rfl⟩ := reread
  have text : joinConditions t.toList = c.toText := by
    rw [one]
    rfl
  rw [text] at load
  obtain ⟨rfl, d, elements, name, comparator, value, substitute, letters⟩ := single_read cond readable load
  have perm := swaps.settled thorough (by
    intro c' mem
    rw [elements] at mem
    rw [List.mem_singleton.1 mem]
    exact .inl substitute)
  rw [elements, List.map_singleton, List.perm_singleton] at perm
  have grammar := loadConstraints_grammar load d (by rw [elements]; exact List.mem_singleton_self d)
  refine ⟨d, ⟨?_, ?_⟩, name, comparator, value⟩
  · have none : clauseText [] = [] → ([] : List Conjunct) = [] := fun _ => rfl
    have clause := addCondition_clause s.query.select none (d.settled s.other)
    rw [perm, List.foldl_cons, List.foldl_nil]
    exact clause
  · intro p mem
    rw [List.mem_singleton.1 mem]
    exact h.part cond.part.free grammar

/-- Where several conditions are read again, the clause joins no conditions. -/
theorem count_stray {s : DatasetSection} {t : SQLConstraintSet} (thorough : rt.Thorough) (legible : ∀ c ∈ t.toList, Legible s.other c)
    (several : 1 < t.toList.length) (readable : ∃ c ∈ t.toList, Readable c) {left : Text} {found : List SQLConstraint}
    (reread : LoadsBy rt s (joinConditions t.toList) left found) (ps : List Text) :
    ¬ Joins (found.foldl (addCondition s.query.select) left) ps := by
  obtain ⟨loaded, t', load, swaps, rfl⟩ := reread
  generalize t.toList = l at legible several readable load
  cases l with
  | nil => simp at several
  | cons c l =>
    have others : l ≠ [] := by
      rintro rfl
      simp at several
    obtain ⟨some', ne, stray⟩ := several_read legible others readable load
    have grammar := loadConstraints_grammar load
    have perm := swaps.settled thorough fun c mem => .inl (grammar c mem).substitute
    have operators : ∀ c ∈ t'.toList, c.operator ≠ [] := by
      intro c mem
      obtain ⟨b, inLoaded, rfl⟩ := List.mem_map.1 (perm.mem_iff.1 mem)
      exact settled_operator_ne (grammar b inLoaded).comparator
    obtain ⟨d, more, elements⟩ := List.exists_cons_of_ne_nil (mt swaps.substituted.nil_iff.1 some')
    -- what is left stands in front like a condition
    have alone : clauseText [⟨left, [], []⟩] = left := by simp [clauseText, intercalate_cons, Conjunct.text]
    have start : clauseText [⟨left, [], []⟩] = [] → [(⟨left, [], []⟩ : Conjunct)] = [] := fun empty => absurd (alone ▸ empty) ne
    have clause := conditions_clause s.query.select operators start
    rw [alone, elements, List.map_cons, List.singleton_append, clauseText, List.map_cons, List.map_cons, intercalate_cons,
      List.flatMap_cons, List.append_assoc] at clause
    intro joins
    rw [elements, clause] at joins
    have text : (⟨left, [], []⟩ : Conjunct).text = left := by simp [Conjunct.text]
    rw [text] at joins
    obtain ⟨front, inside⟩ := joins.no_stray
    rcases stray _ with wrong | wrong
    · exact front wrong
    · exact inside wrong

/-! ## A condition that reads back -/

/-- The condition is read again under its own name, and its operator stands for itself. -/
structure ReadsBack (s : DatasetSection) (c : SQLConstraint) : Prop where
  readable : Readable c
  known : ∃ a, find attrNameComp c.attr s.query.select = some a ∧ a.fullName.str = c.attr.attr.str
  operator : ∀ subst, substitution s.other (trimmed c.operator).str = some subst → bare subst = bare c.operator

/-- Every substitute of the section for a comparator is one of the comparators or has none of their
letters, and no NUL. -/
def Tame (other : OtherMap) : Prop := ∀ comparator ∈ comparators, ∀ v, getOther other comparator = some v →
  Char.ofNat 0 ∉ v ∧ ((trimmed (of .dataset v)).str ∈ comparators ∨ ∀ c ∈ v, compChar c = false)

theorem comparator_bare {t : Text} (comparator : t.str ∈ comparators) : bare t = t.str := by
  refine bare_self fun c mem => ?_
  rintro rfl
  exact absurd ((comparator_compChar comparator).2 _ mem) (by decide)

theorem readable_operator {c : SQLConstraint} (readable : Readable c) : bare c.operator = (trimmed c.operator).str := by
  rw [← bare_trimmed, comparator_bare readable]

/-- A substitute is one of the comparators or has none of their letters. -/
theorem Tame.substitution {comparator : Str} (tame : Tame other) (mem : comparator ∈ comparators) {subst : Text}
    (made : substitution other comparator = some subst) :
    NoNul subst ∧ ((trimmed subst).str ∈ comparators ∨ Plain subst) := by
  rcases substitution_cases made with ⟨v, found, rfl⟩ | rfl | rfl
  · obtain ⟨noNul, kinds⟩ := tame comparator mem v found
    have blank : NoNul (lit " ") ∧ Plain (lit " ") := by
      unfold NoNul
      exact ⟨by decide, fun d mem => by rw [List.mem_singleton.1 mem]; decide⟩
    refine ⟨?_, ?_⟩
    · exact (blank.1.append (by unfold NoNul; rwa [str_of])).append blank.1
    · rw [trimmed_between]
      refine kinds.imp_right fun plain => ?_
      exact (blank.2.append fun d mem => plain d (by rwa [str_of] at mem)).append blank.2
  · exact ⟨by unfold NoNul; decide, .inl (by decide)⟩
  · refine ⟨by unfold NoNul; decide, .inr fun d mem => ?_⟩
    have all : (" LIKE ".toList.all fun c => !compChar c) = true := by decide
    rw [lit, str_of] at mem
    simpa using List.all_eq_true.1 all d mem

theorem Tame.legible {c : SQLConstraint} (tame : Tame other) (cond : IsCondition other c) (settled : c.settled other = c)
    (value_ne : c.value ≠ []) : Legible other c := by
  have operator : (c.settled other).operator = _ := settled_operator c
  rw [settled] at operator
  refine ⟨cond, ?_, ?_, value_ne⟩
  · rw [operator]
    cases made : SQLTextContainer.substitution other c.comparator.str with
    | some subst => exact (tame.substitution cond.comparator made).1
    | none =>
      intro mem
      have letter := (comparator_compChar cond.comparator).2 _ mem
      rw [compChar_nul] at letter
      cases letter
  · unfold Readable
    rw [operator]
    cases made : SQLTextContainer.substitution other c.comparator.str with
    | some subst => exact (tame.substitution cond.comparator made).2
    | none =>
      left
      rw [Option.getD_none, trimmed_self]
      · exact cond.comparator
      · intro x mem
        have letter := (comparator_compChar cond.comparator).2 _ (List.mem_map_of_mem mem)
        intro blank
        rw [blank] at letter
        exact absurd letter (by decide)

/-- Texts up to a comparator, and the comparator: the parts are determined. -/
theorem comparator_parts {a a' x x' : Str} (plain : ∀ c ∈ a, compChar c = false) (plain' : ∀ c ∈ a', compChar c = false)
    (mem : x ∈ comparators) (mem' : x' ∈ comparators) (same : a ++ x = a' ++ x') : a = a' ∧ x = x' := by
  have front : ∀ {a x : Str}, (∀ c ∈ a, compChar c = false) → x ∈ comparators → (a ++ x).takeWhile (!compChar ·) = a := by
    intro a x plain mem
    refine (run_split (fun c inA => by simp [plain c inA]) ?_).1
    intro c inX
    simp [(comparator_compChar mem).2 c (List.mem_of_mem_head? inX)]
  have first : a = a' := by rw [← front plain mem, same, front plain' mem']
  subst first
  exact ⟨rfl, List.append_cancel_left same⟩

/-- What was read again stands for the condition, if and only if the condition reads back. -/
theorem reread_iff {s : DatasetSection} (h : Loaded rt s) {c d : SQLConstraint} (cond : IsCondition s.other c) (readable : Readable c)
    (name : d.attr.nameKey = c.attr.nameKey) (comparator : d.comparator.str = (trimmed c.operator).str) (value : d.value.str = c.value.str) :
    (ReadsBack s c → bare ((d.settled s.other).conjunctIn s.query.select).text = bare c.toText) ∧
      (Tame s.other → bare ((d.settled s.other).conjunctIn s.query.select).text = bare c.toText → ReadsBack s c) := by
  have looked : find attrNameComp (d.settled s.other).attr s.query.select = find attrNameComp c.attr s.query.select :=
    find_key name s.query.select
  have attrBare : bare c.attr.attr = c.attr.attr.str := bare_self fun x mem => (constr_letters cond.attr x mem).1
  have valueBare : bare d.value = bare c.value := by
    unfold bare
    rw [value]
  have whole : bare c.toText = c.attr.attr.str ++ (trimmed c.operator).str ++ bare c.value := by
    rw [SQLConstraint.toText, bare_append, bare_append, attrBare, readable_operator readable]
  have text : bare ((d.settled s.other).conjunctIn s.query.select).text =
      bare (((find attrNameComp c.attr s.query.select).map SQLAttribute.fullName).getD []) ++
        bare (d.settled s.other).operator ++ bare c.value := by
    rw [Conjunct.text, SQLConstraint.conjunctIn, bare_append, bare_append, looked, ← valueBare]
    rfl
  rw [whole, text, settled_operator, comparator]
  constructor
  · rintro ⟨-, ⟨a, found, full⟩, operator⟩
    have own : bare a.fullName = c.attr.attr.str := by
      rw [bare_self fun x mem => ((h.fullName a (find_mem found)).2 x mem).1, full]
    rw [found, Option.map_some, Option.getD_some, own]
    cases made : substitution s.other (trimmed c.operator).str with
    | none => rw [Option.getD_none, comparator_bare (comparator ▸ readable), comparator]
    | some subst => rw [Option.getD_some, operator subst made, readable_operator readable]
  · intro tame same
    have same := List.append_cancel_right same
    have plain : ∀ x ∈ c.attr.attr.str, compChar x = false := fun x mem => (constr_letters cond.attr x mem).2.1
    let full : Text := ((find attrNameComp c.attr s.query.select).map SQLAttribute.fullName).getD []
    have letters : ∀ x ∈ full.str, x ≠ ' ' ∧ compChar x = false := by
      intro x mem
      cases found : find attrNameComp c.attr s.query.select with
      | none =>
        simp only [full, found] at mem
        cases mem
      | some a =>
        simp only [full, found] at mem
        exact (h.fullName a (find_mem found)).2 x mem
    have fullBare : bare full = full.str := bare_self fun x mem => (letters x mem).1
    have plain' : ∀ x ∈ full.str, compChar x = false := fun x mem => (letters x mem).2
    change bare full ++ _ = _ at same
    rw [fullBare] at same
    -- the operator that stands there is the one of the condition
    have parts : full.str = c.attr.attr.str ∧ ∀ subst, substitution s.other (trimmed c.operator).str = some subst →
        bare subst = bare c.operator := by
      cases made : substitution s.other (trimmed c.operator).str with
      | none =>
        rw [made, Option.getD_none, comparator_bare (comparator ▸ readable), comparator] at same
        exact ⟨List.append_cancel_right same, by simp⟩
      | some subst =>
        rw [made, Option.getD_some] at same
        rcases (tame.substitution readable made).2 with comp | none
        · rw [← bare_trimmed, comparator_bare comp] at same
          obtain ⟨attr, operator⟩ := comparator_parts plain' plain comp readable same
          refine ⟨attr, fun subst' made' => ?_⟩
          cases made'
          rw [← bare_trimmed, comparator_bare comp, operator, readable_operator readable]
        · exfalso
          obtain ⟨x, more, first⟩ := List.exists_cons_of_ne_nil (comparator_compChar readable).1
          have comp := (comparator_compChar readable).2 x (by rw [first]; exact List.mem_cons_self)
          have inside : x ∈ full.str ++ bare subst := by
            rw [same, first]
            simp
          rcases List.mem_append.1 inside with inside | inside
          · rw [plain' x inside] at comp
            cases comp
          · rw [none x (List.mem_of_mem_filter inside)] at comp
            cases comp
    refine ⟨readable, ?_, parts.2⟩
    cases found : find attrNameComp c.attr s.query.select with
    | none =>
      have empty := parts.1
      simp only [full, found] at empty
      exact absurd empty.symm cond.attr.letters.1
    | some a =>
      have own := parts.1
      simp only [full, found] at own
      exact ⟨a, rfl, own⟩

/-! ## The rows counted and the rows selected -/

/-- No condition of the section is read again, or there is one and it reads back; and the request
asks for none that the section does not have. -/
structure CountsAll (rt : Runtime) (s : DatasetSection) (row : Text) : Prop where
  own : (∀ c ∈ settledConditions s, Plain c.operator) ∨ ∃ c, settledConditions s = [c] ∧ ReadsBack s c
  asked : ∀ loaded left, SQLQuery.loadConstraints rt.shape row = .ok loaded left → ∀ c ∈ loaded.toList,
    bare ((c.settled s.other).conjunctIn s.query.select).text ∈ (settledConditions s).map fun c => bare c.toText

instance (t : Text) : Decidable (Plain t) := List.decidableBAll _ t.str

instance (c : SQLConstraint) : Decidable (Readable c) := inferInstanceAs (Decidable ((trimmed c.operator).str ∈ comparators))

instance (s : DatasetSection) (c : SQLConstraint) : Decidable (ReadsBack s c) :=
  decidable_of_iff (Readable c ∧ (∃ a ∈ find attrNameComp c.attr s.query.select, a.fullName.str = c.attr.attr.str) ∧
    ∀ subst ∈ substitution s.other (trimmed c.operator).str, bare subst = bare c.operator)
    ⟨fun h => ⟨h.1, h.2.1, h.2.2⟩, fun h => ⟨h.readable, h.known, h.operator⟩⟩

/-- The conditions a request asks for. -/
def askedConditions (shape : Shape) (row : Text) : List SQLConstraint :=
  match SQLQuery.loadConstraints shape row with
  | .ok loaded _ => loaded.toList
  | .error _ _ => []

instance (rt : Runtime) (s : DatasetSection) (row : Text) : Decidable (CountsAll rt s row) :=
  decidable_of_iff (((∀ c ∈ settledConditions s, Plain c.operator) ∨
      ∃ c ∈ settledConditions s, settledConditions s = [c] ∧ ReadsBack s c) ∧
    ∀ c ∈ askedConditions rt.shape row,
      bare ((c.settled s.other).conjunctIn s.query.select).text ∈ (settledConditions s).map fun c => bare c.toText) <| by
    constructor
    · rintro ⟨own, asked⟩
      refine ⟨own.imp_right fun ⟨c, _, one⟩ => ⟨c, one⟩, fun loaded left load c mem => asked c ?_⟩
      rwa [askedConditions, load]
    · rintro ⟨own, asked⟩
      refine ⟨own.imp_right fun ⟨c, one, back⟩ => ⟨c, by simp [one], one, back⟩, fun c mem => ?_⟩
      unfold askedConditions at mem
      split at mem
      · rename_i loaded left load
        exact asked loaded left load c mem
      · cases mem

theorem settledConditions_perm {s : DatasetSection} {t : SQLConstraintSet} (perm : t.toList.Perm (settledConditions s)) :
    (settledConditions (s.setWhere t)).Perm (settledConditions s) := by
  refine (perm.map (SQLConstraint.settled s.other)).trans ?_
  have same : (settledConditions s).map (SQLConstraint.settled s.other) = settledConditions s := by
    rw [settledConditions, List.map_map]
    rfl
  rw [same]

theorem map_bare_toText (l : List SQLConstraint) : (l.map SQLConstraint.toText).map bare = l.map fun c => bare c.toText :=
  List.map_map

section Clauses
variable {s : DatasetSection} {t₁ t₂ : SQLConstraintSet} {row left left' : Text} {found found' : List SQLConstraint}

/-- The conditions of the clause of the request. -/
theorem query_conditions (h : Loaded rt s) (thorough : rt.Thorough) (swaps₁ : Swaps rt s.other s.whereSet t₁)
    (swaps₂ : Swaps rt s.other t₁ t₂) (free : Free row) (loads : LoadsBy rt (s.setWhere t₁) row left' found') :
    ∃ (loaded : SQLConstraintSet) (ps : List Text), SQLQuery.loadConstraints rt.shape row = .ok loaded left' ∧
      Joins (found'.foldl (addCondition s.query.select) (joinConditions t₂.toList)) ps ∧
      ∀ x, x ∈ ps.map bare ↔ x ∈ (settledConditions s).map (fun c => bare c.toText) ∨
        x ∈ loaded.toList.map fun c => bare ((c.settled s.other).conjunctIn s.query.select).text := by
  have perm := swaps₁.settled thorough fun c mem => (h.isCondition c mem).substitute
  obtain ⟨loaded, own, load, own_perm, joins, found_perm⟩ :=
    query_joins (h.setWhere swaps₁.substituted) thorough (t := t₂) swaps₂ free loads
  refine ⟨loaded, _, load, joins, fun x => ?_⟩
  have ours := (own_perm.trans (settledConditions_perm perm)).map fun c => bare c.toText
  have asked := found_perm.map fun c => bare (c.conjunctIn s.query.select).text
  rw [List.map_append, List.mem_append, map_bare_toText, List.map_map, ours.mem_iff]
  refine or_congr_right (asked.mem_iff.trans ?_)
  rw [List.map_map]
  rfl

/-- The clauses have the same conditions where all rows are counted; and only there, if the
substitutes of the section are tame and no condition of it is without a value. -/
theorem same_iff (h : Loaded rt s) (thorough : rt.Thorough) (swaps₁ : Swaps rt s.other s.whereSet t₁)
    (reread : LoadsBy rt s (joinConditions t₁.toList) left found) (swaps₂ : Swaps rt s.other t₁ t₂) (free : Free row)
    (loads : LoadsBy rt (s.setWhere t₁) row left' found') :
    (CountsAll rt s row → SameConditions (found.foldl (addCondition s.query.select) left)
        (found'.foldl (addCondition s.query.select) (joinConditions t₂.toList))) ∧
      (Tame s.other → (∀ c ∈ s.whereSet.toList, c.value ≠ []) →
        SameConditions (found.foldl (addCondition s.query.select) left)
          (found'.foldl (addCondition s.query.select) (joinConditions t₂.toList)) → CountsAll rt s row) := by
  have perm : t₁.toList.Perm (settledConditions s) := swaps₁.settled thorough fun c mem => (h.isCondition c mem).substitute
  have conds : ∀ c ∈ t₁.toList, IsCondition s.other c := (h.setWhere swaps₁.substituted).isCondition
  have ours := perm.map fun c => bare c.toText
  obtain ⟨loaded, ps', load, joins', members⟩ := query_conditions h thorough swaps₁ swaps₂ free loads
  have only : ∀ loaded' left₁, SQLQuery.loadConstraints rt.shape row = .ok loaded' left₁ → loaded' = loaded :=
    fun loaded' left₁ again => (EStateM.Result.ok.inj (again.symm.trans load)).1
  constructor
  · rintro ⟨own, asked⟩
    have inside := asked loaded left' load
    -- the request adds nothing to the conditions of the section
    have ps'_own : ∀ x, x ∈ ps'.map bare ↔ x ∈ (settledConditions s).map fun c => bare c.toText := by
      intro x
      rw [members]
      refine ⟨fun mem => mem.elim id fun mem => ?_, .inl⟩
      obtain ⟨c, inLoaded, rfl⟩ := List.mem_map.1 mem
      exact inside c inLoaded
    rcases own with plain | ⟨c, one, back⟩
    · have joins := count_plain conds (fun c mem => plain c (perm.mem_iff.1 mem)) reread
      refine ⟨_, ps', joins, joins', fun x => ?_⟩
      rw [ps'_own, map_bare_toText, ours.mem_iff]
    · rw [one] at perm
      have single := List.perm_singleton.1 perm
      have cond := conds c (by rw [single]; exact List.mem_singleton_self c)
      obtain ⟨d, joins, name, comparator, value⟩ := count_single h thorough single cond back.readable reread
      refine ⟨_, ps', joins, joins', fun x => ?_⟩
      rw [ps'_own, one, List.map_singleton, List.map_singleton, (reread_iff h cond back.readable name comparator value).1 back]
  · rintro tame values ⟨ps, ps₁, joins, joins₁, same⟩
    obtain rfl := joins₁.unique joins'
    have legible : ∀ c ∈ t₁.toList, Legible s.other c := by
      intro c mem
      obtain ⟨b, inSet, rfl⟩ := List.mem_map.1 (perm.mem_iff.1 mem)
      exact tame.legible (conds _ mem) rfl (values b inSet)
    have asked_of : (∀ x ∈ ps.map bare, x ∈ (settledConditions s).map fun c => bare c.toText) →
        ∀ loaded' left₁, SQLQuery.loadConstraints rt.shape row = .ok loaded' left₁ → ∀ c ∈ loaded'.toList,
          bare ((c.settled s.other).conjunctIn s.query.select).text ∈ (settledConditions s).map fun c => bare c.toText := by
      intro own loaded' left₁ again c mem
      rw [only loaded' left₁ again] at mem
      exact own _ ((same _).2 ((members _).2 (.inr (List.mem_map_of_mem mem))))
    by_cases readable : ∃ c ∈ t₁.toList, Readable c
    · obtain ⟨c, inSet, is⟩ := readable
      by_cases several : 1 < t₁.toList.length
      · exact absurd joins (count_stray thorough legible several ⟨c, inSet, is⟩ reread ps)
      · have single : t₁.toList = [c] := by
          cases elements : t₁.toList with
          | nil =>
            rw [elements] at inSet
            cases inSet
          | cons b more =>
            rw [elements] at inSet several
            cases more with
            | nil => rw [List.mem_singleton.1 inSet]
            | cons b' more => simp at several
        have one : settledConditions s = [c] := by
          rw [single] at perm
          exact (List.singleton_perm.1 perm).symm
        obtain ⟨d, again, name, comparator, value⟩ := count_single h thorough single (conds c inSet) is reread
        obtain rfl := joins.unique again
        have ownText : bare c.toText ∈ ps₁.map bare := (members _).2 (.inl (by rw [one]; exact List.mem_singleton_self _))
        have reads := List.mem_singleton.1 ((same _).2 ownText)
        refine ⟨.inr ⟨c, one, (reread_iff h (conds c inSet) is name comparator value).2 tame reads.symm⟩, asked_of fun x mem => ?_⟩
        rw [List.mem_singleton.1 mem, one, ← reads]
        exact List.mem_singleton_self _
    · have plain : ∀ c ∈ t₁.toList, Plain c.operator := fun c mem =>
        (legible c mem).kinds.resolve_left fun is => readable ⟨c, mem, is⟩
      obtain rfl := joins.unique (count_plain conds plain reread)
      refine ⟨.inl fun c mem => plain c (perm.mem_iff.2 mem), asked_of fun x mem => ?_⟩
      rw [map_bare_toText] at mem
      exact ours.mem_iff.1 mem

end Clauses

theorem splitConstraint_letters (buf : Text) : ∀ x ∈ (splitConstraint buf).2, x ∈ buf := by
  intro x mem
  unfold splitConstraint at mem
  split at mem
  · exact mem
  · exact List.mem_of_mem_drop mem
  · cases mem

/-- The constraints of a request have no `AND` of the handler. -/
theorem free_of_request (constraint : Str) : Free (splitConstraint (of .client constraint)).2 := by
  refine free_of_origin fun x mem => ?_
  rw [origin_of (splitConstraint_letters _ x mem)]
  decide

/-- The rows are counted before they are asked for, on the same section, whatever statements were
built of it before. If `CountsAll` holds of the request, then the two statements have the same
conditions, so the count is the number of rows that are delivered; and only then, if the substitutes of
the section are tame and no condition of it is without a value. -/
theorem counted_same {unset : DatasetPart} {text : Str} {s s₁ s₂ : DatasetSection} {www2id : Str → Str} {constraint : Str}
    {count query : Text} (thorough : rt.Thorough) (served : Served rt unset text s) (counted : buildCountQuery rt s = .ok count s₁)
    (asked : buildQuery rt www2id constraint s₁ = .ok query s₂) : ∃ attrs w w',
      count = lit "SELECT COUNT(*) FROM " ++ s.query.fromText ++ whereText w ++ lit ";" ∧
      query = lit "SELECT " ++ selectClause attrs ++ (lit " FROM " ++ s.query.fromText) ++ whereText w' ++ lit ";" ∧
      (CountsAll rt s (splitConstraint (of .client (www2id constraint))).2 → SameConditions w w') ∧
      (Tame s.other → (∀ c ∈ s.whereSet.toList, c.value ≠ []) → SameConditions w w' →
        CountsAll rt s (splitConstraint (of .client (www2id constraint))).2) := by
  have h := served.loaded
  obtain ⟨found, left, t₁, rfl, swaps₁, reread, count_eq⟩ := buildCountQuery_runs counted
  obtain ⟨attrs, -, found', left', t₂, -, -, swaps₂, loads, query_eq⟩ := buildQuery_runs asked
  exact ⟨attrs, _, _, count_eq, query_eq,
    same_iff h thorough swaps₁ reread swaps₂ (free_of_request (www2id constraint)) loads⟩

/-- A dataset with one condition. -/
def countedSample : Str := "[section]\napi=a\nserver=s\n[select]\nx\n[from]\nt\n[where]\nx>1".toList

/-- Counted, then asked for with a request that counts all. -/
def countsThenAsks (rt : Runtime) (constraint : Str) (s : DatasetSection) : Bool :=
  match buildCountQuery rt s with
  | .ok _ s₁ =>
    match buildQuery rt id constraint s₁ with
    | .ok _ _ => decide (CountsAll rt s (splitConstraint (of .client constraint)).2)
    | .error _ _ => false
  | .error _ _ => false

/-- The rows of a client that asks for the condition of the section are those that were counted. -/
theorem counted_sample : ∃ (s s₁ s₂ : DatasetSection) (count query w w' : Text),
    Served (.standard .plain 5) .api countedSample s ∧ buildCountQuery (.standard .plain 5) s = .ok count s₁ ∧
      buildQuery (.standard .plain 5) id "x&x>1".toList s₁ = .ok query s₂ ∧
      count = lit "SELECT COUNT(*) FROM " ++ s.query.fromText ++ whereText w ++ lit ";" ∧ SameConditions w w' := by
  have answer : (match read (.standard .plain 5) .api (some countedSample) .fresh with
      | .ok _ c => decide (c.dataset ≠ []) && c.dataset.all (countsThenAsks (.standard .plain 5) "x&x>1".toList)
      | .error _ _ => false) = true := by decide +kernel
  cases stored : read (.standard .plain 5) .api (some countedSample) .fresh with
  | error fault c =>
    rw [stored] at answer
    cases answer
  | ok b c =>
    rw [stored, Bool.and_eq_true, decide_eq_true_eq] at answer
    obtain ⟨s, more, dataset⟩ := List.exists_cons_of_ne_nil answer.1
    have mem : s ∈ c.dataset := by simp [dataset]
    have here := List.all_eq_true.1 answer.2 s mem
    unfold countsThenAsks at here
    split at here
    · rename_i count s₁ counted
      split at here
      · rename_i query s₂ asked
        have served : Served (.standard .plain 5) .api countedSample s := .stored stored mem
        obtain ⟨attrs, w, w', text, -, same, -⟩ := counted_same (standard_thorough .plain 5) served counted asked
        exact ⟨s, s₁, s₂, count, query, w, w', served, counted, asked, text, same (of_decide_eq_true here)⟩
      · cases here
    · cases here

end SQLTextContainer

end SqlHandler
