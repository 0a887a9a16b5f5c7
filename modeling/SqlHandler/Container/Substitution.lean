import SqlHandler.Container.Dataset
import SqlHandler.Stl.Template

/-!
# Substituting variables

A round of the loop puts the value of the first variable in its place, and keeps only as many
letters behind it as the variable has. The loop makes of a row what a scan from left to right
makes of it exactly if that cuts nothing off that is needed (`substitution_exact`).
-/

namespace SqlHandler
open Posix Text Stl Template

/-- `vars.find(var)` -/
def lookup (vars : Vars) (key : Str) : Option Str := (find (byKey Prod.fst) (key, []) vars).map Prod.snd

/-- A variable: a word of `[A-z,0-9]` between two dollars. -/
abbrev IsVar (key : Str) : Prop := IsKey '$' varChar key

theorem dollar_plain : varChar '$' = false := by decide

theorem nul_plain : varChar (Char.ofNat 0) = false := by decide

/-! ## The match -/

theorem parses_regVar {i : Nat} {w t : Str} {g : Groups} :
    Parses regVar i w t g ↔ IsVar w ∧ g = [(1, ⟨i, i + w.length⟩)] := by
  constructor
  · intro parse
    obtain ⟨h, rfl, body⟩ := parses_group.1 parse
    obtain ⟨open', w₁, _, _, rfl, rfl, h₁, h₂⟩ := parses_seq.1 body
    obtain ⟨name, close, _, _, rfl, rfl, h₃, h₄⟩ := parses_seq.1 h₂
    obtain ⟨rfl, rfl⟩ := parses_lit.1 h₁
    obtain ⟨letters, rfl⟩ := parses_star_set.1 h₃
    obtain ⟨rfl, rfl⟩ := parses_lit.1 h₄
    exact ⟨⟨name, letters, rfl⟩, rfl⟩
  · rintro ⟨⟨name, letters, rfl⟩, rfl⟩
    refine parses_group.2 ⟨[], rfl, parses_seq.2 ⟨['$'], name ++ ['$'], [], [], rfl, rfl, parses_lit.2 ⟨rfl, rfl⟩, ?_⟩⟩
    exact parses_seq.2 ⟨name, ['$'], [], [], rfl, rfl, parses_star_set.2 ⟨letters, rfl⟩, parses_lit.2 ⟨rfl, rfl⟩⟩

theorem regVar_free {s : Str} (free : Free '$' varChar s) : regexec regVar s = none := by
  refine search_none.2 fun p w t g same parse => ?_
  have here := free p (w ++ t) (same.trans (List.append_assoc p w t))
  rw [IsKey.at dollar_plain (parses_regVar.1 parse).1] at here
  cases here

/-- The match is the first variable. -/
theorem regVar_found {a key : Str} (closed : Closed '$' varChar a) (word : IsVar key) (t : Str) :
    regexec regVar (a ++ (key ++ t)) = some ⟨a.length, key.length, [(1, ⟨a.length, a.length + key.length⟩)]⟩ := by
  have parse : Parses regVar (0 + a.length) key t [(1, ⟨a.length, a.length + key.length⟩)] :=
    parses_regVar.2 ⟨word, by rw [Nat.zero_add]⟩
  have left : ∀ p' w' t', a ++ key ++ t = p' ++ w' ++ t' → p'.length < a.length →
      ∀ g, ¬ Parses regVar (0 + p'.length) w' t' g := by
    intro p' w' t' same lt g other
    rw [List.append_assoc, List.append_assoc] at same
    rcases List.append_eq_append_iff.1 same with ⟨u, rfl, -⟩ | ⟨u, rfl, rest⟩
    · rw [List.length_append] at lt
      omega
    · cases u with
      | nil =>
        rw [List.append_nil] at lt
        omega
      | cons c u =>
        have here := closed p' (c :: u) (key ++ t) rfl (by simp)
        rw [← rest, IsKey.at dollar_plain (parses_regVar.1 other).1] at here
        cases here
  have long : ∀ w' t', key ++ t = w' ++ t' → key.length < w'.length → ∀ g, ¬ Parses regVar (0 + a.length) w' t' g := by
    intro w' t' same lt g other
    have one := IsKey.at dollar_plain word t
    rw [same, IsKey.at dollar_plain (parses_regVar.1 other).1] at one
    cases one
    omega
  obtain ⟨g, found, again⟩ := search_exists parse left long
  obtain ⟨-, rfl⟩ := parses_regVar.1 again
  rw [List.append_assoc, Nat.zero_add] at found
  exact found

/-! ## What `regexec` reads of a row -/

theorem rowStr_front (row : Str) : rowStr row <+: row := List.takeWhile_prefix _

theorem rowStr_append {a : Str} (noNul : Char.ofNat 0 ∉ a) (t : Str) : rowStr (a ++ t) = a ++ rowStr t := by
  refine List.takeWhile_append_of_pos fun c mem => ?_
  simp only [decide_eq_true_eq, ne_eq]
  rintro rfl
  exact noNul mem

theorem rowStr_cut {a : Str} (nul : Char.ofNat 0 ∈ a) (t : Str) : rowStr (a ++ t) = rowStr a := by
  induction a with
  | nil => cases nul
  | cons c a ih =>
    unfold rowStr at ih ⊢
    by_cases here : c = Char.ofNat 0
    · simp [here]
    · rw [List.cons_append, List.takeWhile_cons_of_pos (by simpa using here), List.takeWhile_cons_of_pos (by simpa using here),
        ih ((List.mem_cons.1 nul).resolve_left fun same => here same.symm)]

theorem IsVar.noNul {key : Str} (word : IsVar key) : Char.ofNat 0 ∉ key := by
  obtain ⟨name, letters, rfl⟩ := word
  intro mem
  rcases List.mem_cons.1 mem with same | mem
  · exact absurd same (by decide)
  · rcases List.mem_append.1 mem with mem | mem
    · have := letters _ mem
      rw [nul_plain] at this
      cases this
    · exact absurd (List.mem_singleton.1 mem) (by decide)

namespace SQLTextContainer
variable {vars : Vars}

/-! ## The loop -/

variable (vars) in
theorem substituteAll_free {row : Str} (free : Free '$' varChar (rowStr row)) (fuel : Nat) :
    substituteAll vars (fuel + 1) row = .ok row := by
  unfold substituteAll
  rw [regVar_free free]

/-- The error of a variable that is not defined. -/
def notDefined (key : Str) : BESError :=
  ⟨.besInternalError, "SQLTextContainer: Variable not defined: ".toList ++ key⟩

variable (vars) in
/-- A round puts a value in the place of the first variable and keeps as many letters behind
it as the variable has. -/
theorem substituteAll_key {a key : Str} (closed : Closed '$' varChar a) (noNul : Char.ofNat 0 ∉ a) (word : IsVar key)
    (t : Str) (fuel : Nat) : substituteAll vars (fuel + 1) (a ++ (key ++ t)) =
      match lookup vars key with
      | some v => substituteAll vars fuel (a ++ (v ++ t.take key.length))
      | none => .error (.error (notDefined key)) := by
  have seen : rowStr (a ++ (key ++ t)) = a ++ (key ++ rowStr t) := by
    rw [rowStr_append noNul, rowStr_append (IsVar.noNul word)]
  have text : (Span.mk a.length (a.length + key.length)).text (a ++ (key ++ t)) = key := by
    unfold Span.text
    rw [List.drop_left, Nat.add_sub_cancel_left, List.take_left]
  have behind : (a ++ (key ++ t)).drop (a.length + key.length) = t := by
    rw [← List.append_assoc, List.drop_left' (by rw [List.length_append])]
  have round : variableSubstitution vars (a ++ (key ++ t)) ⟨a.length, key.length, [(1, ⟨a.length, a.length + key.length⟩)]⟩ =
      match lookup vars key with
      | some v => .ok (a ++ (v ++ t.take key.length))
      | none => .error (.error (notDefined key)) := by
    unfold variableSubstitution lookup Match.group
    simp only [List.lookup_cons_self, text]
    cases find (byKey Prod.fst) (key, []) vars with
    | none => rfl
    | some p =>
      simp only [Option.map_some]
      rw [List.take_left, behind, Nat.add_sub_cancel_left, List.append_assoc]
  rw [substituteAll, seen, regVar_found closed word]
  simp only
  rw [round]
  cases lookup vars key <;> rfl

/-- The length of the text up to the first variable that is not defined, or of all of it. -/
def needed (value : Str → Option Str) : List (Str × Str) → Str → Nat
  | [], rest => rest.length
  | (text, key) :: l, rest =>
    text.length + key.length + if (value key).isNone then 0 else needed value l rest

/-- The loop sees each variable that counts, and cuts nothing off behind it that counts. -/
def Room (value : Str → Option Str) : List (Str × Str) → Str → Prop
  | [], _ => True
  | (text, key) :: l, rest => Char.ofNat 0 ∉ text ∧ ∀ v, value key = some v →
    needed value l rest ≤ key.length ∧ (l ≠ [] → Char.ofNat 0 ∉ v) ∧ Room value l rest

/-- The row a scan from left to right makes, or an exception. -/
def Gives (expected : Option Str) (outcome : Except Fault Str) : Prop :=
  match expected with
  | some s => outcome = .ok s
  | none => ∃ e, outcome = .error (.error e)

/-- What the loop meets behind text that is done: `n` letters of it are left. -/
structure Enough (value : Str → Option Str) (done : Str) (n : Nat) (l : List (Str × Str)) (rest : Str) : Prop where
  seen : l ≠ [] → Char.ofNat 0 ∉ done
  needed : needed value l rest ≤ n
  room : Room value l rest

/-- A text that keeps its first variable is not the text with the values. -/
theorem expand_ne_take {value : Str → Option Str} (dollars : ∀ key v, value key = some v → '$' ∉ v)
    (some' : ∀ key v, value key = some v → v ≠ []) {text key t rest : Str} {l : List (Str × Str)} (word : IsVar key) (n : Nat) :
    expand value ((text, key) :: l) rest ≠ some ((text ++ (key ++ t)).take n) := by
  intro same
  unfold expand at same
  obtain ⟨v, found, more⟩ := Option.bind_eq_some_iff.1 same
  obtain ⟨s, -, whole⟩ := Option.map_eq_some_iff.1 more
  obtain ⟨name, -, rfl⟩ := word
  cases v with
  | nil => exact some' _ _ found rfl
  | cons c v =>
    rcases Nat.lt_or_ge text.length n with inside | short
    · obtain ⟨m, rfl⟩ : ∃ m, n = text.length + (m + 1) := ⟨n - text.length - 1, by omega⟩
      rw [List.take_length_add_append] at whole
      have head := (List.cons.inj (List.append_cancel_left whole)).1
      exact dollars _ _ found (by rw [head]; exact List.mem_cons_self)
    · have length := congrArg List.length whole
      have le := List.length_take_le n (text ++ ('$' :: (name ++ ['$']) ++ t))
      rw [← length] at le
      simp only [List.length_append, List.length_cons] at le
      omega

/-- The loop makes the row of the scan, or it has cut something off. -/
theorem substituteAll_settled (dollars : ∀ key v, lookup vars key = some v → '$' ∉ v) {t rest : Str} {l : List (Str × Str)}
    (pieces : Pieces '$' varChar t l rest) : ∀ a n fuel, Closed '$' varChar a → (a ++ t.take n).count '$' < fuel →
      (Enough (lookup vars) a n l rest ∧
        Gives ((expand (lookup vars) l rest).map (a ++ ·)) (substituteAll vars fuel (a ++ t.take n))) ∨
      (¬ Enough (lookup vars) a n l rest ∧ ((∀ key v, lookup vars key = some v → v ≠ []) →
        ∃ s, substituteAll vars fuel (a ++ t.take n) = .ok s ∧ (expand (lookup vars) l rest).map (a ++ ·) ≠ some s)) := by
  induction pieces with
  | @free t free =>
    intro a n fuel closed enough
    obtain ⟨fuel, rfl⟩ : ∃ m, fuel = m + 1 := ⟨fuel - 1, by omega⟩
    have all := closed.free (free.front dollar_plain ( List.take_prefix n t))
    have stop := substituteAll_free vars (all.front dollar_plain (rowStr_front _)) fuel
    by_cases fits : t.length ≤ n
    · refine .inl ⟨⟨nofun, fits, trivial⟩, ?_⟩
      rw [stop, List.take_of_length_le fits]
      rfl
    · refine .inr ⟨fun h => fits h.needed, fun _ => ⟨_, stop, fun same => fits ?_⟩⟩
      have whole : t = t.take n := List.append_cancel_left (Option.some.inj same)
      have length := congrArg List.length whole
      rw [List.length_take] at length
      omega
  | @key text key t rest l closed' word later ih =>
    intro a n fuel closed enough
    have ends (free : Free '$' varChar (rowStr (a ++ (text ++ (key ++ t)).take n)))
        (short : ¬ Enough (lookup vars) a n ((text, key) :: l) rest) :
        ¬ Enough (lookup vars) a n ((text, key) :: l) rest ∧ ((∀ key v, lookup vars key = some v → v ≠ []) →
          ∃ s, substituteAll vars fuel (a ++ (text ++ (key ++ t)).take n) = .ok s ∧
            (expand (lookup vars) ((text, key) :: l) rest).map (a ++ ·) ≠ some s) := by
      obtain ⟨fuel, rfl⟩ : ∃ m, fuel = m + 1 := ⟨fuel - 1, by omega⟩
      refine ⟨short, fun some' => ⟨_, substituteAll_free vars free fuel, fun same => ?_⟩⟩
      obtain ⟨s, made, front⟩ := Option.map_eq_some_iff.1 same
      rw [List.append_cancel_left front] at made
      exact expand_ne_take dollars some' word n made
    by_cases fits : text.length + key.length ≤ n
    · obtain ⟨m, rfl⟩ : ∃ m, n = text.length + (key.length + m) := ⟨n - text.length - key.length, by omega⟩
      rw [List.take_length_add_append, List.take_length_add_append] at ends enough ⊢
      by_cases nul : Char.ofNat 0 ∈ a ++ text
      · refine .inr (ends ?_ fun h => ?_)
        · rw [← List.append_assoc, rowStr_cut nul, ← List.append_nil (a ++ text)]
          exact ((closed.append closed').free free_nil).front dollar_plain
            (rowStr_front _)
        · rcases List.mem_append.1 nul with nul | nul
          · exact h.seen (List.cons_ne_nil _ _) nul
          · exact h.room.1 nul
      · obtain ⟨fuel, rfl⟩ : ∃ m, fuel = m + 1 := ⟨fuel - 1, by omega⟩
        have round := substituteAll_key vars (closed.append closed') nul word (t.take m) fuel
        rw [List.append_assoc] at round
        rw [round]
        rw [List.mem_append, not_or] at nul
        cases value : lookup vars key with
        | none =>
          refine .inl ⟨⟨fun _ => nul.1, ?_, nul.2, fun v found => ?_⟩, ?_⟩
          · rw [needed, value]
            simp
          · rw [value] at found
            cases found
          · rw [expand, value]
            exact ⟨_, rfl⟩
        | some v =>
          have unmarked := dollars key v value
          have word_count := IsKey.count dollar_plain word
          have fewer : (a ++ text ++ v ++ t.take (min key.length m)).count '$' < fuel := by
            have part := (List.take_sublist key.length (t.take m)).count_le '$'
            rw [List.take_take] at part
            simp only [List.count_append, word_count, List.count_eq_zero.2 unmarked] at enough ⊢
            omega
          have value_closed : Closed '$' varChar v := closed_of_unmarked unmarked
          have done := (closed.append closed').append value_closed
          have same : Enough (lookup vars) a (text.length + (key.length + m)) ((text, key) :: l) rest ↔
              Enough (lookup vars) (a ++ text ++ v) (min key.length m) l rest := by
            constructor
            · rintro ⟨-, need, -, room⟩
              obtain ⟨key_room, visible, later_room⟩ := room v value
              rw [needed, value] at need
              refine ⟨fun some' => ?_, ?_, later_room⟩
              · simp only [List.mem_append, not_or]
                exact ⟨nul, visible some'⟩
              · simp only [Option.isNone_some, Bool.false_eq_true, if_false] at need
                omega
            · rintro ⟨visible, need, room⟩
              refine ⟨fun _ => nul.1, ?_, nul.2, fun w found => ?_⟩
              · rw [needed, value]
                simp only [Option.isNone_some, Bool.false_eq_true, if_false]
                omega
              · rw [value] at found
                cases found
                exact ⟨by omega, fun some' mem => visible some' (List.mem_append_right _ mem), room⟩
          have expected : (expand (lookup vars) ((text, key) :: l) rest).map (a ++ ·) =
              (expand (lookup vars) l rest).map (a ++ text ++ v ++ ·) := by
            rw [expand, value, Option.bind_some, Option.map_map]
            congr 1
            funext s
            simp
          have left := ih (a ++ text ++ v) (min key.length m) fuel done fewer
          rw [same, expected]
          rw [← List.take_take] at left
          simp only [List.append_assoc] at left ⊢
          exact left
    · refine .inr (ends ?_ fun h => ?_)
      · rw [← List.append_assoc text, List.take_append_of_le_length (by rw [List.length_append]; omega)]
        exact (closed.free (free_of_cut dollar_plain closed' word (by omega))).front dollar_plain (rowStr_front _)
      · have need := h.needed
        rw [needed] at need
        omega

/-- The row that one scan from left to right makes, `none` if a variable of the row is not defined. -/
def substituted (vars : Vars) (row : Str) : Option Str :=
  expand (lookup vars) (Template.scan '$' varChar row).1 (Template.scan '$' varChar row).2

/-- The loop makes the row of the scan, and throws if a variable is not defined. -/
def Exact (vars : Vars) (row : Str) : Prop := Gives (substituted vars row) (substituteRow vars row)

/-- Each variable up to the first that is not defined stands before a NUL, and the text behind it,
up to there, is not longer than the variable. -/
def Roomy (vars : Vars) (row : Str) : Prop :=
  Room (lookup vars) (Template.scan '$' varChar row).1 (Template.scan '$' varChar row).2

theorem needed_le {value : Str → Option Str} {t rest : Str} {l : List (Str × Str)} (pieces : Pieces '$' varChar t l rest) :
    needed value l rest ≤ t.length := by
  induction pieces with
  | free free => exact Nat.le_refl _
  | key closed word later ih =>
    unfold needed
    simp only [List.length_append]
    split <;> omega

/-- Where no value has a dollar, the loop is exact if no round cuts off what is needed; and only
then, if no value is empty. -/
theorem substitution_exact (vars : Vars) (row : Str) (dollars : ∀ key v, lookup vars key = some v → '$' ∉ v) :
    (Roomy vars row → Exact vars row) ∧
      ((∀ key v, lookup vars key = some v → v ≠ []) → Exact vars row → Roomy vars row) := by
  have pieces := scan_pieces dollar_plain row
  have fuel : ([] ++ row.take row.length).count '$' < row.count '$' + 1 := by
    rw [List.nil_append, List.take_length]
    omega
  have settled := substituteAll_settled dollars pieces [] row.length _ closed_nil fuel
  rw [List.take_length] at settled
  simp only [List.nil_append, Option.map_id'] at settled
  have enough : Enough (lookup vars) [] row.length (Template.scan '$' varChar row).1 (Template.scan '$' varChar row).2 ↔ Roomy vars row :=
    ⟨fun h => h.room, fun room => ⟨fun _ => nofun, needed_le pieces, room⟩⟩
  rw [enough] at settled
  rcases settled with ⟨roomy, exact'⟩ | ⟨short, other⟩
  · exact ⟨fun _ => exact', fun _ _ => roomy⟩
  · refine ⟨fun roomy => absurd roomy short, fun some' exact' => ?_⟩
    obtain ⟨s, made, ne⟩ := other some'
    change Gives (substituted vars row) (substituteAll vars _ row) at exact'
    rw [made] at exact'
    cases expected : substituted vars row with
    | none =>
      rw [expected] at exact'
      obtain ⟨e, wrong⟩ := exact'
      cases wrong
    | some s' =>
      rw [expected] at exact'
      cases exact'
      exact absurd expected ne

/-- One variable, `X`, of the value `ab`. -/
def oneVar : Vars := .node false .leaf ("$X$".toList, "ab".toList) .leaf

theorem oneVar_dollars : ∀ key v, lookup oneVar key = some v → '$' ∉ v := by
  intro key v found
  obtain ⟨p, held, rfl⟩ := Option.map_eq_some_iff.1 found
  have mem : p ∈ oneVar.toList := find_mem held
  rw [List.mem_singleton.1 mem]
  decide

theorem three_letters_kept : Exact oneVar "id=$X$ ok".toList :=
  (substitution_exact oneVar "id=$X$ ok".toList oneVar_dollars).1 (by
    refine ⟨by decide, fun v found => ⟨by decide, fun some' => absurd rfl some', trivial⟩⟩)

/-- Of the text behind a variable of three letters the fourth letter is lost. -/
theorem fourth_letter_lost : substituted oneVar "$X$ and".toList = some "ab and".toList ∧
    substituteRow oneVar "$X$ and".toList = .ok "ab an".toList ∧ ¬ Exact oneVar "$X$ and".toList := by
  have expected : substituted oneVar "$X$ and".toList = some "ab and".toList := by decide
  have made : substituteRow oneVar "$X$ and".toList = .ok "ab an".toList := by decide
  refine ⟨expected, made, ?_⟩
  unfold Exact
  rw [expected, made]
  intro same
  exact absurd (Except.ok.inj same) (by decide)

end SQLTextContainer

end SqlHandler
