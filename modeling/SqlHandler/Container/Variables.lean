import SqlHandler.Container.Rows
import SqlHandler.Container.Substitution

/-!
# The variables of a dataset

A definition stores a word of a class of letters without a dollar, and nothing else changes
the variables. Each round of the loop takes two dollars from the row, so the loop ends.
-/

namespace SqlHandler
open Posix Text Stl Template

/-- The field of a reserved key. -/
def DatasetSection.parameter (s : DatasetSection) (key : Str) : Str :=
  if key = "api".toList then s.api
  else if key = "server".toList then s.server
  else if key = "port".toList then s.port
  else if key = "dbname".toList then s.dbname
  else if key = "user".toList then s.user
  else if key = "pass".toList then s.pass
  else []

namespace SQLTextContainer
variable {rt : Runtime}

/-- What definitions store: words of `[A-z,0-9,\\',\\", ,\\,]`, not empty. -/
def Stores (vars : Vars) : Prop := ∀ p ∈ vars.toList, p.2 ≠ [] ∧ ∀ c ∈ p.2, defValChar c = true

theorem Stores.lookup {vars : Vars} (h : Stores vars) {key v : Str} (found : lookup vars key = some v) :
    v ≠ [] ∧ ∀ c ∈ v, defValChar c = true := by
  obtain ⟨p, held, rfl⟩ := Option.map_eq_some_iff.1 found
  exact h p (find_mem held)

theorem Stores.dollars {vars : Vars} (h : Stores vars) (key v : Str) (found : SqlHandler.lookup vars key = some v) :
    '$' ∉ v :=
  fun mem => absurd ((h.lookup found).2 _ mem) (by decide)

/-- The value of a definition is a word of the class. -/
theorem defVar_value {row : Str} {m : Match} {v : Span} (found : regexec regDefVar (rowStr row) = some m)
    (group : m.group 2 = some v) : v.text row ≠ [] ∧ ∀ c ∈ v.text row, defValChar c = true := by
  obtain ⟨p, w, t, e, so, len, parse⟩ := regexec_sound found
  obtain ⟨s₁, w₁, _, _, rfl, groups, h₁, h⟩ := parses_seq.1 parse
  obtain ⟨def', w₂, _, _, rfl, rfl, h₂, h⟩ := parses_seq.1 h
  obtain ⟨s₂, w₃, _, _, rfl, rfl, h₃, h⟩ := parses_seq.1 h
  obtain ⟨key, w₄, _, _, rfl, rfl, h₄, h⟩ := parses_seq.1 h
  obtain ⟨s₃, w₅, _, _, rfl, rfl, h₅, h⟩ := parses_seq.1 h
  obtain ⟨eq, w₆, _, _, rfl, rfl, h₆, h⟩ := parses_seq.1 h
  obtain ⟨s₄, val, _, _, rfl, rfl, h₇, h₈⟩ := parses_seq.1 h
  obtain ⟨-, rfl⟩ := parses_spaces.1 h₁
  obtain ⟨-, rfl⟩ := parses_word.1 h₂
  obtain ⟨-, -, rfl⟩ := parses_plus_lit.1 h₃
  obtain ⟨g₁, rfl, keyParse⟩ := parses_group.1 h₄
  obtain ⟨-, rfl⟩ := parses_spaces.1 h₅
  obtain ⟨-, rfl⟩ := parses_lit.1 h₆
  obtain ⟨-, rfl⟩ := parses_spaces.1 h₇
  obtain ⟨g₂, rfl, valParse⟩ := parses_group.1 h₈
  obtain ⟨ne, letters, rfl⟩ := parses_plus_set.1 valParse
  simp only [List.append_nil, List.cons_append, List.nil_append] at groups
  rw [Match.group, groups] at group
  obtain rfl := Option.some.inj group
  have text : (Span.mk (p ++ (s₁ ++ (def' ++ (s₂ ++ (key ++ (s₃ ++ (eq ++ s₄))))))).length
      ((p ++ (s₁ ++ (def' ++ (s₂ ++ (key ++ (s₃ ++ (eq ++ s₄))))))).length + val.length)).text row = val :=
    row_text_at (t := t) (by rw [e]; simp)
  simp only [List.length_append, ← Nat.add_assoc] at text ⊢
  rw [text]
  exact ⟨ne, letters⟩

/-! ## The variables are what definitions stored -/

/-- A stored section has the parameters of the one under construction. -/
theorem addNewSection_keeps {r r' : Reading} (run : addNewSection rt r = .ok () r') : r'.vars = r.vars ∧ r'.start = r.start ∧
    r'.dataset = r.dataset ++ [r'.newSection] ∧ ∀ key, r'.newSection.parameter key = r.newSection.parameter key := by
  obtain ⟨⟨⟩, r₁, first, rest⟩ := Proc.of_bind_ok run
  obtain ⟨⟨⟩, r₂, second, last⟩ := Proc.of_bind_ok rest
  have wheres : r₁.vars = r.vars ∧ r₁.start = r.start ∧ r₁.dataset = r.dataset ∧
      ∀ key, r₁.newSection.parameter key = r.newSection.parameter key := by
    rw [addWhere_run] at first
    split at first
    · split at first
      · cases first
        unfold putWhere
        split <;> exact ⟨rfl, rfl, rfl, fun _ => rfl⟩
      · cases first
    · cases first
      exact ⟨rfl, rfl, rfl, fun _ => rfl⟩
  have attributes : r₂.vars = r₁.vars ∧ r₂.start = r₁.start ∧ r₂.dataset = r₁.dataset ∧
      ∀ key, r₂.newSection.parameter key = r₁.newSection.parameter key := by
    rw [addSelect_run] at second
    split at second
    · split at second
      · cases second
        unfold putAttributes
        split <;> exact ⟨rfl, rfl, rfl, fun _ => rfl⟩
      · cases second
    · cases second
      exact ⟨rfl, rfl, rfl, fun _ => rfl⟩
  obtain ⟨vars₁, start₁, dataset₁, parameter₁⟩ := wheres
  obtain ⟨vars₂, start₂, dataset₂, parameter₂⟩ := attributes
  rw [Proc.get_bind] at last
  split at last
  · cases last
    refine ⟨vars₂.trans vars₁, start₂.trans start₁, ?_, fun key => (parameter₂ key).trans (parameter₁ key)⟩
    change r₂.dataset ++ _ = r.dataset ++ _
    rw [dataset₂, dataset₁]
  · cases last

/-- What a row of data leaves alone. -/
structure Leaves (r r' : Reading) : Prop where
  vars : r'.vars = r.vars
  dataset : r'.dataset = r.dataset
  start : r'.start = r.start
  part : r'.readingPart = r.readingPart

theorem setParameter_leaves {key val : Str} {r r' : Reading} (set : setParameter key val r = some r') : Leaves r r' := by
  unfold setParameter at set
  split at set
  · cases set
    split <;> exact ⟨rfl, rfl, rfl, rfl⟩
  · split at set
    · cases set
      split <;> exact ⟨rfl, rfl, rfl, rfl⟩
    · repeat' split at set
      all_goals cases set
      all_goals exact ⟨rfl, rfl, rfl, rfl⟩

/-- Only a row of the `[section]` part sets a parameter. -/
theorem rowAction_leaves (part : DatasetPart) (row : Str) (r : Reading) : Leaves r (rowAction rt part row r) ∧
    ∀ key, (rowAction rt part row r).newSection.parameter key = r.newSection.parameter key := by
  unfold rowAction
  split
  · split <;> exact ⟨⟨rfl, rfl, rfl, rfl⟩, fun _ => rfl⟩
  · unfold appendRow
    split <;> exact ⟨⟨rfl, rfl, rfl, rfl⟩, fun _ => rfl⟩

theorem RowEffect.stores {row : Str} {r r' : Reading} (effect : RowEffect rt row r r') (h : Stores r.vars) : Stores r'.vars := by
  cases effect with
  | idle => exact h
  | @definition m vars kind made =>
    unfold defined at made
    split at made
    · rename_i key val group₁ group₂
      split at made
      · cases made
      · cases made
        have found : regexec regDefVar (rowStr row) = some m := by
          unfold rowKind at kind
          split at kind
          · cases kind
          · split at kind
            · cases kind
            · split at kind
              · rename_i found
                cases kind
                exact found
              · split at kind <;> cases kind
        intro p mem
        rcases mem_insert rt.shape mem with rfl | mem
        · exact defVar_value found group₂
        · exact h p mem
    · cases made
  | @part text =>
    cases partOf text <;> exact h
  | first => exact h
  | next kind start stored =>
    have same := (addNewSection_keeps stored).1
    change Stores (Reading.vars _)
    rw [same]
    exact h
  | parameter kind made at' found set =>
    rw [(setParameter_leaves set).vars]
    exact h
  | added =>
    rw [(rowAction_leaves _ _ _).1.vars]
    exact h

theorem readRows_stores {rows : List Str} {r r' : Reading} (run : readRows rt rows r = .ok () r') (h : Stores r.vars) :
    Stores r'.vars := by
  induction rows generalizing r with
  | nil =>
    cases run
    exact h
  | cons row rows ih =>
    obtain ⟨⟨⟩, r₁, first, rest⟩ := Proc.of_bind_ok run
    exact ih rest ((readRow_effect first).stores h)

/-! ## The loop -/

/-- From some number of rounds on, the loop has ended: with a row of which this is said, or with
an exception. -/
def Ends (clean : Str → Prop) (vars : Vars) (row : Str) : Prop :=
  ∃ n outcome, (∀ fuel ≥ n, substituteAll vars fuel row = outcome) ∧
    ((∃ s, outcome = .ok s ∧ clean s) ∨ ∃ e, outcome = .error (.error e))

/-- There is no variable before the first NUL of the row. -/
def NoVariable (row : Str) : Prop := Free '$' varChar (rowStr row)

/-- A row has no variable, or a first one. -/
theorem row_cases (row : Str) : NoVariable row ∨ ∃ text key t, row = text ++ (key ++ t) ∧ Closed '$' varChar text ∧
    Char.ofNat 0 ∉ text ∧ IsVar key := by
  obtain ⟨behind, whole⟩ := rowStr_front row
  have kept : Char.ofNat 0 ∉ rowStr row := fun mem => by simpa using List.mem_takeWhile_imp mem
  have pieces := scan_pieces dollar_plain (rowStr row)
  generalize front : rowStr row = s at pieces whole kept
  generalize (Template.scan '$' varChar s).1 = l, (Template.scan '$' varChar s).2 = rest at pieces
  cases pieces with
  | free free =>
    refine .inl ?_
    unfold NoVariable
    rw [front]
    exact free
  | @key text key t rest l closed word later =>
    rw [List.append_assoc, List.append_assoc] at whole
    exact .inr ⟨text, key, t ++ behind, whole.symm, closed, fun mem => kept (List.mem_append_left _ mem), word⟩

/-- Where no value has a dollar, the loop has no more rounds than the row has dollars. -/
theorem substituteAll_ends {vars : Vars} (dollars : ∀ key v, lookup vars key = some v → '$' ∉ v) (row : Str) :
    ∃ outcome, (∀ fuel ≥ row.count '$' + 1, substituteAll vars fuel row = outcome) ∧
      ((∃ s, outcome = .ok s ∧ NoVariable s) ∨ ∃ e, outcome = .error (.error e)) := by
  induction count : row.count '$' using Nat.strong_induction_on generalizing row with
  | _ n ih =>
    rcases row_cases row with free | ⟨text, key, t, rfl, closed, noNul, word⟩
    · refine ⟨.ok row, fun fuel enough => ?_, .inl ⟨row, rfl, free⟩⟩
      obtain ⟨fuel, rfl⟩ : ∃ m, fuel = m + 1 := ⟨fuel - 1, by omega⟩
      exact substituteAll_free vars free fuel
    · have round := substituteAll_key vars closed noNul word t
      cases value : lookup vars key with
      | none =>
        refine ⟨.error (.error (notDefined key)), fun fuel enough => ?_, .inr ⟨_, rfl⟩⟩
        obtain ⟨fuel, rfl⟩ : ∃ m, fuel = m + 1 := ⟨fuel - 1, by omega⟩
        rw [round, value]
      | some v =>
        have fewer : (text ++ (v ++ t.take key.length)).count '$' + 2 ≤ (text ++ (key ++ t)).count '$' := by
          have part := (List.take_sublist key.length t).count_le '$'
          simp only [List.count_append, IsKey.count dollar_plain word,
            List.count_eq_zero.2 (dollars key v value)] at part ⊢
          omega
        obtain ⟨outcome, all, ends⟩ := ih _ (by omega) (text ++ (v ++ t.take key.length)) rfl
        refine ⟨outcome, fun fuel enough => ?_, ends⟩
        obtain ⟨fuel, rfl⟩ : ∃ m, fuel = m + 1 := ⟨fuel - 1, by omega⟩
        rw [round, value]
        exact all fuel (by omega)

/-- The loop over the variables of a row ends, whatever rows were read before it: with a row that holds no
variable in front of its first NUL, or with an exception. What stands behind a NUL is not read by the loop. -/
theorem substitution_ends {unset : DatasetPart} {c : SQLTextContainer} {rows : List Str} {r : Reading}
    (run : readRows rt rows (begin unset c) = .ok () r) (row : Str) : Ends NoVariable r.vars row := by
  have stores : Stores r.vars := readRows_stores run nofun
  obtain ⟨outcome, all, ends⟩ := substituteAll_ends stores.dollars row
  exact ⟨_, outcome, all, ends⟩

/-- Two definitions that name each other. -/
def mutual' : List Str := ["define $A$ = B".toList, "define $B$ = A".toList]

/-- Whether a scan returned. -/
def hasRun : EStateM.Result Fault Reading Unit → Bool
  | .ok _ _ => true
  | .error _ _ => false

theorem mutual_ends : ∃ r, readRows (.reuse 1) mutual' (begin .api .fresh) = .ok () r ∧
    Ends NoVariable r.vars "user=$A$$B$".toList := by
  have answer : hasRun (readRows (.reuse 1) mutual' (begin .api .fresh)) = true := by decide +kernel
  cases run : readRows (.reuse 1) mutual' (begin .api .fresh) with
  | error fault r =>
    rw [run] at answer
    cases answer
  | ok a r => exact ⟨r, rfl, substitution_ends run _⟩

/-- Behind a NUL a variable is not seen: the loop ends with the row that holds it. -/
theorem nul_hides_variable : ∃ r, readRows (.reuse 1) [] (begin .api .fresh) = .ok () r ∧
    ¬ Ends (Free '$' varChar) r.vars ['a', Char.ofNat 0, '$', 'X', '$'] := by
  refine ⟨_, rfl, ?_⟩
  rintro ⟨n, outcome, all, ends⟩
  have seen : rowStr ['a', Char.ofNat 0, '$', 'X', '$'] = ['a'] := by decide
  have free : Free '$' varChar (rowStr ['a', Char.ofNat 0, '$', 'X', '$']) := by
    rw [seen, ← List.append_nil ['a']]
    exact (closed_of_unmarked (by decide)).free free_nil
  have stop := all (n + 1) (by omega)
  rw [substituteAll_free _ free] at stop
  rcases ends with ⟨s, made, clean⟩ | ⟨e, made⟩
  · rw [← stop] at made
    cases made
    exact absurd (clean ['a', Char.ofNat 0] ['$', 'X', '$'] rfl) (by decide)
  · rw [← stop] at made
    cases made

end SQLTextContainer

end SqlHandler
