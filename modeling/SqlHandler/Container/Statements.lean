import SqlHandler.Container.Builder
import SqlHandler.Container.Clauses
import Mathlib.Data.List.Perm.Basic

/-!
# What the builders answer

A statement lists attributes and joins conditions. `comparatorSubst` takes conditions out of
their set and puts them back with a substitute: it changes nothing else of them, wherever
the iterator goes (`Substituted`). `buildQuery_ok` and `buildCountQuery_ok` say of what parts
a statement was made.
-/

namespace SqlHandler
open Posix Text Stl

/-! ## Texts joined -/

theorem intercalate_cons {α : Type} (sep x : List α) (l : List (List α)) :
    sep.intercalate (x :: l) = x ++ l.flatMap fun y => sep ++ y := by
  induction l generalizing x with
  | nil => simp [List.intercalate]
  | cons y l ih =>
    have next := ih y
    simp only [List.intercalate, List.intersperse, List.flatten_cons, List.flatMap_cons] at next ⊢
    rw [next]
    simp

/-- One more text, behind the separator if there is something before it. -/
theorem intercalate_concat {α : Type} (sep x : List α) (l : List (List α)) :
    sep.intercalate (l ++ [x]) = if l = [] then x else sep.intercalate l ++ (sep ++ x) := by
  cases l with
  | nil => simp [List.intercalate]
  | cons y l => simp [intercalate_cons]

theorem foldl_joined {α β : Type} (sep : List α) (f : β → List α) (l : List β) (buf : List α) :
    l.foldl (fun buf x => buf ++ (sep ++ f x)) buf = buf ++ (l.map f).flatMap fun y => sep ++ y := by
  induction l generalizing buf with
  | nil => simp
  | cons x l ih =>
    rw [List.foldl_cons, ih]
    simp

/-! ## Substituted conditions -/

/-- A condition without its substitute. -/
def SQLConstraint.core (c : SQLConstraint) : SQLAttribute × Text × Text := (c.attr, c.comparator, c.value)

/-- The same conditions, some of them with the substitute of their comparator. -/
structure Substituted (other : OtherMap) (before after : List SQLConstraint) : Prop where
  same : (after.map SQLConstraint.core).Perm (before.map SQLConstraint.core)
  operators : ∀ c ∈ after, c ∈ before ∨ SQLTextContainer.substitution other c.comparator.str = some c.substitute

namespace Substituted
variable {other : OtherMap} {before after later : List SQLConstraint}

theorem refl (other : OtherMap) (l : List SQLConstraint) : Substituted other l l :=
  ⟨.refl _, fun _ mem => .inl mem⟩

theorem trans (h₁ : Substituted other before after) (h₂ : Substituted other after later) : Substituted other before later where
  same := h₂.same.trans h₁.same
  operators := by
    intro c mem
    rcases h₂.operators c mem with inAfter | set
    · exact h₁.operators c inAfter
    · exact .inr set

theorem nil_iff (h : Substituted other before after) : after = [] ↔ before = [] := by
  have := h.same.length_eq
  rw [List.length_map, List.length_map] at this
  rw [← List.length_eq_zero_iff, ← List.length_eq_zero_iff, this]

/-- A condition put back was there before, with its own substitute. -/
theorem core_mem (h : Substituted other before after) {c : SQLConstraint} (mem : c ∈ after) :
    ∃ b ∈ before, b.core = c.core := by
  have := h.same.mem_iff.1 (List.mem_map_of_mem mem)
  exact List.mem_map.1 this

theorem core_found (h : Substituted other before after) {b : SQLConstraint} (mem : b ∈ before) :
    ∃ c ∈ after, c.core = b.core := by
  have := h.same.mem_iff.2 (List.mem_map_of_mem mem)
  exact List.mem_map.1 this

end Substituted

namespace SQLTextContainer
variable {rt : Runtime} {other : OtherMap}

/-- A round takes one condition out and puts it back. -/
theorem substitute_one (rt : Runtime) {t : SQLConstraintSet} {wi : Nat} {c : SQLConstraint} {subst : Text} (at' : t.toList[wi]? = some c)
    (made : substitution other c.comparator.str = some subst) :
    Substituted other t.toList
      (insert rt.shape SQLConstraint.less { c with substitute := subst } (rt.shape.unlink t wi)).toList := by
  have perm := insert_perm rt.shape SQLConstraint.less_total { c with substitute := subst } (rt.shape.unlink t wi)
  rw [rt.shape.unlink_toList] at perm
  obtain ⟨lt, rfl⟩ := List.getElem?_eq_some_iff.1 at'
  constructor
  · refine (perm.map _).trans ?_
    have back : (t.toList[wi] :: t.toList.eraseIdx wi).Perm t.toList := List.getElem_cons_eraseIdx_perm lt
    exact back.map SQLConstraint.core
  · intro d mem
    rcases List.mem_cons.1 (perm.mem_iff.1 mem) with rfl | mem
    · exact .inr made
    · exact .inl (List.mem_of_mem_eraseIdx mem)

theorem substRounds_ok {fuel wi : Nat} {t t' : SQLConstraintSet} (run : substRounds rt other fuel wi t = .ok () t') :
    Substituted other t.toList t'.toList := by
  induction fuel generalizing wi t with
  | zero => cases run
  | succ fuel ih =>
    rw [substRounds, Proc.get_bind] at run
    cases at' : t.toList[wi]? with
    | none =>
      simp only [at'] at run
      cases run
      exact .refl _ _
    | some c =>
      simp only [at'] at run
      cases made : substitution other c.comparator.str with
      | none =>
        simp only [made] at run
        exact ih run
      | some subst =>
        simp only [made] at run
        have one := substitute_one rt at' made
        generalize insert rt.shape SQLConstraint.less { c with substitute := subst } (rt.shape.unlink t wi) = t₁ at one run
        rw [Proc.set_bind] at run
        cases landed : rt.landing fuel t₁.toList wi { c with substitute := subst } with
        | some wi' =>
          simp only [landed] at run
          exact one.trans (ih run)
        | none =>
          simp only [landed] at run
          cases run

/-! ## The parts of a statement -/

/-- The conditions of a list with ` AND ` between them. -/
def joinConditions : List SQLConstraint → Text
  | [] => []
  | w :: rest => rest.foldl (fun buf w => buf ++ of .literal constrJoin ++ w.toText) w.toText

/-- What `comparatorSubst` makes of a set; of an empty one nothing is asked. -/
def Swaps (rt : Runtime) (other : OtherMap) (t t' : SQLConstraintSet) : Prop :=
  (t.toList = [] ∧ t' = t) ∨ comparatorSubst rt other t = .ok () t'

theorem Swaps.substituted {t t' : SQLConstraintSet} (h : Swaps rt other t t') : Substituted other t.toList t'.toList := by
  rcases h with ⟨-, rfl⟩ | run
  · exact .refl _ _
  · exact substRounds_ok run

theorem ownConditions_ok {s s' : DatasetSection} {text : Text} (run : ownConditions rt s = .ok text s') :
    ∃ t : SQLConstraintSet, s' = s.setWhere t ∧ Swaps rt s.other s.whereSet t ∧ text = joinConditions t.toList := by
  unfold ownConditions at run
  rw [Proc.get_bind] at run
  split at run
  · rename_i empty
    cases run
    have none : s.whereSet.toList = [] := List.isEmpty_iff.1 empty
    exact ⟨s.whereSet, rfl, .inl ⟨none, rfl⟩, by rw [none]; rfl⟩
  · rw [Proc.get_bind] at run
    obtain ⟨⟨⟩, s₁, substituted, rest⟩ := Proc.of_bind_ok run
    cases rounds : comparatorSubst rt s.other s.whereSet with
    | error fault t =>
      rw [Proc.zoom_error rounds] at substituted
      cases substituted
    | ok a t =>
      rw [Proc.zoom_ok rounds] at substituted
      cases substituted
      rw [Proc.get_bind] at rest
      change (match t.toList with
        | [] => throw Fault.undefined
        | w :: rest => return rest.foldl (fun buf w => buf ++ of .literal constrJoin ++ w.toText) w.toText :
          Proc DatasetSection Text) _ = _ at rest
      cases elements : t.toList with
      | nil =>
        rw [elements] at rest
        cases rest
      | cons w more =>
        rw [elements] at rest
        cases rest
        exact ⟨t, rfl, .inr rounds, by rw [elements]; rfl⟩

theorem onLocal_ok {σ τ α : Type} {x : Proc τ α} {t t' : τ} {s s' : σ} {a : α} (run : Proc.onLocal x t s = .ok (a, t') s') :
    x t = .ok a t' ∧ s' = s := by
  unfold Proc.onLocal at run
  cases first : x t with
  | ok b t₁ =>
    rw [first] at run
    cases run
    exact ⟨rfl, rfl⟩
  | error fault t₁ =>
    rw [first] at run
    cases run

/-- The conditions of a text, after `comparatorSubst`. -/
def LoadsBy (rt : Runtime) (s : DatasetSection) (constraints left : Text) (found : List SQLConstraint) : Prop :=
  ∃ loaded t, SQLQuery.loadConstraints rt.shape constraints = .ok loaded left ∧ Swaps rt s.other loaded t ∧ found = t.toList

theorem loadedConditions_ok {constraints left : Text} {s s' : DatasetSection} {found : List SQLConstraint}
    (run : loadedConditions rt constraints s = .ok (found, left) s') : s' = s ∧ LoadsBy rt s constraints left found := by
  unfold loadedConditions at run
  rw [Proc.get_bind] at run
  obtain ⟨⟨loaded, left₁⟩, s₁, first, rest⟩ := Proc.of_bind_ok run
  obtain ⟨⟨⟨⟩, t⟩, s₂, second, last⟩ := Proc.of_bind_ok rest
  obtain ⟨load, rfl⟩ := onLocal_ok first
  obtain ⟨rounds, rfl⟩ := onLocal_ok second
  cases last
  exact ⟨rfl, loaded, t, load, .inr rounds, rfl⟩

/-- Nothing is loaded from an empty text. -/
theorem loadConstraints_nil (shape : Shape) : SQLQuery.loadConstraints shape [] = .ok .leaf [] :=
  SQLQuery.loadConstraints_iff.2 ⟨[], .stop constrBase_nil, rfl⟩

/-- `" WHERE "` and the conditions, if there are any. -/
def whereText (buf : Text) : Text := if buf ≠ [] then lit " WHERE " ++ buf else []

theorem whereText_eq (query buf : Text) :
    (if buf ≠ [] then query ++ (lit " WHERE " ++ buf) else query) = query ++ whereText buf := by
  unfold whereText
  split
  · rfl
  · rw [List.append_nil]

/-- The conditions of a text, with the substitutes of a section. -/
def Loads (rt : Runtime) (s : DatasetSection) (constraints left : Text) (found : List SQLConstraint) : Prop :=
  ∃ loaded, SQLQuery.loadConstraints rt.shape constraints = .ok loaded left ∧ Substituted s.other loaded.toList found

theorem LoadsBy.loads {s : DatasetSection} {constraints left : Text} {found : List SQLConstraint}
    (h : LoadsBy rt s constraints left found) : Loads rt s constraints left found := by
  obtain ⟨loaded, t, load, swaps, rfl⟩ := h
  exact ⟨loaded, load, swaps.substituted⟩

theorem LoadsBy.nil (s : DatasetSection) : LoadsBy rt s [] [] [] :=
  ⟨.leaf, .leaf, loadConstraints_nil rt.shape, .inl ⟨rfl, rfl⟩, rfl⟩

/-- The parts of what `buildQuery` returns. -/
theorem buildQuery_runs {www2id : Str → Str} {constraint : Str} {s s' : DatasetSection} {query : Text}
    (run : buildQuery rt www2id constraint s = .ok query s') : ∃ attrs left found left' t,
      SQLQuery.attrToSelect rt.shape s.query.select (splitConstraint (of .client (www2id constraint))).1 = .ok attrs left ∧
      s' = s.setWhere t ∧ Swaps rt s.other s.whereSet t ∧
      LoadsBy rt s (splitConstraint (of .client (www2id constraint))).2 left' found ∧
      query = lit "SELECT " ++ selectClause attrs ++ (lit " FROM " ++ s.query.fromText) ++
        whereText (found.foldl (addCondition s.query.select) (joinConditions t.toList)) ++ lit ";" := by
  unfold buildQuery at run
  generalize splitConstraint (of .client (www2id constraint)) = parts at run ⊢
  obtain ⟨attributes, constraints⟩ := parts
  simp only at run
  rw [Proc.get_bind] at run
  obtain ⟨⟨attrs, left⟩, s₁, first, rest⟩ := Proc.of_bind_ok run
  obtain ⟨select, rfl⟩ := onLocal_ok first
  split at rest
  · cases rest
  · obtain ⟨own, s₂, second, last⟩ := Proc.of_bind_ok rest
    obtain ⟨t, rfl, swaps, rfl⟩ := ownConditions_ok second
    split at last
    · rename_i none
      cases last
      refine ⟨attrs, left, [], [], t, select, rfl, swaps, by rw [none]; exact .nil _, ?_⟩
      rw [whereText_eq]
      rfl
    · obtain ⟨⟨found, left'⟩, s₃, third, fourth⟩ := Proc.of_bind_ok last
      obtain ⟨rfl, loads⟩ := loadedConditions_ok third
      cases fourth
      exact ⟨attrs, left, found, left', t, select, rfl, swaps, loads, by rw [whereText_eq]⟩

theorem buildQuery_ok {www2id : Str → Str} {constraint : Str} {s s' : DatasetSection} {query : Text}
    (run : buildQuery rt www2id constraint s = .ok query s') : ∃ attrs left found left' t,
      SQLQuery.attrToSelect rt.shape s.query.select (splitConstraint (of .client (www2id constraint))).1 = .ok attrs left ∧
      s' = s.setWhere t ∧ Substituted s.other s.whereSet.toList t.toList ∧
      Loads rt s (splitConstraint (of .client (www2id constraint))).2 left' found ∧
      query = lit "SELECT " ++ selectClause attrs ++ (lit " FROM " ++ s.query.fromText) ++
        whereText (found.foldl (addCondition s.query.select) (joinConditions t.toList)) ++ lit ";" := by
  obtain ⟨attrs, left, found, left', t, select, section', swaps, loads, text⟩ := buildQuery_runs run
  exact ⟨attrs, left, found, left', t, select, section', swaps.substituted, loads.loads, text⟩

/-- The parts of what `buildCountQuery` returns: the conditions of the section are read once more
from their own text, and what the matches left of it stands in front. -/
theorem buildCountQuery_runs {s s' : DatasetSection} {query : Text} (run : buildCountQuery rt s = .ok query s') :
    ∃ found left t, s' = s.setWhere t ∧ Swaps rt s.other s.whereSet t ∧
      LoadsBy rt s (joinConditions t.toList) left found ∧
      query = lit "SELECT COUNT(*) FROM " ++ s.query.fromText ++
        whereText (found.foldl (addCondition s.query.select) left) ++ lit ";" := by
  unfold buildCountQuery at run
  rw [Proc.get_bind] at run
  obtain ⟨own, s₁, first, rest⟩ := Proc.of_bind_ok run
  obtain ⟨t, rfl, swaps, rfl⟩ := ownConditions_ok first
  split at rest
  · rename_i none
    cases rest
    refine ⟨[], [], t, rfl, swaps, by rw [none]; exact .nil _, ?_⟩
    rw [List.append_assoc (lit "SELECT COUNT(*) FROM " ++ s.query.fromText) (lit " WHERE "), whereText_eq, none]
    rfl
  · obtain ⟨⟨found, left⟩, s₂, second, last⟩ := Proc.of_bind_ok rest
    obtain ⟨rfl, loads⟩ := loadedConditions_ok second
    cases last
    refine ⟨found, left, t, rfl, swaps, loads, ?_⟩
    rw [List.append_assoc (lit "SELECT COUNT(*) FROM " ++ s.query.fromText) (lit " WHERE "), whereText_eq]

theorem buildCountQuery_ok {s s' : DatasetSection} {query : Text} (run : buildCountQuery rt s = .ok query s') :
    ∃ found left t, s' = s.setWhere t ∧ Substituted s.other s.whereSet.toList t.toList ∧
      Loads rt s (joinConditions t.toList) left found ∧
      query = lit "SELECT COUNT(*) FROM " ++ s.query.fromText ++
        whereText (found.foldl (addCondition s.query.select) left) ++ lit ";" := by
  obtain ⟨found, left, t, section', swaps, loads, text⟩ := buildCountQuery_runs run
  exact ⟨found, left, t, section', swaps.substituted, loads.loads, text⟩

end SQLTextContainer

end SqlHandler
