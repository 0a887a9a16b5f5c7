import SqlHandler.Container.Statements
import Mathlib.Data.List.Nodup

/-!
# Sets of constraints

`operator<` answers `true` unless one constraint is behind the other in all three texts. It
is no order at all: every constraint goes before itself. So a set never takes two constraints
for one and never finds one (`constraints_lawful_iff`), and `comparatorSubst` goes on from an
iterator that it has erased wherever it puts a substitute in (`comparatorSubst_map_iff`).
-/

namespace SqlHandler
open Posix Text Stl

/-! ## The order -/

namespace SQLConstraint

/-- The attribute, the comparator and the value as texts: what tells constraints apart. -/
def key (c : SQLConstraint) : Str × Str × Str := (c.attr.attr.str, c.comparator.str, c.value.str)

theorem less_false_iff {a b : SQLConstraint} : less a b = false ↔
    b.attr.attr.str < a.attr.attr.str ∧ b.comparator.str < a.comparator.str ∧ b.value.str < a.value.str := by
  unfold less
  split
  · rename_i behind
    exact iff_of_true rfl behind
  · rename_i ahead
    exact iff_of_false (by decide) ahead

/-- Every constraint goes before itself. -/
theorem less_self (c : SQLConstraint) : less c c = true := by
  rw [← Bool.not_eq_false, less_false_iff]
  exact fun behind => lt_irrefl _ behind.1

/-- Of any two constraints one goes before the other. -/
theorem not_incomparable (a b : SQLConstraint) : ¬ Incomparable less a b := by
  rintro ⟨behind, ahead⟩
  rw [less_false_iff] at behind ahead
  exact lt_asymm behind.1 ahead.1

/-- What a set of constraints needs of their order. -/
structure Lawful (l : List SQLConstraint) : Prop where
  order : StrictWeakOrder less l
  tells : ∀ a ∈ l, ∀ b ∈ l, Incomparable less a b ↔ a.key = b.key

theorem lawful_iff (l : List SQLConstraint) : Lawful l ↔ l = [] := by
  constructor
  · intro lawful
    refine List.eq_nil_iff_forall_not_mem.2 fun c mem => ?_
    have before := lawful.order.irrefl c mem
    rw [less_self] at before
    cases before
  · rintro rfl
    exact ⟨⟨by simp, by simp, by simp, by simp⟩, by simp⟩

/-- The set of the constraints of a list, put in one after the other. -/
def setOf (shape : Shape) (l : List SQLConstraint) : SQLConstraintSet := insertAll shape less .leaf l

theorem setOf_perm (shape : Shape) (l : List SQLConstraint) : (setOf shape l).toList.Perm l :=
  insertAll_perm shape less_total l .leaf

/-- The set holds each constraint once. -/
def HoldsOnce (shape : Shape) (l : List SQLConstraint) : Prop :=
  ∀ c ∈ l, ((setOf shape l).toList.map key).count c.key = 1

/-- The set finds each constraint. -/
def Finds (shape : Shape) (l : List SQLConstraint) : Prop :=
  ∀ c ∈ l, ∃ y, find less c (setOf shape l) = some y ∧ y.key = c.key

theorem holdsOnce_iff (shape : Shape) (l : List SQLConstraint) : HoldsOnce shape l ↔ (l.map key).Nodup := by
  unfold HoldsOnce
  rw [List.nodup_iff_count_eq_one, List.forall_mem_map]
  have same : ∀ k, ((setOf shape l).toList.map key).count k = (l.map key).count k :=
    fun k => ((setOf_perm shape l).map key).count_eq k
  simp only [same]

theorem finds_iff (shape : Shape) (l : List SQLConstraint) : Finds shape l ↔ l = [] := by
  constructor
  · intro finds
    refine List.eq_nil_iff_forall_not_mem.2 fun c mem => ?_
    obtain ⟨y, found, -⟩ := finds c mem
    exact not_incomparable y c (find_incomparable found)
  · rintro rfl
    exact fun c mem => absurd mem List.not_mem_nil

/-- The order keeps none of its laws for any constraint; a set holds a constraint as often as it was
put in, and never finds it. The trees may be rebalanced in any way, as the order alone decides where an
element is put and looked for. -/
theorem constraints_lawful_iff (shape : Shape) (l : List SQLConstraint) :
    (Lawful l ↔ l = []) ∧ (HoldsOnce shape l ↔ (l.map key).Nodup) ∧ (Finds shape l ↔ l = []) :=
  ⟨lawful_iff l, holdsOnce_iff shape l, finds_iff shape l⟩

/-- The condition `x>5`. -/
def above : SQLConstraint := ⟨⟨of .dataset "x".toList, of .dataset "x".toList, of .dataset "x".toList, 0⟩,
  of .dataset ">".toList, [], of .dataset "5".toList⟩

theorem above_twice : less above above = true ∧ (setOf .plain [above, above]).toList = [above, above] ∧
    find less above (setOf .plain [above, above]) = none := by
  decide

end SQLConstraint

/-! ## Comparators substituted -/

/-- `std::set` as it is defined: an erased iterator is no longer used. -/
def Runtime.standard (shape : Shape) (patience : Nat) : Runtime where
  shape
  landing _ _ _ _ := none
  patience

namespace SQLTextContainer

/-- A constraint with the substitute of its comparator, if it has one. -/
def withSubstitute (other : OtherMap) (c : SQLConstraint) : SQLConstraint :=
  match substitution other c.comparator.str with
  | some subst => { c with substitute := subst }
  | none => c

/-- `comparatorSubst` ends without the use of an erased iterator and maps each constraint to its
substitute; once more, it changes nothing. -/
def MapsConstraints (shape : Shape) (other : OtherMap) (t : SQLConstraintSet) : Prop :=
  ∃ patience t', comparatorSubst (.standard shape patience) other t = .ok () t' ∧
    t'.toList.Perm (t.toList.map (withSubstitute other)) ∧
    ∃ t'', comparatorSubst (.standard shape patience) other t' = .ok () t'' ∧ t''.toList = t'.toList

section Standard
variable {shape : Shape} {other : OtherMap} {t t' : SQLConstraintSet} {patience fuel wi : Nat}

/-- From an index on nothing is substituted: the loop passes over the rest. -/
theorem substRounds_plain (none : ∀ i c, wi ≤ i → t.toList[i]? = some c → substitution other c.comparator.str = none)
    (inside : wi ≤ t.toList.length) (enough : t.toList.length < wi + fuel) : substRounds (.standard shape patience) other fuel wi t = .ok () t := by
  induction fuel generalizing wi with
  | zero => omega
  | succ fuel ih =>
    rw [substRounds, Proc.get_bind]
    cases at' : t.toList[wi]? with
    | none => rfl
    | some c =>
      simp only [none wi c le_rfl at']
      have lt : wi < t.toList.length := (List.getElem?_eq_some_iff.1 at').1
      exact ih (fun i c le => none i c (by omega)) lt (by omega)

/-- A loop that ended met nothing to substitute. -/
theorem substRounds_standard (run : substRounds (.standard shape patience) other fuel wi t = .ok () t') :
    t' = t ∧ ∀ i c, wi ≤ i → t.toList[i]? = some c → substitution other c.comparator.str = none := by
  induction fuel generalizing wi with
  | zero => cases run
  | succ fuel ih =>
    rw [substRounds, Proc.get_bind] at run
    cases at' : t.toList[wi]? with
    | none =>
      simp only [at'] at run
      cases run
      refine ⟨rfl, fun i c le there => ?_⟩
      have short : t.toList.length ≤ wi := List.getElem?_eq_none_iff.1 at'
      rw [List.getElem?_eq_none_iff.2 (by omega)] at there
      cases there
    | some c =>
      simp only [at'] at run
      cases made : substitution other c.comparator.str with
      | some subst =>
        simp only [made] at run
        cases run
      | none =>
        simp only [made] at run
        obtain ⟨rfl, rest⟩ := ih run
        refine ⟨rfl, fun i d le there => ?_⟩
        rcases Nat.eq_or_lt_of_le le with rfl | lt
        · rw [at'] at there
          cases there
          exact made
        · exact rest i d lt there

end Standard

/-- That is so if and only if there is no constraint to substitute: under the standard's words `erase` ends
the life of the iterator that the loop goes on with. The set and the substitutes are any. -/
theorem comparatorSubst_map_iff (shape : Shape) (other : OtherMap) (t : SQLConstraintSet) :
    MapsConstraints shape other t ↔ ∀ c ∈ t.toList, substitution other c.comparator.str = none := by
  constructor
  · rintro ⟨patience, t', run, -⟩ c mem
    obtain ⟨i, there⟩ := List.getElem?_of_mem mem
    exact (substRounds_standard run).2 i c (Nat.zero_le i) there
  · intro none
    have plain : ∀ c ∈ t.toList, withSubstitute other c = c := by
      intro c mem
      unfold withSubstitute
      rw [none c mem]
    have run : comparatorSubst (.standard shape (t.toList.length + 1)) other t = .ok () t :=
      substRounds_plain (fun i c _ there => none c (List.mem_of_getElem? there)) (Nat.zero_le _) (by simp [Runtime.standard])
    refine ⟨_, t, run, ?_, t, run, rfl⟩
    rw [List.map_congr_left plain, List.map_id']

/-- A set with `x!=5`. -/
def unequal : SQLConstraintSet := SQLConstraint.setOf .plain [{ SQLConstraint.above with comparator := of .client "!=".toList }]

theorem unequal_lost : ¬ MapsConstraints .plain .leaf unequal := by
  rintro ⟨patience, t', run, -⟩
  cases patience with
  | zero => cases run
  | succ patience =>
    have lost : comparatorSubst (.standard .plain (patience + 1)) .leaf unequal = .error .undefined
        (SQLConstraint.setOf .plain [{ SQLConstraint.above with comparator := of .client "!=".toList, substitute := lit "<>" }]) := rfl
    rw [lost] at run
    cases run

end SQLTextContainer

end SqlHandler
