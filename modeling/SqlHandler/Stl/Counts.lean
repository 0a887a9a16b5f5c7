import Mathlib.Data.PNat.Basic
import Mathlib.Logic.Function.Basic

/-!
# Use counts

A `std::map` from keys to counts that erases an entry when its count falls to zero. Without
an entry the count is zero, and a map is known by its counts.
-/

namespace Stl
variable {κ : Type}

/-- A map from keys to counts. No entry holds a zero. -/
abbrev Counts (κ : Type) : Type := κ → Option ℕ+

namespace Counts

/-- The entry of a count. -/
def entry : Nat → Option ℕ+
  | 0 => none
  | n + 1 => some n.succPNat

/-- The count of a key. -/
def count (m : Counts κ) (k : κ) : Nat := (m k).elim 0 PNat.val

@[simp] theorem entry_zero : entry 0 = none := rfl

@[simp] theorem entry_succ (n : Nat) : entry (n + 1) = some n.succPNat := rfl

/-- A map is known by its counts. -/
theorem entry_count (m : Counts κ) (k : κ) : entry (m.count k) = m k := by
  unfold count
  cases found : m k with
  | none => rfl
  | some n =>
    change entry n.val = some n
    rw [← PNat.natPred_add_one n, entry_succ, PNat.succPNat_natPred]

theorem count_of_entry {m : Counts κ} {k : κ} {n : Nat} (h : m k = entry n) : m.count k = n := by
  unfold count
  rw [h]
  cases n with
  | zero => rfl
  | succ n => rfl

theorem eq_entry {m : Counts κ} {k : κ} {n : Nat} : m k = entry n ↔ m.count k = n := by
  constructor
  · exact count_of_entry
  · intro h
    rw [← entry_count m k, h]

variable [DecidableEq κ]

/-- The map with the count of one key replaced. -/
def put (m : Counts κ) (k : κ) (n : Nat) : Counts κ := Function.update m k (entry n)

theorem count_put (m : Counts κ) (k k' : κ) (n : Nat) :
    (m.put k n).count k' = if k' = k then n else m.count k' := by
  split
  · subst k'
    apply count_of_entry
    exact Function.update_self k (entry n) m
  · rename_i other
    unfold count put
    rw [Function.update_of_ne other]

end Counts

end Stl
