import Mathlib.Data.List.Basic

/-!
# Lists split at separators

`List.splitOnP` gives what stands between the separators. Where a list of parts is cut in
two the list itself is, at a separator; two lists put together share the part in the middle.
-/

namespace Stl

variable {α : Type} {p : α → Bool}

/-- No part has a separator. -/
theorem mem_part {xs x : List α} (h : x ∈ xs.splitOnP p) : ∀ c ∈ x, p c = false := by
  induction xs generalizing x with
  | nil =>
    rw [List.splitOnP_nil, List.mem_singleton] at h
    simp [h]
  | cons y ys ih =>
    rw [List.splitOnP_cons_eq_if_modifyHead] at h
    obtain ⟨first, others, parts⟩ := List.exists_cons_of_ne_nil (List.splitOnP_ne_nil p ys)
    rw [parts] at h ih
    by_cases sep : p y = true
    · rw [if_pos sep] at h
      rcases List.mem_cons.1 h with rfl | h
      · simp
      · exact ih h
    · rw [if_neg sep, List.modifyHead_cons] at h
      rcases List.mem_cons.1 h with rfl | h
      · intro c mem
        rcases List.mem_cons.1 mem with rfl | mem
        · simpa using sep
        · exact ih List.mem_cons_self c mem
      · exact ih (List.mem_cons_of_mem _ h)

/-- The letters of a part are letters of the list, in their order. -/
theorem part_sublist {xs x : List α} (h : x ∈ xs.splitOnP p) : x.Sublist xs := by
  induction xs generalizing x with
  | nil =>
    rw [List.splitOnP_nil, List.mem_singleton] at h
    rw [h]
  | cons y ys ih =>
    obtain ⟨first, others, parts⟩ := List.exists_cons_of_ne_nil (List.splitOnP_ne_nil p ys)
    rw [List.splitOnP_cons_eq_if_modifyHead, parts] at h
    rw [parts] at ih
    by_cases sep : p y = true
    · rw [if_pos sep] at h
      rcases List.mem_cons.1 h with rfl | h
      · exact List.nil_sublist _
      · exact (ih h).cons y
    · rw [if_neg sep, List.modifyHead_cons] at h
      rcases List.mem_cons.1 h with rfl | h
      · exact (ih List.mem_cons_self).cons_cons y
      · exact (ih (List.mem_cons_of_mem _ h)).cons y

theorem part_subset {xs x : List α} (h : x ∈ xs.splitOnP p) : ∀ c ∈ x, c ∈ xs := fun _ mem => (part_sublist h).subset mem

/-- What is no separator stands in some part. -/
theorem mem_parts {xs : List α} {c : α} (letter : p c = false) (mem : c ∈ xs) : ∃ x ∈ xs.splitOnP p, c ∈ x := by
  induction xs with
  | nil => cases mem
  | cons y ys ih =>
    obtain ⟨first, others, parts⟩ := List.exists_cons_of_ne_nil (List.splitOnP_ne_nil p ys)
    rw [List.splitOnP_cons_eq_if_modifyHead, parts]
    rw [parts] at ih
    by_cases sep : p y = true
    · rw [if_pos sep]
      rcases List.mem_cons.1 mem with rfl | mem
      · rw [letter] at sep
        cases sep
      · obtain ⟨x, inParts, inside⟩ := ih mem
        exact ⟨x, List.mem_cons_of_mem _ inParts, inside⟩
    · rw [if_neg sep, List.modifyHead_cons]
      rcases List.mem_cons.1 mem with rfl | mem
      · exact ⟨c :: first, List.mem_cons_self, List.mem_cons_self⟩
      · obtain ⟨x, inParts, inside⟩ := ih mem
        rcases List.mem_cons.1 inParts with rfl | inParts
        · exact ⟨y :: x, List.mem_cons_self, List.mem_cons_of_mem _ inside⟩
        · exact ⟨x, List.mem_cons_of_mem _ inParts, inside⟩

/-- There is a part behind each separator, and one in front. -/
theorem split_length (xs : List α) : (xs.splitOnP p).length ≤ xs.length + 1 := by
  induction xs with
  | nil => simp
  | cons y ys ih =>
    rw [List.splitOnP_cons_eq_if_modifyHead]
    by_cases sep : p y = true
    · rw [if_pos sep, List.length_cons, List.length_cons]
      omega
    · rw [if_neg sep, List.length_modifyHead, List.length_cons]
      omega

/-- What is no separator begins the first part. -/
theorem split_cons {x : α} {xs : List α} (h : p x = false) : ∃ u r, (x :: xs).splitOnP p = (x :: u) :: r := by
  obtain ⟨first, others, parts⟩ := List.exists_cons_of_ne_nil (List.splitOnP_ne_nil p xs)
  refine ⟨first, others, ?_⟩
  rw [List.splitOnP_cons_eq_if_modifyHead, if_neg (by simp [h]), parts, List.modifyHead_cons]

/-- A list of one part is that part. -/
theorem split_singleton {xs x : List α} (h : xs.splitOnP p = [x]) : xs = x := by
  induction xs generalizing x with
  | nil => simpa using h
  | cons y ys ih =>
    obtain ⟨first, others, parts⟩ := List.exists_cons_of_ne_nil (List.splitOnP_ne_nil p ys)
    rw [List.splitOnP_cons_eq_if_modifyHead, parts] at h
    by_cases sep : p y = true
    · rw [if_pos sep] at h
      simp at h
    · rw [if_neg sep, List.modifyHead_cons] at h
      obtain ⟨rfl, rfl⟩ := List.cons.inj h
      rw [ih parts]

theorem split_map {β : Type} {q : β → Bool} (f : α → β) (xs : List α) :
    (xs.map f).splitOnP q = (xs.splitOnP fun x => q (f x)).map (List.map f) := by
  induction xs with
  | nil => rfl
  | cons y ys ih =>
    obtain ⟨first, others, parts⟩ := List.exists_cons_of_ne_nil (List.splitOnP_ne_nil (fun x => q (f x)) ys)
    rw [List.map_cons, List.splitOnP_cons_eq_if_modifyHead, List.splitOnP_cons_eq_if_modifyHead, ih, parts]
    by_cases sep : q (f y) = true
    · rw [if_pos sep, if_pos sep]
      rfl
    · rw [if_neg sep, if_neg sep]
      rfl

/-- Between two parts stands a separator. -/
theorem split_append {xs : List α} {l r : List (List α)} (h : xs.splitOnP p = l ++ r) (hl : l ≠ []) (hr : r ≠ []) :
    ∃ a c b, xs = a ++ c :: b ∧ p c = true ∧ a.splitOnP p = l ∧ b.splitOnP p = r := by
  induction xs generalizing l with
  | nil =>
    have length := congrArg List.length h
    have := List.length_pos_iff.2 hl
    have := List.length_pos_iff.2 hr
    simp only [List.splitOnP_nil, List.length_singleton, List.length_append] at length
    omega
  | cons y ys ih =>
    obtain ⟨x, l, rfl⟩ := List.exists_cons_of_ne_nil hl
    obtain ⟨first, others, parts⟩ := List.exists_cons_of_ne_nil (List.splitOnP_ne_nil p ys)
    rw [List.splitOnP_cons_eq_if_modifyHead, List.cons_append] at h
    by_cases sep : p y = true
    · rw [if_pos sep] at h
      obtain ⟨rfl, rest⟩ := List.cons.inj h
      cases l with
      | nil => exact ⟨[], y, ys, rfl, sep, rfl, rest⟩
      | cons z l =>
        obtain ⟨a, c, b, rfl, hc, left, right⟩ := ih rest (by simp)
        refine ⟨y :: a, c, b, rfl, hc, ?_, right⟩
        rw [List.splitOnP_cons_eq_if_modifyHead, if_pos sep, left]
    · rw [if_neg sep, parts, List.modifyHead_cons] at h
      obtain ⟨rfl, rest⟩ := List.cons.inj h
      obtain ⟨a, c, b, rfl, hc, left, right⟩ := ih (l := first :: l) (by rw [parts, rest]; rfl) (by simp)
      refine ⟨y :: a, c, b, rfl, hc, ?_, right⟩
      rw [List.splitOnP_cons_eq_if_modifyHead, if_neg sep, left, List.modifyHead_cons]

/-- The last part of a list. -/
theorem split_last (xs : List α) : ∃ a u, xs = a ++ u ∧ (∀ c ∈ u, p c = false) ∧ (a = [] ∨ ∃ b c, a = b ++ [c] ∧ p c = true) := by
  have parts := List.dropLast_append_getLast (List.splitOnP_ne_nil p xs)
  generalize (xs.splitOnP p).getLast (List.splitOnP_ne_nil p xs) = u at parts
  have free : ∀ c ∈ u, p c = false := mem_part (by rw [← parts]; simp)
  by_cases one : (xs.splitOnP p).dropLast = []
  · rw [one, List.nil_append] at parts
    exact ⟨[], u, split_singleton parts.symm, free, .inl rfl⟩
  · obtain ⟨b, c, u', rfl, hc, -, last⟩ := split_append parts.symm one (by simp)
    obtain rfl := split_singleton last
    exact ⟨b ++ [c], u', by simp, free, .inr ⟨b, c, rfl, hc⟩⟩

/-- The last part of one list and the first of the next are one part of both together. -/
theorem split_glue {xs ys u v : List α} {l r : List (List α)} (hx : xs.splitOnP p = l ++ [u])
    (hy : ys.splitOnP p = v :: r) : (xs ++ ys).splitOnP p = l ++ (u ++ v) :: r := by
  induction xs generalizing l u with
  | nil =>
    cases l with
    | nil =>
      obtain rfl : [] = u := by simpa using hx
      exact hy
    | cons z l => simp at hx
  | cons x xs ih =>
    obtain ⟨first, others, parts⟩ := List.exists_cons_of_ne_nil (List.splitOnP_ne_nil p xs)
    rw [List.splitOnP_cons_eq_if_modifyHead] at hx
    rw [List.cons_append, List.splitOnP_cons_eq_if_modifyHead]
    by_cases sep : p x = true
    · rw [if_pos sep] at hx ⊢
      cases l with
      | nil =>
        obtain ⟨-, none⟩ := List.cons.inj hx
        exact absurd none (List.splitOnP_ne_nil p xs)
      | cons z l =>
        obtain ⟨rfl, rest⟩ := List.cons.inj hx
        rw [ih rest]
        rfl
    · rw [if_neg sep, parts, List.modifyHead_cons] at hx
      rw [if_neg sep]
      cases l with
      | nil =>
        obtain ⟨rfl, rfl⟩ := List.cons.inj hx
        rw [ih (l := []) (by rw [parts]; rfl)]
        rfl
      | cons z l =>
        obtain ⟨rfl, rfl⟩ := List.cons.inj hx
        rw [ih (l := first :: l) (by rw [parts]; rfl)]
        rfl

end Stl
