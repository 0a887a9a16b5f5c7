import Mathlib.Data.List.Basic
import Mathlib.Data.List.Pairwise
import Mathlib.Order.Lattice
import Mathlib.Tactic.Common

/-!
# `std::set` over any comparison function

A set is a search tree, and `insert` and `find` descend it by the comparison function
whatever that function is: `attach_place` and `find_place` say where the descent ends,
with no assumption on the order. From them come the two cases a program meets. By a
key with a linear order the elements are sorted and one of each key. By a comparison
under which any two elements are related, every `insert` adds its element.

How the tree is balanced is a parameter, `Shape`; it keeps the elements and their order.
-/

namespace Stl

/-- A red-black tree. -/
inductive SearchTree (α : Type) where
  | leaf
  | node (red : Bool) (left : SearchTree α) (x : α) (right : SearchTree α)

namespace SearchTree
variable {α : Type}

/-- The elements in the order of the iterators. -/
def toList : SearchTree α → List α
  | leaf => []
  | node _ l x r => l.toList ++ x :: r.toList

/-- A tree of the elements of a list. -/
def ofList : List α → SearchTree α
  | [] => leaf
  | x :: xs => node false leaf x (ofList xs)

@[simp] theorem toList_leaf : (leaf : SearchTree α).toList = [] := rfl

@[simp] theorem toList_node (red : Bool) (l r : SearchTree α) (x : α) :
    (node red l x r).toList = l.toList ++ x :: r.toList := rfl

@[simp] theorem toList_ofList (xs : List α) : (ofList xs).toList = xs := by
  induction xs with
  | nil => rfl
  | cons x xs ih => rw [ofList, toList_node, ih]; rfl

end SearchTree

open SearchTree

/-- What an implementation does to the shape of its trees. -/
structure Shape where
  /-- After a new leaf. -/
  rebalance : {α : Type} → SearchTree α → SearchTree α
  /-- The tree without the element at an index. -/
  unlink : {α : Type} → SearchTree α → Nat → SearchTree α
  rebalance_toList : ∀ {α : Type} (t : SearchTree α), (rebalance t).toList = t.toList
  unlink_toList : ∀ {α : Type} (t : SearchTree α) (i : Nat), (unlink t i).toList = t.toList.eraseIdx i

/-- Leaves stay where they are put. -/
def Shape.plain : Shape where
  rebalance t := t
  unlink t i := ofList (t.toList.eraseIdx i)
  rebalance_toList _ := rfl
  unlink_toList _ _ := toList_ofList _

variable {α : Type}

/-- The tree with a leaf `x`, unless the element before the place is not less than `x`;
`before` is the element before the whole tree. -/
def attach (lt : α → α → Bool) (x : α) : Option α → SearchTree α → Option (SearchTree α)
  | before, leaf => if before.all (lt · x) then some (node true leaf x leaf) else none
  | before, node red l y r =>
    if lt x y then (attach lt x before l).map fun l => node red l y r
    else (attach lt x (some y) r).map fun r => node red l y r

/-- `insert` -/
def insert (shape : Shape) (lt : α → α → Bool) (x : α) (t : SearchTree α) : SearchTree α :=
  match attach lt x none t with
  | some t => shape.rebalance t
  | none => t

/-- The first element not less than `k`, unless `k` is less than it; `after` is the
element behind the whole tree. -/
def findFrom (lt : α → α → Bool) (k : α) : Option α → SearchTree α → Option α
  | after, leaf => after.filter fun y => !lt k y
  | after, node _ l y r => if lt y k then findFrom lt k after r else findFrom lt k (some y) l

/-- `find`, `none` for `end()`. -/
def find (lt : α → α → Bool) (k : α) (t : SearchTree α) : Option α := findFrom lt k none t

/-- Insertions one after the other. -/
def insertAll (shape : Shape) (lt : α → α → Bool) (t : SearchTree α) (xs : List α) : SearchTree α :=
  xs.foldl (fun t x => insert shape lt x t) t

/-! ## Where a descent ends -/

/-- The place of a new leaf: nothing before it is greater, what follows is. -/
theorem attach_place (lt : α → α → Bool) (x : α) (before : Option α) (t : SearchTree α) :
    ∃ pre post, t.toList = pre ++ post ∧ (∀ p ∈ pre.getLast?, lt x p = false) ∧
      (∀ q ∈ post.head?, lt x q = true) ∧
      if (pre.getLast?.or before).all (lt · x)
      then ∃ t', attach lt x before t = some t' ∧ t'.toList = pre ++ x :: post
      else attach lt x before t = none := by
  induction t generalizing before with
  | leaf =>
    refine ⟨[], [], rfl, by simp, by simp, ?_⟩
    simp only [List.getLast?_nil, Option.none_or, attach]
    split
    · exact ⟨_, rfl, rfl⟩
    · rfl
  | node red l y r ihl ihr =>
    cases side : lt x y with
    | true =>
      obtain ⟨pre, post, elements, last, first, result⟩ := ihl before
      refine ⟨pre, post ++ y :: r.toList, by simp [elements], last, ?_, ?_⟩
      · cases post with
        | nil => simpa using side
        | cons q post => simpa using first
      · simp only [attach, side, if_true]
        split at result
        · obtain ⟨l', run, elements'⟩ := result
          rw [if_pos ‹_›, run]
          exact ⟨_, rfl, by simp [elements']⟩
        · rw [if_neg ‹_›, result]
          rfl
    | false =>
      obtain ⟨pre, post, elements, last, first, result⟩ := ihr (some y)
      have last_eq : (l.toList ++ y :: pre).getLast?.or before = pre.getLast?.or (some y) := by
        cases pre with
        | nil => simp
        | cons p pre => simp [List.getLast?_append, List.getLast?_cons]
      refine ⟨l.toList ++ y :: pre, post, by simp [elements], ?_, first, ?_⟩
      · cases pre with
        | nil => simpa using side
        | cons p pre => simpa [List.getLast?_append, List.getLast?_cons] using last
      · rw [last_eq]
        simp only [attach, side, Bool.false_eq_true, if_false]
        split at result
        · obtain ⟨r', run, elements'⟩ := result
          rw [if_pos ‹_›, run]
          exact ⟨_, rfl, by simp [elements']⟩
        · rw [if_neg ‹_›, result]
          rfl

/-- The element found is the one at the lower bound. -/
theorem findFrom_place (lt : α → α → Bool) (k : α) (after : Option α) (t : SearchTree α) :
    ∃ pre post, t.toList = pre ++ post ∧ (∀ p ∈ pre.getLast?, lt p k = true) ∧
      (∀ q ∈ post.head?, lt q k = false) ∧
      findFrom lt k after t = (post.head?.or after).filter fun y => !lt k y := by
  induction t generalizing after with
  | leaf => exact ⟨[], [], rfl, by simp, by simp, rfl⟩
  | node red l y r ihl ihr =>
    cases side : lt y k with
    | true =>
      obtain ⟨pre, post, elements, last, first, result⟩ := ihr after
      refine ⟨l.toList ++ y :: pre, post, by simp [elements], ?_, first, ?_⟩
      · cases pre with
        | nil => simpa using side
        | cons p pre => simpa [List.getLast?_append, List.getLast?_cons] using last
      · rw [findFrom, if_pos side, result]
    | false =>
      obtain ⟨pre, post, elements, last, first, result⟩ := ihl (some y)
      refine ⟨pre, post ++ y :: r.toList, by simp [elements], last, ?_, ?_⟩
      · cases post with
        | nil => simpa using side
        | cons q post => simpa using first
      · rw [findFrom, if_neg (by simp [side]), result]
        cases post <;> rfl

theorem mem_insert (shape : Shape) {lt : α → α → Bool} {x y : α} {t : SearchTree α}
    (mem : y ∈ (insert shape lt x t).toList) : y = x ∨ y ∈ t.toList := by
  obtain ⟨pre, post, elements, -, -, result⟩ := attach_place lt x none t
  unfold insert at mem
  split at result
  · obtain ⟨t', run, elements'⟩ := result
    rw [run, shape.rebalance_toList, elements'] at mem
    rw [elements]
    simp only [List.mem_append, List.mem_cons] at mem ⊢
    tauto
  · rw [result] at mem
    exact .inr mem

/-- A set with an element put into it is not empty. -/
theorem insert_ne_leaf {shape : Shape} {lt : α → α → Bool} {x : α} (t : SearchTree α) : insert shape lt x t ≠ .leaf := by
  intro same
  have empty : (insert shape lt x t).toList = [] := by
    rw [same]
    rfl
  obtain ⟨pre, post, elements, -, -, result⟩ := attach_place lt x none t
  unfold insert at empty
  split at result
  · obtain ⟨t', run, elements'⟩ := result
    rw [run, shape.rebalance_toList, elements'] at empty
    exact absurd (List.append_eq_nil_iff.1 empty).2 (List.cons_ne_nil _ _)
  · rename_i found
    rw [result, elements] at empty
    apply found
    rw [(List.append_eq_nil_iff.1 empty).1]
    rfl

theorem mem_insertAll_cases (shape : Shape) {lt : α → α → Bool} {y : α} {xs : List α} {t : SearchTree α}
    (mem : y ∈ (insertAll shape lt t xs).toList) : y ∈ t.toList ∨ y ∈ xs := by
  induction xs generalizing t with
  | nil => exact .inl mem
  | cons x xs ih =>
    rcases ih mem with mem | mem
    · rcases mem_insert shape mem with rfl | mem
      · exact .inr List.mem_cons_self
      · exact .inl mem
    · exact .inr (List.mem_cons_of_mem x mem)

theorem find_mem {lt : α → α → Bool} {k y : α} {t : SearchTree α} (found : find lt k t = some y) : y ∈ t.toList := by
  obtain ⟨pre, post, elements, -, -, result⟩ := findFrom_place lt k none t
  unfold find at found
  rw [result, Option.or_none] at found
  rw [elements]
  exact List.mem_append_right _ (List.mem_of_mem_head? (Option.filter_eq_some_iff.1 found).1)

/-! ## What a set asks of its comparison -/

/-- Neither goes before the other: a set takes them for one element. -/
def Incomparable (lt : α → α → Bool) (a b : α) : Prop := lt a b = false ∧ lt b a = false

/-- The comparison is a strict weak order on the elements of a list. -/
structure StrictWeakOrder (lt : α → α → Bool) (l : List α) : Prop where
  irrefl : ∀ a ∈ l, lt a a = false
  asymm : ∀ a ∈ l, ∀ b ∈ l, lt a b = true → lt b a = false
  trans : ∀ a ∈ l, ∀ b ∈ l, ∀ c ∈ l, lt a b = true → lt b c = true → lt a c = true
  incomparable_trans : ∀ a ∈ l, ∀ b ∈ l, ∀ c ∈ l, Incomparable lt a b → Incomparable lt b c → Incomparable lt a c

/-- What a look-up finds does not go behind what was looked for, and nor the other way round. -/
theorem find_incomparable {lt : α → α → Bool} {k y : α} {t : SearchTree α} (found : find lt k t = some y) :
    Incomparable lt y k := by
  obtain ⟨pre, post, -, -, first, result⟩ := findFrom_place lt k none t
  rw [find, result, Option.or_none, Option.filter_eq_some_iff] at found
  exact ⟨first y found.1, by simpa using found.2⟩

/-! ## Elements related either way -/

/-- Where any two elements are related, each insertion adds its element. -/
theorem insert_adds (shape : Shape) {lt : α → α → Bool} (total : ∀ a b, lt a b = false → lt b a = true)
    (x : α) (t : SearchTree α) :
    ∃ pre post, t.toList = pre ++ post ∧ (insert shape lt x t).toList = pre ++ x :: post := by
  obtain ⟨pre, post, elements, last, -, result⟩ := attach_place lt x none t
  rw [Option.or_none, if_pos] at result
  · obtain ⟨t', run, elements'⟩ := result
    refine ⟨pre, post, elements, ?_⟩
    rw [insert, run, shape.rebalance_toList, elements']
  · cases e : pre.getLast? with
    | none => rfl
    | some p =>
      have : lt p x = true := total _ _ (last p e)
      simpa using this

theorem insert_perm (shape : Shape) {lt : α → α → Bool} (total : ∀ a b, lt a b = false → lt b a = true)
    (x : α) (t : SearchTree α) : (insert shape lt x t).toList.Perm (x :: t.toList) := by
  obtain ⟨pre, post, before, after⟩ := insert_adds shape total x t
  rw [before, after]
  exact List.perm_middle

theorem insertAll_perm (shape : Shape) {lt : α → α → Bool} (total : ∀ a b, lt a b = false → lt b a = true)
    (xs : List α) (t : SearchTree α) : (insertAll shape lt t xs).toList.Perm (t.toList ++ xs) := by
  induction xs generalizing t with
  | nil => simp [insertAll]
  | cons x xs ih =>
    have here : (insertAll shape lt (insert shape lt x t) xs).toList.Perm ((x :: t.toList) ++ xs) :=
      (ih _).trans ((insert_perm shape total x t).append_right xs)
    exact here.trans List.perm_middle.symm

/-! ## Elements with a key -/

section Key

variable {κ : Type} [LinearOrder κ] (key : α → κ)

/-- The comparison of the keys. -/
def byKey (a b : α) : Bool := decide (key a < key b)

/-- The elements are sorted, one of each key. -/
def Ordered (t : SearchTree α) : Prop := t.toList.Pairwise fun a b => key a < key b

theorem ordered_leaf : Ordered key (leaf : SearchTree α) := List.Pairwise.nil

variable {key}

/-- In an ordered set the last element is the greatest. -/
private theorem le_last {xs : List α} (h : xs.Pairwise fun a b => key a < key b) {p y : α}
    (last : xs.getLast? = some p) (mem : y ∈ xs) : key y ≤ key p := by
  obtain ⟨pre, rfl⟩ := List.getLast?_eq_some_iff.1 last
  rcases List.mem_append.1 mem with mem | mem
  · exact le_of_lt ((List.pairwise_append.1 h).2.2 _ mem _ (by simp))
  · rw [List.mem_singleton.1 mem]

/-- In an ordered set the first element is the least. -/
private theorem head_le {xs : List α} (h : xs.Pairwise fun a b => key a < key b) {q y : α}
    (first : xs.head? = some q) (mem : y ∈ xs) : key q ≤ key y := by
  cases xs with
  | nil => cases first
  | cons x xs =>
    cases first
    rcases List.mem_cons.1 mem with rfl | mem
    · exact le_refl _
    · exact le_of_lt ((List.pairwise_cons.1 h).1 _ mem)

/-- An insertion adds its element, unless the set has its key. -/
theorem insert_byKey (shape : Shape) (x : α) {t : SearchTree α} (h : Ordered key t) :
    Ordered key (insert shape (byKey key) x t) ∧
    ∀ y, y ∈ (insert shape (byKey key) x t).toList ↔
      y ∈ t.toList ∨ (y = x ∧ ∀ z ∈ t.toList, key z ≠ key x) := by
  obtain ⟨pre, post, elements, last, first, result⟩ := attach_place (byKey key) x none t
  rw [Ordered, elements] at h
  obtain ⟨ordPre, ordPost, across⟩ := List.pairwise_append.1 h
  have behind : ∀ z ∈ post, key x < key z := by
    intro z mem
    cases e : post.head? with
    | none => rw [List.head?_eq_none_iff.1 e] at mem; cases mem
    | some q =>
      have : key x < key q := by simpa [byKey] using first q e
      exact lt_of_lt_of_le this (head_le ordPost e mem)
  rw [Option.or_none] at result
  by_cases new : (pre.getLast?.all (byKey key · x)) = true
  · rw [if_pos new] at result
    obtain ⟨t', run, elements'⟩ := result
    have ahead : ∀ z ∈ pre, key z < key x := by
      intro z mem
      cases e : pre.getLast? with
      | none => rw [List.getLast?_eq_none_iff.1 e] at mem; cases mem
      | some p =>
        rw [e] at new
        exact lt_of_le_of_lt (le_last ordPre e mem) (by simpa [byKey] using new)
    have now : (insert shape (byKey key) x t).toList = pre ++ x :: post := by
      rw [insert, run, shape.rebalance_toList, elements']
    constructor
    · rw [Ordered, now]
      refine List.pairwise_append.2 ⟨ordPre, List.pairwise_cons.2 ⟨behind, ordPost⟩, ?_⟩
      intro a ha b hb
      rcases List.mem_cons.1 hb with rfl | hb
      · exact ahead a ha
      · exact across a ha b hb
    · intro y
      have fresh : ∀ z ∈ pre ++ post, key z ≠ key x := by
        intro z mem
        rcases List.mem_append.1 mem with mem | mem
        · exact ne_of_lt (ahead z mem)
        · exact ne_of_gt (behind z mem)
      rw [now, elements]
      simp only [List.mem_append, List.mem_cons] at fresh ⊢
      constructor
      · rintro (mem | rfl | mem)
        · exact .inl (.inl mem)
        · exact .inr ⟨rfl, fresh⟩
        · exact .inl (.inr mem)
      · rintro ((mem | mem) | ⟨rfl, -⟩)
        · exact .inl mem
        · exact .inr (.inr mem)
        · exact .inr (.inl rfl)
  · rw [if_neg new] at result
    have now : insert shape (byKey key) x t = t := by rw [insert, result]
    rw [now]
    refine ⟨by rw [Ordered, elements]; exact h, fun y => ⟨.inl, ?_⟩⟩
    rintro (mem | ⟨-, fresh⟩)
    · exact mem
    · cases e : pre.getLast? with
      | none => simp [e] at new
      | some p =>
        have ge : key x ≤ key p := by simpa [byKey, e] using new
        have le : key p ≤ key x := by simpa [byKey] using last p e
        have mem : p ∈ t.toList := by
          rw [elements]
          exact List.mem_append_left _ (List.mem_of_mem_getLast? e)
        exact absurd (le_antisymm le ge) (fresh p mem)

/-- What is found is the element of that key. -/
theorem find_byKey {k y : α} {t : SearchTree α} (h : Ordered key t) :
    find (byKey key) k t = some y ↔ y ∈ t.toList ∧ key y = key k := by
  obtain ⟨pre, post, elements, last, first, result⟩ := findFrom_place (byKey key) k none t
  rw [Ordered, elements] at h
  obtain ⟨ordPre, ordPost, -⟩ := List.pairwise_append.1 h
  rw [find, result, elements, Option.or_none, Option.filter_eq_some_iff, List.mem_append]
  have ahead : ∀ z ∈ pre, key z < key k := by
    intro z mem
    cases e : pre.getLast? with
    | none => rw [List.getLast?_eq_none_iff.1 e] at mem; cases mem
    | some p => exact lt_of_le_of_lt (le_last ordPre e mem) (by simpa [byKey] using last p e)
  constructor
  · rintro ⟨head, le⟩
    have ge : key k ≤ key y := by simpa [byKey] using first y head
    have le : key y ≤ key k := by simpa [byKey] using le
    exact ⟨.inr (List.mem_of_mem_head? head), le_antisymm le ge⟩
  · rintro ⟨mem | mem, same⟩
    · exact absurd same (ne_of_lt (ahead y mem))
    · cases e : post.head? with
      | none => rw [List.head?_eq_none_iff.1 e] at mem; cases mem
      | some q =>
        have ge : key k ≤ key q := by simpa [byKey] using first q e
        have le : key q ≤ key y := head_le ordPost e mem
        have eq : key q = key y := le_antisymm le (same ▸ ge)
        have : q = y := by
          cases post with
          | nil => cases e
          | cons a post =>
            cases e
            rcases List.mem_cons.1 mem with rfl | mem
            · rfl
            · exact absurd eq (ne_of_lt ((List.pairwise_cons.1 ordPost).1 _ mem))
        subst this
        exact ⟨rfl, by simp [byKey, same]⟩

/-- What is found has the key looked for, in any tree. -/
theorem find_same {key : α → κ} {k y : α} {t : SearchTree α} (found : find (byKey key) k t = some y) : key y = key k := by
  obtain ⟨ge, le⟩ := find_incomparable found
  have ge : key k ≤ key y := by simpa [byKey] using ge
  have le : key y ≤ key k := by simpa [byKey] using le
  exact le_antisymm le ge

/-- Only the key counts in what is looked for. -/
theorem find_key {key : α → κ} {k k' : α} (same : key k = key k') (t : SearchTree α) :
    find (byKey key) k t = find (byKey key) k' t := by
  unfold find
  generalize (none : Option α) = after
  induction t generalizing after with
  | leaf => simp only [findFrom, byKey, same]
  | node red l y r ihl ihr =>
    have here : byKey key y k = byKey key y k' := by simp only [byKey, same]
    rw [findFrom, findFrom, here, ihl, ihr]

theorem find_byKey_none {k : α} {t : SearchTree α} (h : Ordered key t) :
    find (byKey key) k t = none ↔ ∀ y ∈ t.toList, key y ≠ key k := by
  constructor
  · intro none y mem same
    rw [(find_byKey h).2 ⟨mem, same⟩] at none
    cases none
  · intro fresh
    cases e : find (byKey key) k t with
    | none => rfl
    | some y =>
      obtain ⟨mem, same⟩ := (find_byKey h).1 e
      exact absurd same (fresh y mem)

theorem insertAll_ordered (shape : Shape) (xs : List α) {t : SearchTree α} (h : Ordered key t) :
    Ordered key (insertAll shape (byKey key) t xs) := by
  induction xs generalizing t with
  | nil => exact h
  | cons x xs ih => exact ih (insert_byKey shape x h).1

/-- Of the insertions of a key the first counts. -/
theorem mem_insertAll (shape : Shape) (xs : List α) {t : SearchTree α} (h : Ordered key t) (y : α) :
    y ∈ (insertAll shape (byKey key) t xs).toList ↔
      y ∈ t.toList ∨ ∃ pre post, xs = pre ++ y :: post ∧
        (∀ z ∈ t.toList, key z ≠ key y) ∧ ∀ z ∈ pre, key z ≠ key y := by
  induction xs generalizing t with
  | nil => simp [insertAll]
  | cons x xs ih =>
    obtain ⟨ordered, mem⟩ := insert_byKey shape x h
    change y ∈ (insertAll shape (byKey key) (insert shape (byKey key) x t) xs).toList ↔ _
    rw [ih ordered, mem]
    constructor
    · rintro ((old | ⟨rfl, fresh⟩) | ⟨pre, post, rfl, inTree, inPre⟩)
      · exact .inl old
      · exact .inr ⟨[], xs, rfl, fresh, by simp⟩
      · refine .inr ⟨x :: pre, post, rfl, fun z hz => inTree z ((mem z).2 (.inl hz)), ?_⟩
        intro z hz
        rcases List.mem_cons.1 hz with rfl | hz
        · by_cases dup : ∀ w ∈ t.toList, key w ≠ key z
          · exact inTree z ((mem z).2 (.inr ⟨rfl, dup⟩))
          · push Not at dup
            obtain ⟨w, hw, same⟩ := dup
            rw [← same]
            exact inTree w ((mem w).2 (.inl hw))
        · exact inPre z hz
    · rintro (old | ⟨pre, post, e, inTree, inPre⟩)
      · exact .inl (.inl old)
      · cases pre with
        | nil =>
          obtain ⟨rfl, rfl⟩ := List.cons.inj e
          exact .inl (.inr ⟨rfl, inTree⟩)
        | cons w pre =>
          obtain ⟨rfl, rfl⟩ := List.cons.inj e
          refine .inr ⟨pre, post, rfl, fun z hz => ?_, fun z hz => inPre z (by simp [hz])⟩
          rcases (mem z).1 hz with hz | ⟨rfl, -⟩
          · exact inTree z hz
          · exact inPre z (by simp)

/-- Elements whose keys tell them apart are all kept. -/
theorem mem_insertAll_apart (shape : Shape) {xs : List α} (apart : ∀ a ∈ xs, ∀ b ∈ xs, key a = key b → a = b) (y : α) :
    y ∈ (insertAll shape (byKey key) leaf xs).toList ↔ y ∈ xs := by
  rw [mem_insertAll shape xs (ordered_leaf key)]
  constructor
  · rintro (none | ⟨pre, post, rfl, -⟩)
    · cases none
    · simp
  · intro mem
    obtain ⟨pre, post, rfl, first⟩ := List.eq_append_cons_of_mem mem
    refine .inr ⟨pre, post, rfl, by simp, fun z inPre same => first ?_⟩
    rwa [apart z (List.mem_append_left _ inPre) y mem same] at inPre

/-- What is found of the elements inserted is the first one of that key. -/
theorem find_insertAll [DecidableEq κ] (shape : Shape) (xs : List α) (k : α) :
    find (byKey key) k (insertAll shape (byKey key) leaf xs) = xs.find? fun x => decide (key x = key k) := by
  have ordered := insertAll_ordered shape xs (ordered_leaf key)
  cases found : xs.find? fun x => decide (key x = key k) with
  | none =>
    refine (find_byKey_none ordered).2 fun y mem => ?_
    simpa using List.find?_eq_none.1 found y ((mem_insertAll_cases shape mem).resolve_left List.not_mem_nil)
  | some y =>
    obtain ⟨same, pre, post, rfl, before⟩ := List.find?_eq_some_iff_append.1 found
    have same : key y = key k := by simpa using same
    refine (find_byKey ordered).2 ⟨?_, same⟩
    refine (mem_insertAll shape _ (ordered_leaf key) y).2 (.inr ⟨pre, post, rfl, List.forall_mem_nil _, fun z mem => ?_⟩)
    rw [same]
    simpa using before z mem

/-- The keys of the set are those of the elements inserted. -/
theorem mem_keys (shape : Shape) (xs : List α) (k : κ) :
    k ∈ (insertAll shape (byKey key) leaf xs).toList.map key ↔ k ∈ xs.map key := by
  constructor
  · intro mem
    obtain ⟨y, inSet, rfl⟩ := List.mem_map.1 mem
    exact List.mem_map_of_mem ((mem_insertAll_cases shape inSet).resolve_left List.not_mem_nil)
  · intro mem
    obtain ⟨x, inList, rfl⟩ := List.mem_map.1 mem
    have found : find (byKey key) x _ = _ := find_insertAll shape xs x
    obtain ⟨y, first⟩ : ∃ y, xs.find? (fun y => decide (key y = key x)) = some y :=
      Option.isSome_iff_exists.1 (List.find?_isSome.2 ⟨x, inList, by simp⟩)
    rw [first] at found
    obtain ⟨inSet, same⟩ := (find_byKey (insertAll_ordered shape xs (ordered_leaf key))).1 found
    exact same ▸ List.mem_map_of_mem inSet

/-- Sorted elements are those of the set in its order. -/
theorem Ordered.toList_eq {t : SearchTree α} (ordered : Ordered key t) {xs : List α}
    (sorted : xs.Pairwise fun a b => key a < key b) (same : ∀ y, y ∈ t.toList ↔ y ∈ xs) : t.toList = xs := by
  have nodup : ∀ {l : List α}, (l.Pairwise fun a b => key a < key b) → l.Nodup := fun h =>
    h.imp fun lt e => by
      rw [e] at lt
      exact lt_irrefl _ lt
  have perm := (List.perm_ext_iff_of_nodup (nodup ordered) (nodup sorted)).2 same
  exact perm.eq_of_pairwise (fun a b _ _ lt gt => absurd (lt_trans lt gt) (lt_irrefl _)) ordered sorted

/-- A set that has the key stays as it is. -/
theorem insert_existing (shape : Shape) {x : α} {t : SearchTree α} (h : Ordered key t)
    (has : ∃ y ∈ t.toList, key y = key x) : insert shape (byKey key) x t = t := by
  obtain ⟨pre, post, elements, -, -, result⟩ := attach_place (byKey key) x none t
  split at result
  · obtain ⟨t', run, elements'⟩ := result
    have now : (insert shape (byKey key) x t).toList = pre ++ x :: post := by
      rw [insert, run, shape.rebalance_toList, elements']
    obtain ⟨ordered, members⟩ := insert_byKey shape x h
    have same : (insert shape (byKey key) x t).toList = t.toList := by
      refine ordered.toList_eq h fun y => ?_
      rw [members]
      refine ⟨?_, .inl⟩
      rintro (mem | ⟨-, fresh⟩)
      · exact mem
      · obtain ⟨z, mem, equal⟩ := has
        exact absurd equal (fresh z mem)
    rw [now, elements] at same
    have lengths := congrArg List.length same
    simp only [List.length_append, List.length_cons] at lengths
    omega
  · rw [insert, result]

end Key

end Stl
