import Mathlib.Data.List.Infix
import Mathlib.Data.List.TakeWhile

/-!
# Keys in a text

A key is a word between two marks. A text is cut from left to right into keys and what
stands before each of them; a part is closed if no key starts in it, whatever follows.
-/

namespace Template
variable {α : Type} [DecidableEq α] (mark : α) (letter : α → Bool)

/-- A word of letters between two marks. -/
def IsKey (key : List α) : Prop := ∃ name, (∀ c ∈ name, letter c = true) ∧ key = mark :: (name ++ [mark])

/-- The key at the front of a text. -/
def keyAt : List α → Option (List α)
  | [] => none
  | c :: s =>
    if c = mark then
      match s.dropWhile letter with
      | [] => none
      | d :: _ => if d = mark then some (mark :: (s.takeWhile letter ++ [mark])) else none
    else none

/-- The keys of a text from left to right, each with what stands before it, and what stands
behind the last; `skip` letters belong to a key already. -/
def scanFrom : Nat → List α → List (List α × List α) × List α
  | _, [] => ([], [])
  | skip + 1, _ :: s => scanFrom skip s
  | 0, c :: s =>
    match keyAt mark letter (c :: s) with
    | some key =>
      let (l, rest) := scanFrom (key.length - 1) s
      (([], key) :: l, rest)
    | none =>
      match scanFrom 0 s with
      | ((text, key) :: l, rest) => ((c :: text, key) :: l, rest)
      | ([], rest) => ([], c :: rest)

def scan (s : List α) : List (List α × List α) × List α := scanFrom mark letter 0 s

/-- The text with a value in the place of each key, if each has one. -/
def expand (value : List α → Option (List α)) : List (List α × List α) → List α → Option (List α)
  | [], rest => some rest
  | (text, key) :: l, rest =>
    (value key).bind fun v => (expand value l rest).map fun s => text ++ (v ++ s)

/-- No key starts in the text, whatever follows it. -/
def Closed (a : List α) : Prop := ∀ x y b, a = x ++ y → y ≠ [] → keyAt mark letter (y ++ b) = none

/-- There is no key in the text. -/
def Free (s : List α) : Prop := ∀ x y, s = x ++ y → keyAt mark letter y = none

/-- A text cut at its keys. -/
inductive Pieces : List α → List (List α × List α) → List α → Prop
  | free {s : List α} (free : Free mark letter s) : Pieces s [] s
  | key {text key t rest : List α} {l : List (List α × List α)} (closed : Closed mark letter text)
      (word : IsKey mark letter key) (later : Pieces t l rest) : Pieces (text ++ (key ++ t)) ((text, key) :: l) rest

variable {mark : α} {letter : α → Bool}

theorem keyAt_cons (c : α) (s : List α) : keyAt mark letter (c :: s) =
    if c = mark then
      match s.dropWhile letter with
      | [] => none
      | d :: _ => if d = mark then some (mark :: (s.takeWhile letter ++ [mark])) else none
    else none := rfl

section Keys
variable (plain : letter mark = false) {key s : List α}
include plain

theorem keyAt_iff : keyAt mark letter s = some key ↔ IsKey mark letter key ∧ key <+: s := by
  constructor
  · intro found
    cases s with
    | nil => cases found
    | cons c s =>
      rw [keyAt_cons] at found
      split at found
      · rename_i same
        subst same
        cases behind : s.dropWhile letter with
        | nil =>
          rw [behind] at found
          cases found
        | cons d t =>
          rw [behind] at found
          simp only at found
          split at found
          · rename_i same
            subst same
            cases found
            refine ⟨⟨s.takeWhile letter, fun c mem => List.mem_takeWhile_imp mem, rfl⟩, t, ?_⟩
            have whole := List.takeWhile_append_dropWhile (p := letter) (l := s)
            rw [behind] at whole
            rw [List.cons_append, List.append_assoc, List.singleton_append, whole]
          · cases found
      · cases found
  · rintro ⟨⟨name, letters, rfl⟩, t, rfl⟩
    rw [List.cons_append, List.append_assoc, List.singleton_append]
    have drop : (name ++ mark :: t).dropWhile letter = mark :: t := by
      rw [List.dropWhile_append_of_pos letters, List.dropWhile_cons_of_neg (by simp [plain])]
    have take : (name ++ mark :: t).takeWhile letter = name := by
      rw [List.takeWhile_append_of_pos letters, List.takeWhile_cons_of_neg (by simp [plain]), List.append_nil]
    rw [keyAt_cons, if_pos rfl, drop]
    dsimp only
    rw [if_pos rfl, take]

theorem keyAt_append (found : keyAt mark letter s = some key) (b : List α) : keyAt mark letter (s ++ b) = some key := by
  obtain ⟨word, front⟩ := (keyAt_iff plain).1 found
  exact (keyAt_iff plain).2 ⟨word, front.trans (List.prefix_append s b)⟩

theorem IsKey.at (word : IsKey mark letter key) (t : List α) : keyAt mark letter (key ++ t) = some key :=
  (keyAt_iff plain).2 ⟨word, List.prefix_append key t⟩

theorem IsKey.count (word : IsKey mark letter key) : key.count mark = 2 := by
  obtain ⟨name, letters, rfl⟩ := word
  have none' : name.count mark = 0 := by
    rw [List.count_eq_zero]
    intro mem
    rw [letters mark mem] at plain
    cases plain
  rw [List.count_cons_self, List.count_append, none', List.count_singleton_self]

end Keys

theorem keyAt_of_ne {c : α} (ne : c ≠ mark) (s : List α) : keyAt mark letter (c :: s) = none := by
  rw [keyAt_cons, if_neg ne]

/-! ## Texts without keys -/

theorem closed_nil : Closed mark letter [] := by
  intro x y b same ne
  exact absurd (List.append_eq_nil_iff.1 same.symm).2 ne

theorem closed_of_unmarked {a : List α} (unmarked : mark ∉ a) : Closed mark letter a := by
  rintro x y b rfl ne
  cases y with
  | nil => exact absurd rfl ne
  | cons c y => exact keyAt_of_ne (fun same => unmarked (by simp [same])) (y ++ b)

theorem Closed.append {a b : List α} (ha : Closed mark letter a) (hb : Closed mark letter b) : Closed mark letter (a ++ b) := by
  intro x y s same ne
  rcases List.append_eq_append_iff.1 same with ⟨u, rfl, rfl⟩ | ⟨u, rfl, rfl⟩
  · exact hb u y s rfl ne
  · cases u with
    | nil => exact hb [] b s rfl ne
    | cons c u =>
      rw [List.append_assoc]
      exact ha x (c :: u) (b ++ s) rfl (by simp)

theorem Closed.free {a s : List α} (closed : Closed mark letter a) (free : Free mark letter s) : Free mark letter (a ++ s) := by
  intro x y same
  rcases List.append_eq_append_iff.1 same with ⟨u, rfl, rfl⟩ | ⟨u, rfl, rfl⟩
  · exact free u y rfl
  · cases u with
    | nil => exact free [] s rfl
    | cons c u => exact closed x (c :: u) s rfl (by simp)

theorem free_nil : Free mark letter [] := by
  intro x y same
  rw [(List.append_eq_nil_iff.1 same.symm).2]
  rfl

section Cuts
variable (plain : letter mark = false)
include plain

theorem Free.front {s s' : List α} (free : Free mark letter s) (front : s' <+: s) : Free mark letter s' := by
  obtain ⟨b, rfl⟩ := front
  rintro x y rfl
  cases found : keyAt mark letter y with
  | none => rfl
  | some key =>
    have := free x (y ++ b) (List.append_assoc x y b)
    rw [keyAt_append plain found] at this
    cases this

/-- Where no key starts in front of a key, none starts there whatever follows. -/
theorem Closed.cons {c : α} {text key t : List α} (none' : keyAt mark letter (c :: (text ++ (key ++ t))) = none)
    (closed : Closed mark letter text) (word : IsKey mark letter key) : Closed mark letter (c :: text) := by
  intro x y b same ne
  cases x with
  | cons d x => exact closed x y b (List.cons.inj same).2 ne
  | nil =>
    obtain rfl : c :: text = y := same
    cases found : keyAt mark letter (c :: text ++ b) with
    | none => rfl
    | some k =>
      obtain ⟨⟨name, letters, rfl⟩, front⟩ := (keyAt_iff plain).1 found
      obtain ⟨rfl, behind⟩ : mark = c ∧ name ++ [mark] <+: text ++ b := List.cons_prefix_cons.1 front
      -- the second mark stands in the text, or the text is part of the name
      rcases List.prefix_or_prefix_of_prefix behind (List.prefix_append text b) with inside | outside
      · have there : keyAt mark letter (mark :: (text ++ (key ++ t))) = some (mark :: (name ++ [mark])) :=
          (keyAt_iff plain).2 ⟨⟨name, letters, rfl⟩, List.cons_prefix_cons.2 ⟨rfl, inside.trans (List.prefix_append _ _)⟩⟩
        rw [there] at none'
        cases none'
      · rcases List.prefix_concat_iff.1 outside with rfl | outside
        · have there : keyAt mark letter (mark :: (name ++ [mark] ++ (key ++ t))) = some (mark :: (name ++ [mark])) :=
            (keyAt_iff plain).2 ⟨⟨name, letters, rfl⟩, List.cons_prefix_cons.2 ⟨rfl, List.prefix_append _ _⟩⟩
          rw [there] at none'
          cases none'
        · obtain ⟨name', -, rfl⟩ := word
          have text_letters : ∀ c ∈ text, letter c = true := fun c mem => letters c (outside.subset mem)
          have there : keyAt mark letter (mark :: (text ++ (mark :: (name' ++ [mark]) ++ t))) = some (mark :: (text ++ [mark])) := by
            refine (keyAt_iff plain).2 ⟨⟨text, text_letters, rfl⟩, List.cons_prefix_cons.2 ⟨rfl, name' ++ [mark] ++ t, ?_⟩⟩
            simp
          rw [there] at none'
          cases none'

/-- A key that is cut off at its end is none. -/
theorem free_of_cut {text key : List α} (closed : Closed mark letter text) (word : IsKey mark letter key) {n : Nat}
    (cut : n < text.length + key.length) : Free mark letter ((text ++ key).take n) := by
  intro x y same
  cases found : keyAt mark letter y with
  | none => rfl
  | some k =>
    exfalso
    obtain ⟨other, y', rfl⟩ := (keyAt_iff plain).1 found
    have whole : text ++ key = x ++ (k ++ y' ++ (text ++ key).drop n) := by
      rw [← List.append_assoc, ← same, List.take_append_drop]
    have last : mark ∈ (text ++ key).drop n := by
      obtain ⟨name, -, rfl⟩ := word
      rw [show text ++ mark :: (name ++ [mark]) = text ++ mark :: name ++ [mark] by simp, List.drop_append_of_le_length]
      · simp
      · simp only [List.length_append, List.length_cons, List.length_nil] at cut ⊢
        omega
    -- a key inside the key would leave no mark for what was cut off
    have inside {u : List α} (rest : key = u ++ (k ++ y' ++ (text ++ key).drop n)) : False := by
      have marks := congrArg (List.count mark) rest
      have more := List.count_pos_iff.2 last
      simp only [List.count_append, IsKey.count plain word, IsKey.count plain other] at marks more
      omega
    rcases List.append_eq_append_iff.1 whole with ⟨u, -, rest⟩ | ⟨u, front, rest⟩
    · exact inside rest
    · cases u with
      | nil => exact inside (rest.symm.trans (List.nil_append _).symm)
      | cons c u =>
        have here := closed x (c :: u) key front (by simp)
        rw [← rest, List.append_assoc, IsKey.at plain other] at here
        cases here

/-! ## The scan -/

omit plain in
theorem scanFrom_skip (skip : Nat) (s : List α) : scanFrom mark letter skip s = scan mark letter (s.drop skip) := by
  induction s generalizing skip with
  | nil => cases skip <;> rfl
  | cons c s ih =>
    cases skip with
    | zero => rfl
    | succ skip => exact ih skip

omit plain in
theorem scan_cons (c : α) (s : List α) : scan mark letter (c :: s) =
    match keyAt mark letter (c :: s) with
    | some key => (([], key) :: (scanFrom mark letter (key.length - 1) s).1, (scanFrom mark letter (key.length - 1) s).2)
    | none =>
      match scan mark letter s with
      | ((text, key) :: l, rest) => ((c :: text, key) :: l, rest)
      | ([], rest) => ([], c :: rest) := by
  unfold scan
  rw [scanFrom]

theorem scan_pieces (s : List α) : Pieces mark letter s (scan mark letter s).1 (scan mark letter s).2 := by
  induction length : s.length using Nat.strong_induction_on generalizing s with
  | _ n ih =>
    cases s with
    | nil => exact .free free_nil
    | cons c s =>
      rw [List.length_cons] at length
      cases found : keyAt mark letter (c :: s) with
      | some key =>
        obtain ⟨word, t, whole⟩ := (keyAt_iff plain).1 found
        obtain ⟨name, letters, rfl⟩ := word
        obtain ⟨rfl, rfl⟩ : mark = c ∧ name ++ [mark] ++ t = s := List.cons.inj whole
        have skip : scanFrom mark letter (name.length + 1) (name ++ [mark] ++ t) = scan mark letter t := by
          rw [scanFrom_skip, List.drop_left' (by simp)]
        have result : scan mark letter (mark :: (name ++ [mark] ++ t)) =
            (([], mark :: (name ++ [mark])) :: (scan mark letter t).1, (scan mark letter t).2) := by
          have size : (mark :: (name ++ [mark])).length - 1 = name.length + 1 := by simp
          rw [scan_cons, found]
          dsimp only
          rw [size, skip]
        rw [result]
        have later := ih t.length (by simp at length; omega) t rfl
        exact .key closed_nil ⟨name, letters, rfl⟩ later
      | none =>
        have later := ih s.length (by omega) s rfl
        have result : scan mark letter (c :: s) = match scan mark letter s with
            | ((text, key) :: l, rest) => ((c :: text, key) :: l, rest)
            | ([], rest) => ([], c :: rest) := by
          rw [scan_cons, found]
        rw [result]
        generalize scan mark letter s = pieces at later
        obtain ⟨l, rest⟩ := pieces
        cases later with
        | free free =>
          refine .free fun x y same => ?_
          cases x with
          | nil =>
            rw [← show c :: rest = y from same]
            exact found
          | cons d x => exact free x y (List.cons.inj same).2
        | key closed word later => exact .key (Closed.cons plain found closed word) word later

end Cuts

end Template
