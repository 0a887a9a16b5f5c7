import SqlHandler.Container.AttributeLists
import SqlHandler.Container.Noticed
import Mathlib.Data.List.Nodup

/-!
# Texts in front of columns

A text in front of a part of `[select]` is not noticed if and only if it is made of commas and
spaces behind them (`Gap`). The other texts are noticed in front of names that are longer than
they are: an item that stands in the text is loaded, or it stays and the name behind one of the
next items is lost with it.
-/

namespace SqlHandler
open Posix Text Stl

/-- Commas, and spaces behind them. -/
def Gap (a : Str) : Prop := ∃ k sp, a = List.replicate k ',' ++ sp ∧ ∀ c ∈ sp, c = ' '

/-! ## The scan behind items that are not taken -/

section Scan
variable {α : Type} {read : α → Str} {blocked : Bool} {gaps : Nat} {l rest : List α} {x : α}

/-- Empty items count only behind one that was left. -/
theorem scan_gaps : scan read false gaps l = scan read false 0 l := by
  induction l generalizing gaps with
  | nil => simp [scan]
  | cons x l ih =>
    by_cases taken : Taken (read x)
    · rw [scan_free taken (by simp), scan_free taken (by simp), ih, @ih (0 - 1)]
    · by_cases empty : read x = []
      · rw [scan_gap empty, scan_gap empty, ih, @ih (0 + 1)]
      · rw [scan_block taken empty, scan_block taken empty]

variable (read blocked gaps rest) in
/-- An item that is taken comes first. -/
theorem scan_head (taken : Taken (read x)) : ∃ more, scan read blocked gaps (x :: rest) = x :: more := by
  by_cases lost : blocked = true ∧ gaps = 0
  · obtain ⟨rfl, rfl⟩ := lost
    cases rest with
    | nil => exact ⟨[], scan_last taken⟩
    | cons y rest => exact ⟨_, scan_lost taken⟩
  · exact ⟨_, scan_free taken lost⟩

variable (read blocked gaps rest) in
theorem scan_early (some : ∃ b ∈ l, Taken (read b)) : ∃ b ∈ l, ∃ more, scan read blocked gaps (l ++ rest) = b :: more := by
  induction l generalizing blocked gaps with
  | nil =>
    obtain ⟨b, mem, -⟩ := some
    cases mem
  | cons y l ih =>
    by_cases taken : Taken (read y)
    · exact ⟨y, List.mem_cons_self, scan_head read blocked gaps _ taken⟩
    · have behind : ∃ b ∈ l, Taken (read b) := by
        obtain ⟨b, mem, here⟩ := some
        rcases List.mem_cons.1 mem with rfl | mem
        · exact absurd here taken
        · exact ⟨b, mem, here⟩
      rw [List.cons_append]
      by_cases empty : read y = []
      · obtain ⟨b, mem, more⟩ := ih blocked (gaps + 1) behind
        rw [scan_gap empty]
        exact ⟨b, List.mem_cons_of_mem _ mem, more⟩
      · obtain ⟨b, mem, more⟩ := ih true 0 behind
        rw [scan_block taken empty]
        exact ⟨b, List.mem_cons_of_mem _ mem, more⟩

variable (read blocked gaps rest) in
/-- Behind items that are not taken: one that is not empty blocks. -/
theorem scan_past (untaken : ∀ b ∈ l, ¬ Taken (read b)) : ∃ blocked' gaps', gaps' ≤ gaps + l.length ∧
    (blocked = true ∨ (∃ b ∈ l, read b ≠ []) → blocked' = true) ∧
      scan read blocked gaps (l ++ rest) = scan read blocked' gaps' rest := by
  induction l generalizing blocked gaps with
  | nil =>
    refine ⟨blocked, gaps, Nat.le_refl _, ?_, rfl⟩
    rintro (kept | ⟨b, mem, -⟩)
    · exact kept
    · cases mem
  | cons y l ih =>
    have others : ∀ b ∈ l, ¬ Taken (read b) := fun b mem => untaken b (List.mem_cons_of_mem _ mem)
    rw [List.cons_append]
    by_cases empty : read y = []
    · obtain ⟨blocked', gaps', le, blocks, same⟩ := ih blocked (gaps + 1) others
      refine ⟨blocked', gaps', by rw [List.length_cons]; omega, ?_, by rw [scan_gap empty, same]⟩
      rintro (kept | ⟨b, mem, ne⟩)
      · exact blocks (.inl kept)
      · rcases List.mem_cons.1 mem with rfl | mem
        · exact absurd empty ne
        · exact blocks (.inr ⟨b, mem, ne⟩)
    · obtain ⟨blocked', gaps', le, blocks, same⟩ := ih true 0 others
      refine ⟨blocked', gaps', by rw [List.length_cons]; omega, fun _ => blocks (.inl rfl), ?_⟩
      rw [scan_block (untaken y List.mem_cons_self) empty, same]

/-- Only items are recognised. -/
theorem scan_part (mem : x ∈ scan read blocked gaps l) : x ∈ l := (scan_sublist (Nat.le_refl _)).1.subset mem

theorem scan_all (taken : ∀ y ∈ l, Taken (read y)) : scan read false 0 l = l := by
  induction l with
  | nil => simp [scan]
  | cons x l ih =>
    rw [scan_free (taken x List.mem_cons_self) (by simp), ih fun y mem => taken y (List.mem_cons_of_mem _ mem)]

variable (read gaps) in
/-- Behind an item that was left one of the next items is lost. -/
theorem scan_short (taken : ∀ y ∈ l, Taken (read y)) (long : gaps + 2 ≤ l.length) :
    (scan read true gaps l).length < l.length := by
  induction gaps generalizing l with
  | zero =>
    match l, long with
    | x :: y :: rest, _ =>
      rw [scan_lost (taken x List.mem_cons_self)]
      have le : (scan read true 0 rest).length ≤ rest.length := (scan_sublist (Nat.le_refl _)).1.length_le
      simp only [List.length_cons]
      omega
  | succ gaps ih =>
    obtain ⟨x, rest, rfl⟩ := List.exists_cons_of_length_pos (l := l) (by omega)
    rw [scan_free (taken x List.mem_cons_self) (by simp)]
    have shorter := ih (fun y mem => taken y (List.mem_cons_of_mem _ mem)) (by
      rw [List.length_cons] at long
      omega)
    simp only [List.length_cons, Nat.add_sub_cancel]
    omega

end Scan

/-! ## Blanks in front of an item -/

theorem taken_behind {sp x : Str} (blanks : ∀ c ∈ sp, c = ' ') (ne : x ≠ []) : Taken (sp ++ x) ↔ Taken x := by
  have none : sp.filter (· != ' ') = [] := by
    rw [List.filter_eq_nil_iff]
    intro c mem
    simp [blanks c mem]
  rw [taken_iff, taken_iff, List.filter_append, none, List.nil_append]
  constructor
  · rintro (⟨-, letters⟩ | star)
    · exact .inl ⟨ne, fun c mem => letters c (List.mem_append_right _ mem)⟩
    · exact .inr star
  · rintro (⟨-, letters⟩ | star)
    · refine .inl ⟨by simp [ne], fun c mem => ?_⟩
      rcases List.mem_append.1 mem with mem | mem
      · rw [blanks c mem, attrChar_space]
      · exact letters c mem
    · exact .inr star

theorem itemSpan_behind {sp x : Str} (blanks : ∀ c ∈ sp, c = ' ') (ne : x ≠ []) :
    itemSpan (sp ++ x) = ⟨sp.length + (itemSpan x).so, sp.length + (itemSpan x).eo⟩ := by
  have skip : ∀ c ∈ sp, (c == ' ') = true := fun c mem => by simp [blanks c mem]
  have positive := List.length_pos_iff.2 ne
  unfold itemSpan
  rw [List.takeWhile_append_of_pos skip, List.length_append, List.length_append]
  generalize (x.takeWhile (· == ' ')).length = lead
  dsimp only
  by_cases all : lead = x.length
  · rw [if_pos (by omega), if_pos all]
    simp only [Span.mk.injEq, and_true]
    omega
  · rw [if_neg (by omega), if_neg all, List.getElem?_append_right (Nat.le_add_right _ _), Nat.add_sub_cancel_left]
    by_cases star : x[lead]? = some '*'
    · rw [if_pos star, if_pos star]
      simp [Nat.add_assoc]
    · rw [if_neg star, if_neg star]

theorem itemText_behind {sp x : Text} (blanks : ∀ c ∈ sp.str, c = ' ') (ne : x ≠ []) : itemText (sp ++ x) = itemText x := by
  unfold itemText
  rw [str_append, itemSpan_behind blanks (mt str_eq_nil.1 ne), str_length]
  have order : (itemSpan x.str).so ≤ (itemSpan x.str).eo := by
    have le : (x.str.takeWhile (· == ' ')).length ≤ x.str.length := (List.takeWhile_prefix _).length_le
    unfold itemSpan
    dsimp only
    split
    · simp
    · split
      · simp
      · exact le
  obtain ⟨b, hb⟩ := Nat.exists_eq_add_of_le order
  rw [hb, ← Nat.add_assoc, substr_behind, ← hb]

/-! ## Gaps are not noticed -/

theorem gap_items {k : Nat} {sp t x : Text} {rest : List Text} (blanks : ∀ c ∈ sp.str, c = ' ') (parts : items t = x :: rest)
    {commas : Text} (shape : commas.str = List.replicate k ',') :
    items (commas ++ sp ++ t) = List.replicate k [] ++ (sp ++ x) :: rest := by
  induction k generalizing commas with
  | zero =>
    obtain rfl : commas = [] := str_eq_nil.1 shape
    have one : items sp = [sp] := by
      refine List.splitOnP_eq_singleton fun c mem => ?_
      have blank : c.char = ' ' := blanks c.char (List.mem_map_of_mem mem)
      simp [comma, blank]
    exact split_glue (l := []) one parts
  | succ k ih =>
    cases commas with
    | nil => cases shape
    | cons c commas =>
      obtain ⟨first, rest'⟩ := List.cons.inj shape
      have sep : comma c.char = true := by
        rw [show c.char = ',' from first]
        rfl
      unfold items at ih ⊢
      rw [List.cons_append, List.cons_append, List.splitOnP_cons_eq_if_modifyHead, if_pos sep, ih rest']
      rfl

theorem recognised_gap {a t : Text} {c : Letter} (gap : Gap a.str) (blank : c.char = ' ') :
    recognised (a ++ c :: t) = recognised (c :: t) := by
  obtain ⟨k, sp', split, blanks⟩ := gap
  obtain ⟨commas, sp, rfl, shape, rfl⟩ := List.map_eq_append_iff.1 split
  have letters : ∀ d ∈ commas ++ sp, d.char ≠ Char.ofNat 0 := by
    intro d mem
    have mem' : d.char ∈ List.replicate k ',' ++ Text.str sp := by
      rw [← shape]
      exact List.map_append ▸ List.mem_map_of_mem mem
    rcases List.mem_append.1 mem' with mem | mem
    · rw [List.eq_of_mem_replicate mem]
      decide
    · rw [blanks _ mem]
      decide
  have read : Text.upToNul (commas ++ sp ++ c :: t) = commas ++ sp ++ Text.upToNul (c :: t) := by
    unfold Text.upToNul
    rw [List.takeWhile_append_of_pos]
    intro d mem
    simpa using letters d mem
  have front : Text.upToNul (c :: t) = c :: t.upToNul := by
    unfold Text.upToNul
    rw [List.takeWhile_cons_of_pos]
    rw [blank]
    decide
  obtain ⟨u, rest, parts⟩ : ∃ u r, items (c :: t.upToNul) = (c :: u) :: r := split_cons (by
    rw [blank]
    decide)
  unfold recognised
  rw [read, front, gap_items blanks parts shape, parts]
  have empty : ∀ {k : Nat} {l : List Text}, scan str false 0 (List.replicate k [] ++ l) = scan str false 0 l := by
    intro k l
    induction k with
    | zero => rfl
    | succ k ih => rw [List.replicate_succ, List.cons_append, scan_gap rfl, scan_gaps, ih]
  have ne : c :: u ≠ [] := List.cons_ne_nil c u
  rw [empty]
  by_cases taken : Taken (str (c :: u))
  · have taken' : Taken (str (sp ++ c :: u)) := by
      rw [str_append]
      exact (taken_behind blanks (mt str_eq_nil.1 ne)).2 taken
    rw [scan_free taken (by simp), scan_free taken' (by simp), List.map_cons, List.map_cons, itemText_behind blanks ne]
  · have untaken : ¬ Taken (str (sp ++ c :: u)) := by
      rw [str_append]
      exact mt (taken_behind blanks (mt str_eq_nil.1 ne)).1 taken
    rw [scan_block taken (mt str_eq_nil.1 ne), scan_block untaken (mt str_eq_nil.1 (by simp))]

/-! ## Names in front of which other texts are noticed -/

/-- The text an item is recognised by, of letters. -/
def itemStr (x : Str) : Str := (itemSpan x).text x

theorem recognised_str (row : Text) :
    (recognised row).map str = (scan (fun x => x) false 0 (row.cStr.splitOnP comma)).map itemStr := by
  unfold recognised
  rw [cStr_upToNul, ← items_str, scan_map (f := str) (fun _ => rfl) (Nat.le_refl _), List.map_map,
    List.map_map]
  refine List.map_congr_left fun x _ => ?_
  simp only [Function.comp_apply, itemText, str_substr, itemStr]

theorem itemStr_length (x : Str) : (itemStr x).length ≤ x.length := by
  unfold itemStr Span.text
  rw [List.length_take, List.length_drop]
  omega

/-- The text of an item behind its spaces. -/
theorem itemStr_behind {sp y : Str} (blanks : ∀ c ∈ sp, c = ' ') {c : Char} {rest : Str} (begins : y = c :: rest) (letter : c ≠ ' ') :
    itemStr (sp ++ y) = if c = '*' then ['*'] else y := by
  subst begins
  have lead : (sp ++ c :: rest).takeWhile (· == ' ') = sp := lead_of blanks (by simpa using letter)
  unfold itemStr itemSpan
  rw [lead]
  dsimp only
  rw [if_neg (by simp), List.getElem?_append_right (Nat.le_refl _), Nat.sub_self, List.getElem?_cons_zero]
  by_cases star : c = '*'
  · rw [if_pos (by rw [star]), if_pos star, star]
    simp [Span.text]
  · rw [if_neg (by simpa using star), if_neg star]
    simp [Span.text]

variable {n m : Nat}

/-- Names of different lengths, all longer than `n`. -/
def longNames (n m : Nat) : List Str := (List.range m).map fun i => longName (n + i)

theorem longNames_mem {x : Str} (mem : x ∈ longNames n m) : n < x.length ∧ x ≠ [] ∧ ∀ c ∈ x, c = 'n' := by
  obtain ⟨i, -, rfl⟩ := List.mem_map.1 mem
  refine ⟨?_, longName_ne, fun c inside => longName_mem inside⟩
  rw [longName_length]
  omega

theorem longNames_nodup : (longNames n m).Nodup := by
  refine List.Nodup.map ?_ List.nodup_range
  intro i j same
  have := congrArg List.length same
  rw [longName_length, longName_length] at this
  omega

theorem longNames_length : (longNames n m).length = m := by rw [longNames, List.length_map, List.length_range]

/-- The first name, and the others. -/
theorem longNames_cons : ∃ others, longNames n (m + 1) = longName n :: others ∧ others.length = m := by
  unfold longNames
  rw [List.range_succ_eq_map, List.map_cons]
  exact ⟨_, rfl, by simp⟩

/-- A name is an item. -/
theorem name_taken {x : Str} (sp : Str) (blanks : ∀ c ∈ sp, c = ' ') (ne : x ≠ []) (letters : ∀ c ∈ x, c = 'n') :
    Taken (sp ++ x) ∧ itemStr (sp ++ x) = x := by
  obtain ⟨c, rest, rfl⟩ := List.exists_cons_of_ne_nil ne
  have first : c = 'n' := letters c List.mem_cons_self
  constructor
  · rw [taken_behind blanks ne, taken_iff]
    refine .inl ⟨ne, fun d mem => ?_⟩
    rw [letters d mem]
    decide
  · rw [itemStr_behind blanks rfl (by rw [first]; decide), if_neg (by rw [first]; decide)]

/-- The row of the names. -/
def namesRow (n m : Nat) : Str := [','].intercalate (longNames n m)

theorem namesRow_items : ∃ others, longNames n (m + 1) = longName n :: others ∧ others.length = m ∧
    (' ' :: namesRow n (m + 1)).splitOnP comma = (' ' :: longName n) :: others := by
  obtain ⟨others, names, length⟩ := longNames_cons (n := n) (m := m)
  refine ⟨others, names, length, ?_⟩
  have joined : ' ' :: namesRow n (m + 1) = [','].intercalate ((' ' :: longName n) :: others) := by
    rw [namesRow, names]
    cases others <;> simp [List.intercalate, List.intersperse]
  rw [joined]
  refine List.splitOn_intercalate ',' ?_ (List.cons_ne_nil _ _)
  intro x mem comma'
  rcases List.mem_cons.1 mem with rfl | mem
  · rcases List.mem_cons.1 comma' with same | inside
    · exact absurd same (by decide)
    · exact absurd (longName_mem inside) (by decide)
  · have letter := (longNames_mem (n := n) (m := m + 1) (by rw [names]; exact List.mem_cons_of_mem _ mem)).2.2 _ comma'
    exact absurd letter (by decide)

theorem namesRow_letter {c : Char} (mem : c ∈ namesRow n m) : c = 'n' ∨ c = ',' := by
  unfold namesRow at mem
  generalize all : longNames n m = l at mem
  have letters : ∀ x ∈ l, ∀ c ∈ x, c = 'n' := fun x inList => (longNames_mem (all ▸ inList)).2.2
  clear all
  induction l with
  | nil => cases mem
  | cons x l ih =>
    cases l with
    | nil =>
      left
      exact letters x List.mem_cons_self c (by simpa [List.intercalate, List.intersperse] using mem)
    | cons y l =>
      have parts : [','].intercalate (x :: y :: l) = x ++ ',' :: [','].intercalate (y :: l) := by
        simp [List.intercalate, List.intersperse]
      rw [parts] at mem
      rcases List.mem_append.1 mem with mem | mem
      · exact .inl (letters x List.mem_cons_self c mem)
      · rcases List.mem_cons.1 mem with rfl | mem
        · exact .inr rfl
        · exact ih mem fun z inList => letters z (List.mem_cons_of_mem _ inList)

theorem namesRow_ne : namesRow n (m + 1) ≠ [] := by
  obtain ⟨others, names, -⟩ := longNames_cons (n := n) (m := m)
  rw [namesRow, names]
  cases others <;> simp [List.intercalate, List.intersperse, longName]

theorem namesRow_read {row : Text} (shape : row.str = ' ' :: namesRow n m) : row.cStr = ' ' :: namesRow n m := by
  rw [cStr_of_noNul, shape]
  rw [shape]
  intro mem
  rcases List.mem_cons.1 mem with same | mem
  · exact absurd same (by decide)
  · rcases namesRow_letter mem with same | same
    · exact absurd same (by decide)
    · exact absurd same (by decide)

/-- The names of a row are recognised. -/
theorem namesRow_recognised {row : Text} (shape : row.str = ' ' :: namesRow n (m + 1)) :
    (recognised row).map str = longNames n (m + 1) := by
  obtain ⟨others, names, -, parts⟩ := namesRow_items (n := n) (m := m)
  have item : ∀ x ∈ others, Taken x ∧ itemStr x = x := by
    intro x mem
    obtain ⟨-, ne, letters⟩ := longNames_mem (n := n) (m := m + 1) (by rw [names]; exact List.mem_cons_of_mem _ mem)
    exact name_taken [] (List.forall_mem_nil _) ne letters
  have first : Taken (' ' :: longName n) ∧ itemStr (' ' :: longName n) = longName n :=
    name_taken [' '] (List.forall_mem_singleton.2 rfl) longName_ne fun c mem => longName_mem mem
  rw [recognised_str, namesRow_read shape, parts, scan_all, List.map_cons, first.2, names, List.map_congr_left fun x mem => (item x mem).2,
    List.map_id']
  intro x mem
  rcases List.mem_cons.1 mem with rfl | mem
  · exact first.1
  · exact (item x mem).1

/-- What stands in front of a word is blank if it leaves no trace in the item of the word. -/
theorem blank_of_item {u name : Str} (letters : ∀ c ∈ itemStr (u ++ ' ' :: name), c ≠ ' ' ∧ c ≠ '*') : ∀ c ∈ u, c = ' ' := by
  have split := List.takeWhile_append_dropWhile (p := (· == ' ')) (l := u)
  have spaces : ∀ c ∈ u.takeWhile (· == ' '), c = ' ' := fun c mem => by simpa using List.mem_takeWhile_imp mem
  cases behind : u.dropWhile (· == ' ') with
  | nil =>
    rw [behind, List.append_nil] at split
    rw [← split]
    exact spaces
  | cons c rest =>
    exfalso
    have letter : c ≠ ' ' := by
      have := List.head_dropWhile_not (· == ' ') (l := u) (by rw [behind]; simp)
      simpa only [behind, List.head_cons, beq_eq_false_iff_ne, ne_eq] using this
    rw [behind] at split
    have text : itemStr (u ++ ' ' :: name) = if c = '*' then ['*'] else c :: (rest ++ ' ' :: name) := by
      rw [← itemStr_behind (y := c :: (rest ++ ' ' :: name)) spaces rfl letter]
      conv_lhs => rw [← split]
      simp
    rw [text] at letters
    split_ifs at letters
    · exact (letters '*' List.mem_cons_self).2 rfl
    · exact (letters ' ' (by simp)).1 rfl

/-- Empty items are the commas behind them. -/
theorem intercalate_empty {l : List Str} (empty : ∀ b ∈ l, b = []) (u : Str) :
    [','].intercalate (l ++ [u]) = List.replicate l.length ',' ++ u := by
  induction l with
  | nil => simp [List.intercalate]
  | cons b l ih =>
    obtain rfl := empty b List.mem_cons_self
    have rest := ih fun b mem => empty b (List.mem_cons_of_mem _ mem)
    rw [List.length_cons, List.replicate_succ, List.cons_append, List.cons_append, ← rest]
    cases l <;> simp [List.intercalate, List.intersperse]

/-- Behind another text the names are not all recognised, or an item of it is. -/
theorem gap_of_names {a : Str} (m : Nat) (length : a.length + 1 ≤ m)
    (all : ∀ x ∈ longNames a.length (m + 1), x ∈ (scan (fun x => x) false 0
      ((a ++ ' ' :: namesRow a.length (m + 1)).splitOnP comma)).map itemStr)
    (first : ∀ x ∈ ((scan (fun x => x) false 0 ((a ++ ' ' :: namesRow a.length (m + 1)).splitOnP comma)).map itemStr).head?,
      x ∈ longNames a.length (m + 1)) : Gap a := by
  obtain ⟨others, names, count, items'⟩ := namesRow_items (n := a.length) (m := m)
  have parts := List.dropLast_append_getLast (List.splitOnP_ne_nil comma a)
  have whole : [','].intercalate (a.splitOnP comma) = a := List.intercalate_splitOn ','
  have shorter : ∀ b ∈ a.splitOnP comma, b.length ≤ a.length := by
    intro b mem
    exact (part_sublist mem).length_le
  have commas : (a.splitOnP comma).length ≤ a.length + 1 := split_length a
  generalize (a.splitOnP comma).dropLast = l, (a.splitOnP comma).getLast (List.splitOnP_ne_nil comma a) = u at parts
  have glued := split_glue parts.symm items'
  rw [← parts] at shorter commas
  rw [glued] at all first
  have fewer : ∀ {k : List Str}, (∀ x ∈ longNames a.length (m + 1), x ∈ k.map itemStr) → m + 1 ≤ k.length := by
    intro k inside
    have le := (longNames_nodup (n := a.length) (m := m + 1)).length_le_of_subset inside
    rwa [longNames_length, List.length_map] at le
  have onNames : ∀ y ∈ others, Taken y ∧ itemStr y = y := by
    intro y mem
    obtain ⟨-, ne, letters⟩ := longNames_mem (n := a.length) (m := m + 1) (by rw [names]; exact List.mem_cons_of_mem _ mem)
    exact name_taken [] (List.forall_mem_nil _) ne letters
  -- no item of the text is taken
  have untaken : ∀ b ∈ l, ¬ Taken b := by
    intro b mem taken
    obtain ⟨b', mem', more, head⟩ := scan_early (fun x : Str => x) false 0
      ((u ++ ' ' :: longName a.length) :: others) ⟨b, mem, taken⟩
    rw [head, List.map_cons, List.head?_cons] at first
    have long := (longNames_mem (first _ rfl)).1
    have short := shorter b' (List.mem_append_left _ mem')
    have le := itemStr_length b'
    omega
  obtain ⟨blocked, gaps, le, blocks, past⟩ := scan_past (fun x : Str => x) false 0
    ((u ++ ' ' :: longName a.length) :: others) untaken
  rw [past] at all first
  -- the end of the text and the first name are one item
  have taken : Taken (u ++ ' ' :: longName a.length) := by
    by_contra none
    have lost : scan (fun x : Str => x) blocked gaps ((u ++ ' ' :: longName a.length) :: others) =
        scan (fun x => x) true 0 others := scan_block none (by simp)
    rw [lost] at all
    have many := fewer all
    have le' : (scan (fun x : Str => x) true 0 others).length ≤ others.length := (scan_sublist (Nat.le_refl _)).1.length_le
    omega
  have blanks : ∀ c ∈ u, c = ' ' := by
    obtain ⟨more, head⟩ := scan_head (fun x : Str => x) blocked gaps others taken
    rw [head, List.map_cons, List.head?_cons] at first
    have letters := (longNames_mem (first _ rfl)).2.2
    have word : ∀ c ∈ itemStr (u ++ ' ' :: longName a.length), c ≠ ' ' ∧ c ≠ '*' := by
      intro c mem
      rw [letters c mem]
      decide
    exact blank_of_item word
  -- and the items in front of it are empty
  have empty : ∀ b ∈ l, b = [] := by
    intro b mem
    by_contra ne
    rw [blocks (.inr ⟨b, mem, ne⟩)] at all
    have many := fewer all
    have few := scan_short (fun x : Str => x) gaps (l := (u ++ ' ' :: longName a.length) :: others) (by
      intro y inList
      rcases List.mem_cons.1 inList with rfl | inList
      · exact taken
      · exact (onNames y inList).1) (by
      rw [List.length_cons]
      rw [List.length_append, List.length_singleton] at commas
      omega)
    rw [List.length_cons] at few
    omega
  refine ⟨l.length, u, ?_, blanks⟩
  rw [← whole, ← parts, intercalate_empty empty]

namespace SQLTextContainer
variable {rt : Runtime}

/-! ## What is loaded -/

/-- What was inserted: an attribute for each text, each at its position. -/
theorem insertAttributes_made {shape : Shape} {l : List Text} {i : Nat} {t select : SQLAttributeSetByName}
    (run : SQLQuery.insertAttributes shape i t (l.map fun x => [x]) = .ok select) :
    ∃ attrs : List SQLAttribute, attrs.map Except.ok = (l.mapIdx fun j x => SQLAttribute.make x (i + j)) ∧
      select = insertAll shape attrNameComp t attrs := by
  obtain ⟨attrs, made⟩ : ∃ attrs : List SQLAttribute, attrs.map Except.ok = l.mapIdx fun j x => SQLAttribute.make x (i + j) := by
    induction l generalizing i t with
    | nil => exact ⟨[], rfl⟩
    | cons x l ih =>
      rw [List.map_cons, SQLQuery.insertAttributes, List.headD_cons] at run
      cases first : SQLAttribute.make x i with
      | error fault =>
        rw [first] at run
        cases run
      | ok a =>
        rw [first] at run
        obtain ⟨attrs, made⟩ := ih run
        refine ⟨a :: attrs, ?_⟩
        simp only [List.mapIdx_cons, List.map_cons, made, Nat.add_zero, first, Nat.add_assoc, Nat.add_comm 1]
  rw [AttributeList.insertAttributes_of made] at run
  exact ⟨attrs, made, (Except.ok.inj run).symm⟩

theorem attributesOf_loads (row : Text) : attributesOf rt row =
    match SQLQuery.insertAttributes rt.shape 0 .leaf ((recognised row).map fun x => [x]) with
    | .ok as => if as.toList.isEmpty then .error missingFault else .ok as
    | .error fault => .error fault := by
  obtain ⟨left, found⟩ := matchVector_items row
  unfold attributesOf
  rw [SQLQuery.loadAttributes, Proc.bind_ok found]
  cases SQLQuery.insertAttributes rt.shape 0 .leaf ((recognised row).map fun x => [x]) <;> rfl

/-- Behind commas and spaces the same attributes are loaded. -/
theorem attributesOf_gap {a t : Text} {c : Letter} (gap : Gap a.str) (blank : c.char = ' ') :
    attributesOf rt (a ++ c :: t) = attributesOf rt (c :: t) := by
  rw [attributesOf_loads, attributesOf_loads, recognised_gap gap blank]

/-- The attributes loaded are of texts recognised, and the first of these is one. -/
theorem attributesOf_texts {row : Text} {as : SQLAttributeSetByName} (loaded : attributesOf rt row = .ok as) :
    as.toList ≠ [] ∧ (∀ b ∈ as.toList, b.attr ∈ recognised row) ∧ ∀ x ∈ (recognised row).head?, ∃ b ∈ as.toList, b.attr = x := by
  rw [attributesOf_loads] at loaded
  cases run : SQLQuery.insertAttributes rt.shape 0 .leaf ((recognised row).map fun x => [x]) with
  | error fault =>
    rw [run] at loaded
    cases loaded
  | ok as' =>
    rw [run] at loaded
    dsimp only at loaded
    split at loaded
    · cases loaded
    · rename_i some
      cases loaded
      obtain ⟨attrs, made, rfl⟩ := insertAttributes_made run
      refine ⟨by simpa using some, fun b mem => ?_, fun x mem => ?_⟩
      · have inAttrs : b ∈ attrs := (mem_insertAll_cases rt.shape mem).resolve_left List.not_mem_nil
        have inMade : Except.ok b ∈ (recognised row).mapIdx fun j x => SQLAttribute.make x (0 + j) := by
          rw [← made]
          exact List.mem_map_of_mem inAttrs
        obtain ⟨i, lt, makes⟩ := List.mem_mapIdx.1 inMade
        rw [(SQLAttribute.make_ok makes).1]
        exact List.getElem_mem lt
      · cases texts : recognised row with
        | nil =>
          rw [texts] at mem
          cases mem
        | cons y rest =>
          rw [texts] at mem made
          obtain rfl : y = x := Option.some.inj mem
          rw [List.mapIdx_cons] at made
          cases attrs with
          | nil => cases made
          | cons b attrs =>
            rw [List.map_cons] at made
            obtain ⟨first, -⟩ := List.cons.inj made
            refine ⟨b, ?_, (SQLAttribute.make_ok first.symm).1⟩
            exact (mem_insertAll rt.shape _ (ordered_leaf SQLAttribute.nameKey) b).2 (.inr ⟨[], attrs, rfl, by simp, by simp⟩)

variable (rt) in
/-- The names of a row are loaded. -/
theorem names_loaded {n m : Nat} : ∃ as, attributesOf rt (rowText (namesRow n (m + 1))) = .ok as ∧
    (∀ x ∈ longNames n (m + 1), ∃ b ∈ as.toList, b.attr.str = x) ∧ ∀ b ∈ as.toList, b.attr.str ∈ longNames n (m + 1) := by
  have texts : (recognised (rowText (namesRow n (m + 1)))).map str = longNames n (m + 1) := namesRow_recognised (str_of _ _)
  have inNames : ∀ x ∈ recognised (rowText (namesRow n (m + 1))), x.str ∈ longNames n (m + 1) := by
    intro x mem
    rw [← texts]
    exact List.mem_map_of_mem mem
  obtain ⟨attrs, made⟩ := AttributeList.made_of (l := recognised (rowText (namesRow n (m + 1)))) (by
    intro x mem i
    obtain ⟨-, ne, letters⟩ := longNames_mem (inNames x mem)
    obtain ⟨a, run, -⟩ := SQLAttribute.make_path (p := .single x.str ne (by
      intro c inside
      rw [letters c inside]
      decide)) rfl i
    exact ⟨a, run⟩) 0
  have run : SQLQuery.insertAttributes rt.shape 0 .leaf _ = .ok _ := AttributeList.insertAttributes_of made
  -- each attribute is called as its text
  have called : ∀ b ∈ attrs, b.attr ∈ recognised (rowText (namesRow n (m + 1))) ∧ b.name.str = b.attr.str := by
    intro b mem
    have inMade : Except.ok b ∈ (recognised (rowText (namesRow n (m + 1)))).mapIdx fun j x => SQLAttribute.make x (0 + j) := by
      rw [← made]
      exact List.mem_map_of_mem mem
    obtain ⟨i, lt, makes⟩ := List.mem_mapIdx.1 inMade
    obtain ⟨-, ne, letters⟩ := longNames_mem (inNames _ (List.getElem_mem lt))
    obtain ⟨a, run, attr, -, name⟩ := SQLAttribute.make_path (p := .single _ ne (by
      intro c inside
      rw [letters c inside]
      decide)) rfl (0 + i)
    obtain rfl : a = b := Except.ok.inj (run.symm.trans makes)
    rw [attr]
    exact ⟨List.getElem_mem lt, name⟩
  have named : ∀ x ∈ longNames n (m + 1), ∃ b ∈ (insertAll rt.shape attrNameComp .leaf attrs).toList, b.attr.str = x := by
    intro x mem
    rw [← texts] at mem
    obtain ⟨y, inRow, rfl⟩ := List.mem_map.1 mem
    obtain ⟨i, lt, rfl⟩ := List.mem_iff_getElem.1 inRow
    have inMade : SQLAttribute.make (recognised (rowText (namesRow n (m + 1))))[i] (0 + i) ∈ attrs.map Except.ok := by
      rw [made]
      exact List.mem_mapIdx.2 ⟨i, lt, rfl⟩
    obtain ⟨a, inAttrs, makes⟩ := List.mem_map.1 inMade
    have key : a.name.str ∈ attrs.map SQLAttribute.nameKey := List.mem_map_of_mem inAttrs
    rw [← mem_keys rt.shape] at key
    obtain ⟨b, inSet, same⟩ := List.mem_map.1 key
    have inAttrs' : b ∈ attrs := (mem_insertAll_cases rt.shape inSet).resolve_left List.not_mem_nil
    refine ⟨b, inSet, ?_⟩
    rw [← (called b inAttrs').2, ← (SQLAttribute.make_ok makes.symm).1, ← (called a inAttrs).2]
    exact same
  refine ⟨insertAll rt.shape attrNameComp .leaf attrs, ?_, named, ?_⟩
  · obtain ⟨others, names, -⟩ := longNames_cons (n := n) (m := m)
    obtain ⟨b, inSet, -⟩ := named (longName n) (by rw [names]; exact List.mem_cons_self)
    rw [attributesOf_loads, run]
    dsimp only
    rw [if_neg]
    intro empty
    rw [List.isEmpty_iff.1 empty] at inSet
    cases inSet
  · intro b inSet
    have inAttrs : b ∈ attrs := (mem_insertAll_cases rt.shape inSet).resolve_left List.not_mem_nil
    exact inNames _ (called b inAttrs).1

variable (rt) in
/-- **What is not noticed is a gap**: a text behind which rows without variables load what they load alone is made of
commas and spaces. -/
theorem gap_of_kept {a : Text} (same : ∀ row, isLiteral row = true → '\n' ∉ row →
    ∀ as, attributesOf rt (rowText row) = .ok as → attributesOf rt (a ++ rowText row) = .ok as) : Gap a.str := by
  have letter : ∀ {c : Char}, c ≠ 'n' → c ≠ ',' → c ∉ namesRow a.str.length (a.str.length + 1 + 1) := fun other other' mem =>
    (namesRow_letter mem).elim other other'
  have literal := literal_plain (namesRow_ne (n := a.str.length) (m := a.str.length + 1))
    (letter (by decide) (by decide)) (letter (by decide) (by decide)) (letter (by decide) (by decide))
  obtain ⟨as, loaded, named, inNames⟩ := names_loaded rt (n := a.str.length) (m := a.str.length + 1)
  have loaded' := same _ literal (letter (by decide) (by decide)) as loaded
  obtain ⟨some, texts, first⟩ := attributesOf_texts loaded'
  have strs := recognised_str (a ++ rowText (namesRow a.str.length (a.str.length + 1 + 1)))
  have all : ∀ x ∈ longNames a.str.length (a.str.length + 1 + 1),
      x ∈ (recognised (a ++ rowText (namesRow a.str.length (a.str.length + 1 + 1)))).map str := by
    intro x mem
    obtain ⟨b, inSet, rfl⟩ := named x mem
    exact List.mem_map_of_mem (texts b inSet)
  have head : ∀ x ∈ ((recognised (a ++ rowText (namesRow a.str.length (a.str.length + 1 + 1)))).map str).head?,
      x ∈ longNames a.str.length (a.str.length + 1 + 1) := by
    intro x mem
    rw [List.head?_map] at mem
    obtain ⟨y, inHead, rfl⟩ := Option.map_eq_some_iff.1 mem
    obtain ⟨b, inSet, rfl⟩ := first y inHead
    exact inNames b inSet
  rw [strs] at all head
  by_cases nul : Char.ofNat 0 ∈ a.str
  · -- the row is not read
    exfalso
    have read : (a ++ rowText (namesRow a.str.length (a.str.length + 1 + 1))).cStr = a.cStr := by
      unfold Text.cStr
      rw [str_append]
      exact rowStr_cut nul _
    obtain ⟨others, names, -⟩ := longNames_cons (n := a.str.length) (m := a.str.length + 1)
    have mem := all (longName a.str.length) (by rw [names]; exact List.mem_cons_self)
    rw [read] at mem
    obtain ⟨x, inScan, text⟩ := List.mem_map.1 mem
    have part := scan_part inScan
    have short := (part_sublist part).length_le
    have cut := a.cStr_length_le
    have le := itemStr_length x
    rw [text, longName_length, str_length] at le
    omega
  · have read : (a ++ rowText (namesRow a.str.length (a.str.length + 1 + 1))).cStr =
        a.str ++ ' ' :: namesRow a.str.length (a.str.length + 1 + 1) := by
      exact (cStr_append nul _).trans (congrArg _ (namesRow_read (str_of _ _)))
    rw [read] at all head
    exact gap_of_names (a.str.length + 1) (Nat.le_refl _) all head


/-! ## Both buffers -/

/-- The text of a part starts with the blank of its first row. -/
theorem partText_blank {rows : List Str} {s s' : Text × Vars} (run : rows.foldlM (takeRow rt) s = .ok s') :
    ∃ more, s'.1 = s.1 ++ more ∧ ∀ c ∈ more.head?, c.char = ' ' := by
  induction rows generalizing s with
  | nil =>
    cases run
    exact ⟨[], by simp, by simp⟩
  | cons row rows ih =>
    rw [List.foldlM_cons] at run
    cases step : takeRow rt s row with
    | error fault =>
      rw [step] at run
      cases run
    | ok s₁ =>
      rw [step] at run
      obtain ⟨more, same, blank⟩ := ih run
      obtain ⟨first, same', blank'⟩ : ∃ first, s₁.1 = s.1 ++ first ∧ ∀ c ∈ first.head?, c.char = ' ' := by
        unfold takeRow at step
        split at step
        · cases made : defined rt row _ s.2 with
          | error fault =>
            rw [made] at step
            cases step
          | ok vars =>
            rw [made] at step
            cases step
            exact ⟨[], by simp, by simp⟩
        · cases made : substituteRow s.2 row with
          | error fault =>
            rw [made] at step
            cases step
          | ok row' =>
            rw [made] at step
            cases step
            exact ⟨rowText row', rfl, by simp [rowText, Text.of]⟩
        · cases step
          exact ⟨[], by simp, by simp⟩
      refine ⟨first ++ more, by rw [same, same', List.append_assoc], ?_⟩
      cases first with
      | nil => exact blank
      | cons d first => exact blank'

variable (rt) in
/-- **Texts are not noticed** if and only if no condition begins in the one and the other is commas and spaces. -/
theorem unnoticed_iff {w a : Text} : Unnoticed rt w a ↔ Inert w.str ∧ Gap a.str := by
  constructor
  · intro unnoticed
    have part : ∀ {row}, isLiteral row = true → '\n' ∉ row → PartText rt (rowText row) .leaf := by
      intro row literal line
      obtain ⟨kind, made⟩ := literal_data literal
      exact (PartText.nil rt).append line kind (made _)
    refine ⟨inert_of_kept rt fun row literal line cs run => ?_, gap_of_kept rt fun row literal line as run => ?_⟩
    · exact (unnoticed.wheres _ _ (append_row_ne [] row) (part literal line)).trans run
    · exact (unnoticed.attributes _ _ (append_row_ne [] row) (part literal line)).trans run
  · rintro ⟨inert, gap⟩
    refine ⟨fun t _ _ _ => constraintsOf_inert rt inert t, fun t vars ne h => ?_⟩
    obtain ⟨rows, -, run⟩ := h
    obtain ⟨more, same, blank⟩ := partText_blank run
    obtain rfl : t = more := same
    obtain ⟨c, more, rfl⟩ := List.exists_cons_of_ne_nil ne
    exact attributesOf_gap gap (blank c rfl)

end SQLTextContainer

end SqlHandler
