import SqlHandler.Container.Scan

/-!
# Reading an attribute list

What `loadAttributes` should give for a list, and the lists it reads so. The loop takes an
item together with the commas beside it, so what stands behind a skipped item loses the
comma it needs as soon as an item between them is taken. Items of equal text are told
apart by the origins of their letters.
-/

namespace SqlHandler.AttributeList
open Posix Text Stl

/-! ## The lists -/

/-- A letter, a digit, `_`, `.` or a space. -/
def itemChar (c : Char) : Bool := wordChar c || c == '.' || c == ' '

/-- The grammar of the items. -/
abbrev IsItem (x : Str) : Prop := Item itemChar x

instance (x : Str) : Decidable (IsItem x) := decideItem (by decide) x

/-- The texts of the items of the grammar, in their order. -/
def expected (row : Text) : List Text := ((items row).filter fun x => decide (IsItem x.str)).map itemText

/-- A list is read exactly: its items are recognised, and what is returned are the
attributes made of them at the positions from 0, the first of each name. -/
def Exact (shape : Shape) (row : Text) : Prop :=
  (∃ left, StringMatch.matchVector (regexec contRegAttr) [contRegAttrGroup] row =
    .ok ((expected row).map fun x => [x]) left) ∧
  ∃ attrs : List SQLAttribute, attrs.map Except.ok = (expected row).mapIdx (fun i x => SQLAttribute.make x i) ∧
    ∃ set left, SQLQuery.loadAttributes shape row = .ok set left ∧
      ∀ a, a ∈ set.toList ↔ ∃ pre post, attrs = pre ++ a :: post ∧ ∀ b ∈ pre, b.name.str ≠ a.name.str

/-! ## The lists read so -/

/-- The text of an item has one of the forms of an attribute. -/
def IsAttribute (x : Str) : Prop := ∃ full name, AttrForm ((itemSpan x).text x) full name

/-- The items up to the one with a NUL, what is read of each in front of it. -/
def seen (s : Str) : List (Str × Str) :=
  ((s.takeWhile (· ≠ Char.ofNat 0)).splitOnP comma).zip (s.splitOnP comma)

/-- The items behind the one with a NUL. -/
def unseen (s : Str) : List Str :=
  (s.splitOnP comma).drop ((s.takeWhile (· ≠ Char.ofNat 0)).splitOnP comma).length

/-- What is taken is of the grammar and an attribute, and no item of the grammar stands
next to one that is taken with only a skipped item in front. -/
def Safe : Bool → Nat → List (Str × Str) → Prop
  | _, _, [] => True
  | blocked, gaps, (read, x) :: rest =>
    if Taken read then
      IsItem x ∧ IsAttribute x ∧
        if blocked = true ∧ gaps = 0 then
          match rest with
          | [] => True
          | (_, y) :: rest => ¬ IsItem y ∧ Safe true 0 rest
        else Safe blocked (gaps - 1) rest
    else if read = [] then Safe blocked (gaps + 1) rest
    else Safe true 0 rest

def Fits (s : Str) : Prop := Safe false 0 (seen s) ∧ ∀ y ∈ unseen s, ¬ IsItem y

/-! ## What is recognised of the items -/

section Pairs

/-- The items of a text, with what is read of each. -/
def seenText (row : Text) : List (Text × Text) := (items row.upToNul).zip (items row)

def unseenText (row : Text) : List Text := (items row).drop (items row.upToNul).length

abbrev front (q : Text × Text) : Str := q.1.str

variable {pairs : List (Text × Text)}

theorem taken_of_item {x : Str} (h : IsItem x) : Taken x := by
  obtain ⟨sp, y, sp', rfl, lead, trail, text⟩ := h
  refine ⟨sp, y, sp', rfl, lead, trail, text.imp_right fun letters => ⟨letters.1, ?_⟩⟩
  intro c mem
  have letter := letters.2 c mem
  simp only [itemChar, Bool.or_eq_true, beq_iff_eq] at letter
  simp only [attrChar, nameChar, Bool.or_eq_true, beq_iff_eq]
  rcases letter with (letter | dot) | space
  · have := wordChar_attr letter
    simp only [prefixChar, Bool.or_eq_true, beq_iff_eq] at this
    rcases this with (upTo | rfl) | dig
    · exact .inl (.inl (.inl (.inl (.inl upTo))))
    · exact absurd letter (by decide)
    · exact .inl (.inl (.inl (.inl (.inr dig))))
  · exact .inl (.inr dot)
  · exact .inr space

/-- The pairs whose items are of the grammar. -/
def good (pairs : List (Text × Text)) : List (Text × Text) := pairs.filter fun q => decide (IsItem q.2.str)

theorem good_cons {q : Text × Text} (h : IsItem q.2.str) : good (q :: pairs) = q :: good pairs := by
  simp [good, h]

theorem good_skip {q : Text × Text} (h : ¬ IsItem q.2.str) : good (q :: pairs) = good pairs := by
  simp [good, h]

def strs (q : Text × Text) : Str × Str := (q.1.str, q.2.str)

/-- Of the grammar is only what was read to its end. -/
def Agree (pairs : List (Text × Text)) : Prop := ∀ q ∈ pairs, IsItem q.2.str → q.1 = q.2

theorem Agree.tail {q : Text × Text} (h : Agree (q :: pairs)) : Agree pairs := fun p mem => h p (List.mem_cons_of_mem _ mem)

theorem Agree.untaken {q : Text × Text} (h : Agree (q :: pairs)) (untaken : ¬ Taken (front q)) : ¬ IsItem q.2.str := by
  intro item
  apply untaken
  rw [front, h q List.mem_cons_self item]
  exact taken_of_item item

/-- In a safe list what is recognised are the items of the grammar. -/
theorem safe_scan {n : Nat} {blocked : Bool} {gaps : Nat} (size : pairs.length ≤ n) (agree : Agree pairs)
    (safe : Safe blocked gaps (pairs.map strs)) :
    scan front blocked gaps pairs = good pairs ∧ ∀ q ∈ good pairs, IsAttribute q.2.str := by
  induction n generalizing pairs blocked gaps with
  | zero =>
    obtain rfl : pairs = [] := List.eq_nil_of_length_eq_zero (by omega)
    exact ⟨by simp [scan, good], by simp [good]⟩
  | succ n ih =>
    cases pairs with
    | nil => exact ⟨by simp [scan, good], by simp [good]⟩
    | cons q rest =>
      simp only [List.length_cons, Nat.add_le_add_iff_right] at size
      rw [List.map_cons, strs, Safe.eq_def] at safe
      dsimp only at safe
      by_cases taken : Taken (front q)
      · rw [if_pos taken] at safe
        obtain ⟨item, makes, safe⟩ := safe
        have cons : ∀ {l : List (Text × Text)}, (l = good rest ∧ ∀ p ∈ good rest, IsAttribute p.2.str) →
            q :: l = good (q :: rest) ∧ ∀ p ∈ good (q :: rest), IsAttribute p.2.str := by
          rintro l ⟨rfl, all⟩
          rw [good_cons item]
          refine ⟨rfl, ?_⟩
          intro p mem
          rcases List.mem_cons.1 mem with rfl | mem
          · exact makes
          · exact all p mem
        by_cases lost : blocked = true ∧ gaps = 0
        · rw [if_pos lost] at safe
          obtain ⟨rfl, rfl⟩ := lost
          cases rest with
          | nil =>
            rw [scan_last taken]
            exact cons ⟨rfl, by simp [good]⟩
          | cons y rest =>
            rw [scan_lost taken]
            apply cons
            rw [good_skip safe.1]
            exact ih (Nat.le_of_succ_le size) agree.tail.tail safe.2
        · rw [if_neg lost] at safe
          rw [scan_free taken lost]
          exact cons (ih size agree.tail safe)
      · rw [if_neg taken] at safe
        rw [good_skip (agree.untaken taken)]
        by_cases empty : front q = []
        · rw [if_pos empty] at safe
          rw [scan_gap empty]
          exact ih size agree.tail safe
        · rw [if_neg empty] at safe
          rw [scan_block taken empty]
          exact ih size agree.tail safe

/-- How the texts of the items are told apart from others. -/
def Owned (Own : Text → Prop) (pairs : List (Text × Text)) : Prop :=
  ∀ q ∈ pairs, Taken (front q) → (Own (itemText q.1) ↔ IsItem q.2.str)

theorem good_owned {Own : Text → Prop} (agree : Agree pairs) (owned : Owned Own pairs) {t : Text}
    (mem : t ∈ (good pairs).map fun q => itemText q.2) : Own t := by
  obtain ⟨q, inGood, rfl⟩ := List.mem_map.1 mem
  obtain ⟨inPairs, item⟩ := List.mem_filter.1 inGood
  have item : IsItem q.2.str := by simpa using item
  have whole := agree q inPairs item
  have taken : Taken (front q) := by
    rw [front, whole]
    exact taken_of_item item
  rw [← whole]
  exact (owned q inPairs taken).2 item

/-- A list whose recognised texts are those of its items of the grammar is safe. -/
theorem safe_of_scan {n : Nat} {blocked : Bool} {gaps : Nat} {Own : Text → Prop} (size : pairs.length ≤ n)
    (agree : Agree pairs) (owned : Owned Own pairs) (makes : ∀ q ∈ good pairs, IsAttribute q.2.str)
    (same : (scan front blocked gaps pairs).map (fun q => itemText q.1) = (good pairs).map fun q => itemText q.2) :
    Safe blocked gaps (pairs.map strs) := by
  induction n generalizing pairs blocked gaps with
  | zero =>
    obtain rfl : pairs = [] := List.eq_nil_of_length_eq_zero (by omega)
    simp [Safe]
  | succ n ih =>
    cases pairs with
    | nil => simp [Safe]
    | cons q rest =>
      simp only [List.length_cons, Nat.add_le_add_iff_right] at size
      have ownedRest : Owned Own rest := fun p mem => owned p (List.mem_cons_of_mem _ mem)
      rw [List.map_cons, strs, Safe.eq_def]
      dsimp only
      by_cases taken : Taken (front q)
      · rw [if_pos taken]
        -- the first text recognised is one of the items of the grammar, so its item is
        have item : IsItem q.2.str := by
          apply (owned q List.mem_cons_self taken).1
          apply good_owned agree owned
          rw [← same]
          by_cases lost : blocked = true ∧ gaps = 0
          · obtain ⟨rfl, rfl⟩ := lost
            cases rest with
            | nil => simp [scan_last taken]
            | cons y rest => simp [scan_lost taken]
          · simp [scan_free taken lost]
        rw [good_cons item] at same makes
        have makesRest : ∀ p ∈ good rest, IsAttribute p.2.str := fun p mem => makes p (List.mem_cons_of_mem _ mem)
        refine ⟨item, makes q List.mem_cons_self, ?_⟩
        by_cases lost : blocked = true ∧ gaps = 0
        · rw [if_pos lost]
          obtain ⟨rfl, rfl⟩ := lost
          cases rest with
          | nil => trivial
          | cons y rest =>
            rw [scan_lost taken, List.map_cons, List.map_cons] at same
            obtain ⟨-, same⟩ := List.cons.inj same
            have none : ¬ IsItem y.2.str := by
              intro yItem
              obtain ⟨sub, allTaken⟩ : (scan front true 0 rest).Sublist rest ∧ _ := scan_sublist (Nat.le_refl rest.length)
              have goods : ∀ p ∈ scan front true 0 rest, decide (IsItem p.2.str) = true := by
                intro p mem
                rw [decide_eq_true_iff]
                have inRest := sub.subset mem
                apply (ownedRest p (List.mem_cons_of_mem _ inRest) (allTaken p mem)).1
                apply good_owned agree.tail ownedRest
                rw [← same]
                exact List.mem_map_of_mem mem
              have fewer := (sub.filter fun p => decide (IsItem p.2.str)).length_le
              rw [List.filter_eq_self.2 goods] at fewer
              have equal := congrArg List.length same
              rw [good_cons yItem] at equal
              simp only [List.length_map, List.length_cons, good] at equal
              omega
            refine ⟨none, ih (Nat.le_of_succ_le size) agree.tail.tail ?_ ?_ ?_⟩
            · exact fun p mem => ownedRest p (List.mem_cons_of_mem _ mem)
            · rw [good_skip none] at makesRest
              exact makesRest
            · rw [good_skip none] at same
              exact same
        · rw [if_neg lost]
          rw [scan_free taken lost, List.map_cons, List.map_cons] at same
          exact ih size agree.tail ownedRest makesRest (List.cons.inj same).2
      · rw [if_neg taken]
        rw [good_skip (agree.untaken taken)] at same makes
        by_cases empty : front q = []
        · rw [if_pos empty]
          rw [scan_gap empty] at same
          exact ih size agree.tail ownedRest makes same
        · rw [if_neg empty]
          rw [scan_block taken empty] at same
          exact ih size agree.tail ownedRest makes same

end Pairs

/-! ## The text of an item -/

theorem itemText_str {letter : Char → Bool} {x : Text} {lead y trail : Str} (parts : ItemParts letter x.str lead y trail) :
    (itemText x).str = y := by
  rw [itemText, str_substr, parts.span, parts.whole, text_at]

theorem Item.pad {letter : Char → Bool} {lead y trail : Str} (h : Item letter y) (before : ∀ c ∈ lead, c = ' ')
    (behind : ∀ c ∈ trail, c = ' ') : Item letter (lead ++ y ++ trail) := by
  obtain ⟨sp, w, sp', rfl, hsp, hsp', text⟩ := h
  refine ⟨lead ++ sp, w, sp' ++ trail, by simp, ?_, ?_, text⟩
  · intro c mem
    rcases List.mem_append.1 mem with mem | mem
    · exact before c mem
    · exact hsp c mem
  · intro c mem
    rcases List.mem_append.1 mem with mem | mem
    · exact hsp' c mem
    · exact behind c mem

/-- The text of an item is of the grammar if and only if the item is. -/
theorem text_item {x : Text} (taken : Taken x.str) : IsItem (itemText x).str ↔ IsItem x.str := by
  obtain ⟨lead, y, trail, parts⟩ := taken.parts attrChar_space attrChar_star
  rw [itemText_str parts]
  constructor
  · intro text
    rw [parts.whole]
    exact Item.pad text parts.lead_spaces parts.trail_spaces
  · intro item
    rcases parts.cases with ⟨rfl, -⟩ | rfl | ⟨-, -, c, rest, rfl, ne_space, ne_star⟩
    · exact ⟨[], [' '], [], rfl, by simp, by simp, .inr ⟨by simp, List.all_eq_true.1 (by decide)⟩⟩
    · exact ⟨[], ['*'], [], rfl, by simp, by simp, .inl rfl⟩
    · rw [parts.whole] at item
      refine (item_iff (by decide)).2 (.inl ⟨by simp, ?_⟩)
      rcases (item_iff (by decide)).1 item with ⟨-, letters⟩ | star
      · intro d mem
        exact letters d (by simp only [List.mem_append]; exact .inl (.inr mem))
      · have mem : c ∈ (lead ++ c :: rest ++ trail).filter (· != ' ') := by
          rw [List.mem_filter]
          exact ⟨by simp, by simpa using ne_space⟩
        rw [star, List.mem_singleton] at mem
        exact absurd mem ne_star

theorem text_ne {x : Text} (taken : Taken x.str) : itemText x ≠ [] := by
  obtain ⟨lead, y, trail, parts⟩ := taken.parts attrChar_space attrChar_star
  intro none
  have text := itemText_str parts
  rw [none] at text
  exact (Taken.text parts).ne_nil text.symm

theorem text_read {x : Text} (taken : Taken x.str) : (itemText x).cStr = (itemSpan x.str).text x.str := by
  rw [read_of_noNul, itemText, str_substr]
  intro c mem
  exact (taken.letter (List.mem_map_of_mem (mem_substr mem))).2

/-! ## The items of a row -/

/-- The items read and the items: the last one read ends at the NUL, if there is one. -/
theorem items_upToNul (row : Text) : ∃ init u, items row.upToNul = init ++ [u] ∧
    ((row.upToNul = row ∧ items row = init ++ [u]) ∨
      ∃ x v w, x.char = Char.ofNat 0 ∧ items row = init ++ (u ++ x :: v) :: w) := by
  have parts := List.dropLast_append_getLast (List.splitOnP_ne_nil (fun x : Letter => comma x.char) row.upToNul)
  generalize (row.upToNul.splitOnP fun x : Letter => comma x.char).dropLast = init at parts
  generalize (row.upToNul.splitOnP fun x : Letter => comma x.char).getLast _ = u at parts
  refine ⟨init, u, parts.symm, ?_⟩
  have split := List.takeWhile_append_dropWhile (p := fun x : Letter => decide (x.char ≠ Char.ofNat 0)) (l := row)
  cases behind : row.dropWhile (fun x => decide (x.char ≠ Char.ofNat 0)) with
  | nil =>
    rw [behind, List.append_nil] at split
    have whole : row.upToNul = row := split
    rw [whole] at parts ⊢
    exact .inl ⟨rfl, parts.symm⟩
  | cons x rest =>
    have nul : x.char = Char.ofNat 0 := by
      have := List.head_dropWhile_not (fun x : Letter => decide (x.char ≠ Char.ofNat 0)) (l := row) (by rw [behind]; simp)
      simp only [behind, List.head_cons] at this
      simpa using this
    obtain ⟨v, w, first⟩ : ∃ v w, items (x :: rest) = (x :: v) :: w := split_cons (by rw [nul]; decide)
    have glued := split_glue parts.symm first
    rw [behind] at split
    rw [Text.upToNul, split] at glued
    exact .inr ⟨x, v, w, nul, glued⟩

theorem not_item {x : Text} {c : Letter} (mem : c ∈ x) (nul : c.char = Char.ofNat 0) : ¬ IsItem x.str := by
  intro item
  exact ((taken_of_item item).letter (List.mem_map_of_mem mem)).2 nul

/-- An item read whole. -/
def whole (x : Text) : Text × Text := (x, x)

theorem zip_whole (l : List Text) : l.zip l = l.map whole := List.zipWith_self

theorem seenText_whole {row : Text} (h : row.upToNul = row) :
    seenText row = (items row).map whole ∧ unseenText row = [] := by
  rw [seenText, unseenText, h, zip_whole, List.drop_length]
  exact ⟨rfl, rfl⟩

theorem seenText_cut {row u x : Text} {init w : List Text} (read : items row.upToNul = init ++ [u])
    (all : items row = init ++ x :: w) : seenText row = init.map whole ++ [(u, x)] ∧ unseenText row = w := by
  rw [seenText, unseenText, read, all, List.zip_append rfl, zip_whole]
  simp

section Row
variable (row : Text)

theorem seenText_spec : (seenText row).map Prod.fst = items row.upToNul ∧
    items row = (seenText row).map Prod.snd ++ unseenText row ∧ Agree (seenText row) := by
  have same : ∀ {l : List Text}, (l.map whole).map Prod.fst = l ∧ (l.map whole).map Prod.snd = l := by
    intro l
    rw [List.map_map, List.map_map]
    exact ⟨List.map_id l, List.map_id l⟩
  have agree : ∀ {l : List Text}, ∀ q ∈ l.map whole, q.1 = q.2 := by
    intro l q mem
    obtain ⟨x, -, rfl⟩ := List.mem_map.1 mem
    rfl
  obtain ⟨init, u, read, ⟨noNul, all⟩ | ⟨x, v, w, nul, all⟩⟩ := items_upToNul row
  · obtain ⟨seen, unseen⟩ := seenText_whole noNul
    rw [seen, unseen, noNul, List.append_nil]
    exact ⟨same.1, same.2.symm, fun q mem _ => agree q mem⟩
  · obtain ⟨seen, unseen⟩ := seenText_cut read all
    rw [seen, unseen, read, all, List.map_append, List.map_append, same.1, same.2]
    refine ⟨rfl, by simp, ?_⟩
    intro q mem item
    rcases List.mem_append.1 mem with mem | mem
    · exact agree q mem
    · rw [List.mem_singleton.1 mem] at item
      exact absurd item (not_item (c := x) (by simp) nul)

theorem seenText_str : (seenText row).map strs = seen row.str ∧ (unseenText row).map str = unseen row.str := by
  have read : (items row.upToNul).map str = (row.str.takeWhile (· ≠ Char.ofNat 0)).splitOnP comma := by
    rw [items_str, ← cStr_upToNul]
    rfl
  constructor
  · rw [seen, ← read, ← items_str, List.zip_map]
    rfl
  · rw [unseen, ← read, ← items_str, List.length_map, unseenText, List.map_drop]

theorem recognised_seen : recognised row = (scan front false 0 (seenText row)).map fun q => itemText q.1 := by
  have reading : scan str false 0 ((seenText row).map Prod.fst) = (scan front false 0 (seenText row)).map Prod.fst :=
    scan_map (f := Prod.fst) (fun _ => rfl) (Nat.le_refl _)
  rw [recognised, ← (seenText_spec row).1, reading, List.map_map]
  rfl

theorem expected_seen : expected row = ((good (seenText row)).map fun q => itemText q.2) ++
    ((unseenText row).filter fun x => decide (IsItem x.str)).map itemText := by
  rw [expected, (seenText_spec row).2.1, List.filter_append, List.map_append, List.filter_map, List.map_map]
  rfl

end Row

/-! ## What `loadAttributes` returns -/

section Load
variable {shape : Shape}

theorem insertAttributes_of {attrs : List SQLAttribute} {l : List Text} {i : Nat} {t : SQLAttributeSetByName}
    (made : attrs.map Except.ok = l.mapIdx fun j x => SQLAttribute.make x (i + j)) :
    SQLQuery.insertAttributes shape i t (l.map fun x => [x]) = .ok (insertAll shape attrNameComp t attrs) := by
  induction l generalizing attrs i t with
  | nil =>
    obtain rfl : attrs = [] := by simpa using made
    rfl
  | cons x l ih =>
    rw [List.mapIdx_cons] at made
    cases attrs with
    | nil => cases made
    | cons a attrs =>
      obtain ⟨first, others⟩ := List.cons.inj made
      rw [List.map_cons, SQLQuery.insertAttributes]
      rw [Nat.add_zero] at first
      rw [List.headD_cons, ← first]
      apply ih
      rw [others]
      simp only [Nat.add_assoc, Nat.add_comm 1]

theorem loadAttributes_of (shape : Shape) {attrs : List SQLAttribute} {row : Text}
    (made : attrs.map Except.ok = (recognised row).mapIdx fun i x => SQLAttribute.make x i) :
    ∃ left, SQLQuery.loadAttributes shape row = .ok (insertAll shape attrNameComp .leaf attrs) left := by
  obtain ⟨left, found⟩ := matchVector_items row
  refine ⟨left, ?_⟩
  rw [SQLQuery.loadAttributes, Proc.bind_ok found, insertAttributes_of (by simpa using made)]
  rfl

/-- The attributes of a list of texts at the positions from 0. -/
theorem made_of {l : List Text} (h : ∀ x ∈ l, ∀ i, ∃ a, SQLAttribute.make x i = .ok a) (i : Nat) :
    ∃ attrs : List SQLAttribute, attrs.map Except.ok = l.mapIdx fun j x => SQLAttribute.make x (i + j) := by
  induction l generalizing i with
  | nil => exact ⟨[], rfl⟩
  | cons x l ih =>
    obtain ⟨a, first⟩ := h x List.mem_cons_self i
    obtain ⟨attrs, others⟩ := ih (fun y mem => h y (List.mem_cons_of_mem _ mem)) (i + 1)
    refine ⟨a :: attrs, ?_⟩
    simp only [List.mapIdx_cons, List.map_cons, others, Nat.add_zero, first, Nat.add_assoc, Nat.add_comm 1]

theorem makes_of {attrs : List SQLAttribute} {l : List Text}
    (made : attrs.map Except.ok = l.mapIdx fun i x => SQLAttribute.make x i) {x : Text} (mem : x ∈ l) :
    ∃ a i, SQLAttribute.make x i = .ok a := by
  obtain ⟨i, lt, rfl⟩ := List.mem_iff_getElem.1 mem
  have inMade : SQLAttribute.make l[i] i ∈ attrs.map Except.ok := by
    rw [made]
    exact List.mem_mapIdx.2 ⟨i, lt, rfl⟩
  obtain ⟨a, -, ok⟩ := List.mem_map.1 inMade
  exact ⟨a, i, ok.symm⟩

/-- An attribute is made of the text of an item if and only if it has one of the forms. -/
theorem attribute_iff {x : Text} (taken : Taken x.str) :
    (∃ a i, SQLAttribute.make (itemText x) i = .ok a) ↔ IsAttribute x.str := by
  rw [IsAttribute, ← text_read taken]
  constructor
  · rintro ⟨a, i, made⟩
    exact ⟨_, _, (SQLAttribute.make_ok made).2.2.1⟩
  · rintro ⟨full, name, form⟩
    obtain ⟨a, made⟩ := SQLAttribute.make_form form 0
    exact ⟨a, 0, made⟩

theorem taken_good {row : Text} {q : Text × Text} (mem : q ∈ good (seenText row)) :
    q ∈ seenText row ∧ IsItem q.2.str ∧ q.1 = q.2 ∧ Taken q.2.str := by
  obtain ⟨inSeen, item⟩ := List.mem_filter.1 mem
  have item : IsItem q.2.str := by simpa using item
  exact ⟨inSeen, item, (seenText_spec row).2.2 q inSeen item, taken_of_item item⟩

/-- A list that fits is read exactly. -/
theorem exact_of_fits (shape : Shape) {row : Text} (fits : Fits row.str) : Exact shape row := by
  obtain ⟨safe, none⟩ := fits
  obtain ⟨seenEq, unseenEq⟩ := seenText_str row
  rw [← seenEq] at safe
  rw [← unseenEq] at none
  obtain ⟨scanned, attributes⟩ := safe_scan (Nat.le_refl _) (seenText_spec row).2.2 safe
  have behind : (unseenText row).filter (fun x => decide (IsItem x.str)) = [] := by
    apply List.filter_eq_nil_iff.2
    intro x mem
    simpa using none x.str (List.mem_map_of_mem mem)
  have all : recognised row = expected row := by
    rw [recognised_seen, expected_seen, scanned, behind, List.map_nil, List.append_nil]
    apply List.map_congr_left
    intro q mem
    rw [(taken_good mem).2.2.1]
  have makes : ∀ x ∈ expected row, ∀ i, ∃ a, SQLAttribute.make x i = .ok a := by
    intro x mem i
    rw [expected_seen, behind, List.map_nil, List.append_nil] at mem
    obtain ⟨q, inGood, rfl⟩ := List.mem_map.1 mem
    obtain ⟨a, j, made⟩ := (attribute_iff (taken_good inGood).2.2.2).2 (attributes q inGood)
    exact ⟨_, SQLAttribute.make_pos made i⟩
  obtain ⟨attrs, made⟩ := made_of makes 0
  simp only [Nat.zero_add] at made
  obtain ⟨left, found⟩ := matchVector_items row
  obtain ⟨left', loaded⟩ := loadAttributes_of shape (all ▸ made)
  rw [all] at found
  refine ⟨⟨left, found⟩, attrs, made, _, left', loaded, ?_⟩
  intro a
  rw [attrNameComp, mem_insertAll shape attrs (ordered_leaf _)]
  simp [SQLAttribute.nameKey]

/-- A list read exactly fits, where the texts of its items can be told apart. -/
theorem fits_of_exact {row : Text} (exact' : Exact shape row) {Own : Text → Prop} (owned : Owned Own (seenText row))
    (apart : ∀ y ∈ unseenText row, Taken y.str → itemText y ∉ recognised row) : Fits row.str := by
  obtain ⟨⟨left, found⟩, attrs, made, -⟩ := exact'
  obtain ⟨left', found'⟩ := matchVector_items row
  rw [found'] at found
  have same : recognised row = expected row := by
    have texts := (EStateM.Result.ok.inj found).1
    exact List.map_injective_iff.2 (fun _ _ e => List.head_eq_of_cons_eq e) texts
  have none : ∀ y ∈ unseenText row, ¬ IsItem y.str := by
    intro y mem item
    apply apart y mem (taken_of_item item)
    rw [same, expected_seen]
    apply List.mem_append_right
    exact List.mem_map_of_mem (List.mem_filter.2 ⟨mem, by simpa using item⟩)
  have behind : (unseenText row).filter (fun x => decide (IsItem x.str)) = [] := by
    apply List.filter_eq_nil_iff.2
    intro x mem
    simpa using none x mem
  have makes : ∀ q ∈ good (seenText row), IsAttribute q.2.str := by
    intro q mem
    apply (attribute_iff (taken_good mem).2.2.2).1
    apply makes_of made
    rw [expected_seen]
    exact List.mem_append_left _ (List.mem_map_of_mem mem)
  rw [recognised_seen, expected_seen, behind, List.map_nil, List.append_nil] at same
  obtain ⟨seenEq, unseenEq⟩ := seenText_str row
  constructor
  · rw [← seenEq]
    exact safe_of_scan (Nat.le_refl _) (seenText_spec row).2.2 owned makes same
  · rw [← unseenEq]
    intro y mem
    obtain ⟨x, inUnseen, rfl⟩ := List.mem_map.1 mem
    exact none x inUnseen

end Load

/-! ## Items told apart -/

theorem items_of (origin : Origin) (s : Str) : ∀ x ∈ items (of origin s), ∀ c ∈ x, c.origin = origin := by
  intro x mem c inItem
  exact origin_of (part_subset mem c inItem)

/-- The items up to the last comma and what is behind it, with origins of their own. -/
theorem items_tagged {a u : Str} (free : ∀ c ∈ u, comma c = false) (ends : a = [] ∨ ∃ b c, a = b ++ [c] ∧ comma c = true)
    (origin origin' : Origin) : ∃ init, items (of origin a ++ of origin' u) = init ++ [of origin' u] ∧
      ∀ x ∈ init, ∀ c ∈ x, c.origin = origin := by
  have one : items (of origin' u) = [of origin' u] := by
    apply List.splitOnP_eq_singleton
    intro c mem
    obtain ⟨d, inU, rfl⟩ := List.mem_map.1 mem
    exact free d inU
  rcases ends with rfl | ⟨b, c, rfl, hc⟩
  · exact ⟨[], one, by simp⟩
  · refine ⟨items (of origin b), ?_, items_of origin b⟩
    rw [← one, of_append, List.append_assoc]
    exact List.splitOnP_append_cons (of origin b) (of origin' u) hc

/-- The items of any string can be told apart by their origins. -/
theorem told_apart (s : Str) : ∃ row : Text, row.str = s ∧ ∃ Own, Owned Own (seenText row) ∧
    ∀ y ∈ unseenText row, Taken y.str → itemText y ∉ recognised row := by
  by_cases nul : Char.ofNat 0 ∈ s
  · obtain ⟨s₁, s₂, rfl, fresh⟩ := List.eq_append_cons_of_mem nul
    obtain ⟨a, u, rfl, free, ends⟩ := split_last (p := comma) s₁
    obtain ⟨init, front, tags⟩ := items_tagged free ends .dataset .client
    obtain ⟨v, w, rest⟩ : ∃ v w, items (of .literal (Char.ofNat 0 :: s₂)) = (⟨Char.ofNat 0, .literal⟩ :: v) :: w :=
      split_cons (by decide)
    have all := split_glue front rest
    have read : Text.upToNul (of .dataset a ++ of .client u ++ of .literal (Char.ofNat 0 :: s₂)) =
        of .dataset a ++ of .client u := by
      apply upToNul_append
      · intro x mem e
        apply fresh
        rw [← e]
        have := List.mem_map_of_mem (f := Letter.char) mem
        simpa [of, Function.comp_def] using this
      · simp [of]
    rw [← read] at front
    obtain ⟨seenEq, unseenEq⟩ := seenText_cut front all
    refine ⟨of .dataset a ++ of .client u ++ of .literal (Char.ofNat 0 :: s₂), by simp,
      fun t => IsItem t.str ∧ ∀ c ∈ t, c.origin = .dataset, ?_, ?_⟩
    · intro q mem taken
      rw [seenEq] at mem
      rcases List.mem_append.1 mem with mem | mem
      · obtain ⟨x, inInit, rfl⟩ := List.mem_map.1 mem
        constructor
        · exact fun own => (text_item taken).1 own.1
        · exact fun item => ⟨(text_item taken).2 item, fun c inText => tags x inInit c (mem_substr inText)⟩
      · rw [List.mem_singleton.1 mem] at taken ⊢
        constructor
        · rintro ⟨-, own⟩
          obtain ⟨c, inText⟩ := List.exists_mem_of_ne_nil _ (text_ne taken)
          have := own c inText
          rw [origin_of (mem_substr inText)] at this
          cases this
        · intro item
          exact absurd item (not_item (c := ⟨Char.ofNat 0, .literal⟩) (by simp) rfl)
    · intro y mem taken found
      rw [unseenEq] at mem
      have literal : ∀ c ∈ y, c.origin = .literal := items_of .literal _ y (by rw [rest]; exact List.mem_cons_of_mem _ mem)
      obtain ⟨c, inText⟩ := List.exists_mem_of_ne_nil _ (text_ne taken)
      have origin := literal c (mem_substr inText)
      obtain ⟨x, inScan, e⟩ := List.mem_map.1 found
      have inItems := (scan_sublist (Nat.le_refl _)).1.subset inScan
      rw [← e] at inText
      have inItem := mem_substr inText
      rw [front] at inItems
      rcases List.mem_append.1 inItems with inItems | inItems
      · rw [tags x inItems c inItem] at origin
        cases origin
      · rw [List.mem_singleton.1 inItems] at inItem
        rw [origin_of inItem] at origin
        cases origin
  · have whole : Text.upToNul (of .dataset s) = of .dataset s := by
      apply List.takeWhile_eq_self_iff.2
      intro x mem
      obtain ⟨c, inS, rfl⟩ := List.mem_map.1 mem
      have ne : c ≠ Char.ofNat 0 := fun e => nul (e ▸ inS)
      simpa using ne
    obtain ⟨seenEq, unseenEq⟩ := seenText_whole whole
    refine ⟨of .dataset s, by simp, fun t => IsItem t.str, ?_, by simp [unseenEq]⟩
    intro q mem taken
    rw [seenEq] at mem
    obtain ⟨x, -, rfl⟩ := List.mem_map.1 mem
    exact text_item taken

/-- **Attribute lists** are read exactly, whatever the origins of their letters, if and
only if they fit: no item that is recognised stands where an item left in front of it has blocked it,
and behind a NUL there is none. -/
theorem exact_iff_fits (shape : Shape) (s : Str) : (∀ row : Text, row.str = s → Exact shape row) ↔ Fits s := by
  constructor
  · intro all
    obtain ⟨row, rfl, Own, owned, apart⟩ := told_apart s
    exact fits_of_exact (all row rfl) owned apart
  · rintro fits row rfl
    exact exact_of_fits shape fits

/-- `x!,a,b` -/
def neighbours : Text := of .client "x!,a,b".toList

/-- The item behind one that is taken is lost, when a skipped one is in front. -/
theorem neighbour_lost : ¬ Exact .plain neighbours := by
  rintro ⟨⟨left, found⟩, -⟩
  obtain ⟨left', found'⟩ := matchVector_items neighbours
  rw [found'] at found
  have texts := (EStateM.Result.ok.inj found).1
  exact absurd texts (by decide)

end SqlHandler.AttributeList
