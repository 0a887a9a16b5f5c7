import SqlHandler.Container.Items

/-!
# The loop over an attribute list

`scan` says on the items of a list which of them the loop recognises: it keeps whether an
item that is none of the expression was left behind, and how many empty ones stand after
it. `scan_cuts` is the induction over the rounds, with the items left behind as a stack
(`Behind`); `matchVector_items` is the loop on any row.
-/

namespace SqlHandler
open Posix Text Stl

/-! ## The items the loop recognises -/

theorem item_iff {letter : Char → Bool} (space : letter ' ' = true) {x : Str} :
    Item letter x ↔ (x ≠ [] ∧ ∀ c ∈ x, letter c = true) ∨ x.filter (· != ' ') = ['*'] := by
  constructor
  · rintro ⟨sp, y, sp', rfl, lead, trail, rfl | ⟨ne, letters⟩⟩
    · right
      have none : ∀ {sp : Str}, (∀ c ∈ sp, c = ' ') → sp.filter (· != ' ') = [] := by
        intro sp spaces
        rw [List.filter_eq_nil_iff]
        intro c mem
        simp [spaces c mem]
      rw [List.filter_append, List.filter_append, none lead, none trail]
      decide
    · left
      refine ⟨by simp [ne], ?_⟩
      intro c mem
      simp only [List.mem_append] at mem
      rcases mem with (mem | mem) | mem
      · rw [lead c mem, space]
      · exact letters c mem
      · rw [trail c mem, space]
  · rintro (letters | star)
    · exact ⟨[], x, [], by simp, by simp, by simp, .inr letters⟩
    · obtain ⟨sp, sp', rfl, lead, -, trail⟩ := List.filter_eq_cons_iff.1 star
      refine ⟨sp, ['*'], sp', by simp, ?_, ?_, .inl rfl⟩
      · intro c mem
        simpa using lead c mem
      · intro c mem
        simpa using List.filter_eq_nil_iff.1 trail c mem

theorem taken_iff {x : Str} : Taken x ↔ (x ≠ [] ∧ ∀ c ∈ x, attrChar c = true) ∨ x.filter (· != ' ') = ['*'] :=
  item_iff attrChar_space

def decideItem {letter : Char → Bool} (space : letter ' ' = true) (x : Str) : Decidable (Item letter x) :=
  decidable_of_iff ((x ≠ [] ∧ x.all letter = true) ∨ x.filter (· != ' ') = ['*'])
    (by rw [List.all_eq_true]; exact (item_iff space).symm)

instance (x : Str) : Decidable (Taken x) := decideItem attrChar_space x

/-- What stands in front of an item of the expression is one too. -/
theorem Taken.front {u v : Str} (h : Taken (u ++ v)) (ne : u ≠ []) : Taken u := by
  rcases taken_iff.1 h with ⟨-, letters⟩ | star
  · exact taken_iff.2 (.inl ⟨ne, fun c mem => letters c (List.mem_append_left _ mem)⟩)
  · rw [List.filter_append] at star
    rcases List.append_eq_singleton_iff.1 star with ⟨none, -⟩ | ⟨one, -⟩
    · refine taken_iff.2 (.inl ⟨ne, ?_⟩)
      intro c mem
      have space : c = ' ' := by simpa using List.filter_eq_nil_iff.1 none c mem
      rw [space, attrChar_space]
    · exact taken_iff.2 (.inr one)

section Scan
variable {α : Type} (read : α → Str)

/-- The items recognised. `blocked` says that a non-empty item was left behind, `gaps` how
many empty ones were after it. The item next to the one left behind is lost with it. -/
def scan : Bool → Nat → List α → List α
  | _, _, [] => []
  | blocked, gaps, x :: rest =>
    if Taken (read x) then
      if blocked = true ∧ gaps = 0 then
        match rest with
        | [] => [x]
        | _ :: rest => x :: scan true 0 rest
      else x :: scan blocked (gaps - 1) rest
    else if read x = [] then scan blocked (gaps + 1) rest
    else scan true 0 rest

variable {read} {blocked : Bool} {gaps : Nat} {x : α} {rest : List α}

theorem scan_free (taken : Taken (read x)) (free : ¬ (blocked = true ∧ gaps = 0)) :
    scan read blocked gaps (x :: rest) = x :: scan read blocked (gaps - 1) rest := by
  rw [scan.eq_def]
  simp only [if_pos taken, if_neg free]

theorem scan_last (taken : Taken (read x)) : scan read true 0 [x] = [x] := by
  rw [scan.eq_def]
  simp [if_pos taken]

theorem scan_lost (taken : Taken (read x)) {y : α} : scan read true 0 (x :: y :: rest) = x :: scan read true 0 rest := by
  rw [scan.eq_def]
  simp [if_pos taken]

theorem scan_gap (empty : read x = []) : scan read blocked gaps (x :: rest) = scan read blocked (gaps + 1) rest := by
  rw [scan.eq_def]
  have untaken : ¬ Taken (read x) := fun h => h.ne_nil empty
  simp only [if_neg untaken, if_pos empty]

theorem scan_block (untaken : ¬ Taken (read x)) (ne : read x ≠ []) :
    scan read blocked gaps (x :: rest) = scan read true 0 rest := by
  rw [scan.eq_def]
  simp only [if_neg untaken, if_neg ne]

theorem scan_map {β : Type} {f : β → α} {readOf : β → Str} (same : ∀ y, readOf y = read (f y)) {n : Nat} {l : List β}
    (size : l.length ≤ n) : scan read blocked gaps (l.map f) = (scan readOf blocked gaps l).map f := by
  induction n generalizing l blocked gaps with
  | zero =>
    obtain rfl : l = [] := List.eq_nil_of_length_eq_zero (by omega)
    simp [scan]
  | succ n ih =>
    cases l with
    | nil => simp [scan]
    | cons x l =>
      simp only [List.length_cons, Nat.add_le_add_iff_right] at size
      rw [List.map_cons]
      have here := same x
      by_cases taken : Taken (read (f x))
      · have taken' : Taken (readOf x) := here ▸ taken
        by_cases lost : blocked = true ∧ gaps = 0
        · obtain ⟨rfl, rfl⟩ := lost
          cases l with
          | nil => rw [List.map_nil, scan_last taken, scan_last taken', List.map_singleton]
          | cons y l =>
            rw [List.map_cons, scan_lost taken, scan_lost taken', List.map_cons, ih (Nat.le_of_succ_le size)]
        · rw [scan_free taken lost, scan_free taken' lost, List.map_cons, ih size]
      · by_cases empty : read (f x) = []
        · rw [scan_gap empty, scan_gap (here.trans empty), ih size]
        · rw [← here] at taken empty
          rw [scan_block taken empty, ← ih size]
          rw [here] at taken empty
          exact scan_block taken empty

/-- Items are recognised in their order. -/
theorem scan_sublist {n : Nat} (size : rest.length ≤ n) :
    (scan read blocked gaps rest).Sublist rest ∧ ∀ q ∈ scan read blocked gaps rest, Taken (read q) := by
  induction n generalizing rest blocked gaps with
  | zero =>
    obtain rfl : rest = [] := List.eq_nil_of_length_eq_zero (by omega)
    exact ⟨.slnil, by simp [scan]⟩
  | succ n ih =>
    cases rest with
    | nil => exact ⟨.slnil, by simp [scan]⟩
    | cons x rest =>
      simp only [List.length_cons, Nat.add_le_add_iff_right] at size
      have skip : ∀ {l : List α}, (l.Sublist rest ∧ ∀ q ∈ l, Taken (read q)) →
          l.Sublist (x :: rest) ∧ ∀ q ∈ l, Taken (read q) := fun h => ⟨h.1.cons x, h.2⟩
      by_cases taken : Taken (read x)
      · have cons : ∀ {l : List α}, (l.Sublist rest ∧ ∀ q ∈ l, Taken (read q)) →
            (x :: l).Sublist (x :: rest) ∧ ∀ q ∈ x :: l, Taken (read q) := by
          intro l h
          refine ⟨h.1.cons_cons x, ?_⟩
          intro q mem
          rcases List.mem_cons.1 mem with rfl | mem
          · exact taken
          · exact h.2 q mem
        by_cases lost : blocked = true ∧ gaps = 0
        · obtain ⟨rfl, rfl⟩ := lost
          cases rest with
          | nil =>
            rw [scan_last taken]
            exact cons ⟨.slnil, by simp⟩
          | cons y rest =>
            rw [scan_lost taken]
            apply cons
            have later : (scan read true 0 rest).Sublist rest ∧ _ := ih (Nat.le_of_succ_le size)
            exact ⟨later.1.cons y, later.2⟩
        · rw [scan_free taken lost]
          exact cons (ih size)
      · by_cases empty : read x = []
        · rw [scan_gap empty]
          exact skip (ih size)
        · rw [scan_block taken empty]
          exact skip (ih size)

end Scan

/-- The items left behind, the last first. -/
structure Behind (blocked : Bool) (gaps : Nat) (st : List Text) : Prop where
  parts : ∃ rest, st = List.replicate gaps [] ++ rest ∧ (rest = [] ↔ blocked = false) ∧ ∀ u ∈ rest.head?, u ≠ []
  untaken : ∀ b ∈ st, ¬ Taken b.str

namespace Behind
variable {blocked : Bool} {gaps : Nat} {st : List Text}

theorem gap (h : Behind blocked gaps st) : Behind blocked (gaps + 1) ([] :: st) where
  parts := by
    obtain ⟨rest, rfl, kind, first⟩ := h.parts
    exact ⟨rest, rfl, kind, first⟩
  untaken := by
    intro b mem
    rcases List.mem_cons.1 mem with rfl | mem
    · exact fun taken => taken.ne_nil rfl
    · exact h.untaken b mem

theorem block {x : Text} (h : ∀ b ∈ st, ¬ Taken b.str) (untaken : ¬ Taken x.str) (ne : x ≠ []) : Behind true 0 (x :: st) where
  parts := ⟨x :: st, rfl, by simp, by simpa using ne⟩
  untaken := by
    intro b mem
    rcases List.mem_cons.1 mem with rfl | mem
    · exact untaken
    · exact h b mem

/-- The item on top is empty, not there, or one that stays outside the expression. -/
theorem top (h : Behind blocked gaps st) :
    (blocked = false ∧ gaps = 0 ∧ st = []) ∨ (∃ g tail, gaps = g + 1 ∧ st = [] :: tail ∧ Behind blocked g tail) ∨
      (blocked = true ∧ gaps = 0 ∧ ∃ u tail, st = u :: tail ∧ u ≠ [] ∧ ¬ Taken u.str ∧ ∀ b ∈ tail, ¬ Taken b.str) := by
  obtain ⟨rest, rfl, kind, first⟩ := h.parts
  have untaken := h.untaken
  cases gaps with
  | succ g =>
    refine .inr (.inl ⟨g, List.replicate g [] ++ rest, rfl, rfl, ⟨rest, rfl, kind, first⟩, ?_⟩)
    intro b mem
    exact untaken b (List.mem_cons_of_mem _ mem)
  | zero =>
    cases rest with
    | nil => exact .inl ⟨kind.1 rfl, rfl, rfl⟩
    | cons u tail =>
      refine .inr (.inr ⟨?_, rfl, u, tail, rfl, first u rfl, untaken u (by simp), fun b mem => untaken b (by simp [mem])⟩)
      cases blocked with
      | false => exact absurd (kind.2 rfl) (by simp)
      | true => rfl

end Behind

/-- What a match stores of the rows searched. -/
def texts (cuts : List (Text × Match)) : List (List Text) :=
  cuts.map fun c => StringMatch.extract [contRegAttrGroup] c.2 c.1

/-- A row without an item of the expression is left as it is. -/
theorem no_cuts {row : Text} (read : row.cStr = row.str) (none : ∀ b ∈ items row, ¬ Taken b.str) :
    StringMatch.Cuts (regexec contRegAttr) row [] row := by
  apply StringMatch.Cuts.stop
  rw [read]
  exact contAttr_search_none (untaken_str rfl none)

theorem noNul_of_read {row : Text} (read : row.cStr = row.str) : ∀ x ∈ row, x.char ≠ Char.ofNat 0 := by
  intro x mem
  have := List.takeWhile_eq_self_iff.1 read x.char (List.mem_map_of_mem mem)
  simpa using this

theorem read_of_noNul {row : Text} (none : ∀ x ∈ row, x.char ≠ Char.ofNat 0) : row.cStr = row.str := by
  apply cStr_of_noNul
  intro mem
  obtain ⟨x, mem, nul⟩ := List.mem_map.1 mem
  exact none x mem nul

/-- The matches cut out of a row are the items `scan` gives. -/
theorem scan_cuts {n : Nat} {row : Text} {blocked : Bool} {gaps : Nat} {st rest : List Text} (size : rest.length ≤ n)
    (read : row.cStr = row.str) (behind : Behind blocked gaps st) (parts : items row = st.reverse ++ rest) :
    ∃ cuts left, StringMatch.Cuts (regexec contRegAttr) row cuts left ∧
      texts cuts = (scan str blocked gaps rest).map fun x => [itemText x] := by
  induction n generalizing row blocked gaps st rest with
  | zero =>
    obtain rfl : rest = [] := List.eq_nil_of_length_eq_zero (by omega)
    refine ⟨[], row, no_cuts read ?_, rfl⟩
    intro b mem
    rw [parts, List.append_nil, List.mem_reverse] at mem
    exact behind.untaken b mem
  | succ n ih =>
    cases rest with
    | nil => exact ih (by simp) read behind parts
    | cons x rest =>
      simp only [List.length_cons, Nat.add_le_add_iff_right] at size
      by_cases taken : Taken x.str
      · obtain ⟨m, found, stored, closed⟩ := item_round read parts behind.untaken taken
        have read' : (row.erase m.so m.len).cStr = (row.erase m.so m.len).str :=
          read_of_noNul fun y mem => noNul_of_read read y (mem_erase mem)
        have step : ∀ {taken : List Text}, (∃ cuts left, StringMatch.Cuts (regexec contRegAttr) (row.erase m.so m.len) cuts left ∧
            texts cuts = taken.map fun x => [itemText x]) →
            ∃ cuts left, StringMatch.Cuts (regexec contRegAttr) row cuts left ∧
              texts cuts = (x :: taken).map fun x => [itemText x] := by
          rintro taken ⟨cuts, left, path, e⟩
          refine ⟨(row, m) :: cuts, left, .cut found path, ?_⟩
          rw [texts, List.map_cons, List.map_cons, stored]
          exact congrArg _ e
        have done : (∀ b ∈ items (row.erase m.so m.len), ¬ Taken b.str) →
            ∃ cuts left, StringMatch.Cuts (regexec contRegAttr) (row.erase m.so m.len) cuts left ∧
              texts cuts = ([] : List Text).map fun x => [itemText x] :=
          fun none => ⟨[], _, no_cuts read' none, rfl⟩
        rcases behind.top with ⟨rfl, rfl, rfl⟩ | ⟨g, tail, rfl, rfl, below⟩ | ⟨rfl, rfl, u, tail, rfl, ne, untaken, below⟩
        · rw [scan_free taken (by simp)]
          apply step
          cases rest with
          | nil =>
            apply done
            rw [closed]
            intro b mem
            rw [List.mem_singleton.1 mem]
            exact fun h => h.ne_nil rfl
          | cons v rest => exact ih size read' behind closed
        · rw [scan_free taken (by simp)]
          apply step
          cases rest with
          | nil =>
            apply done
            rw [closed]
            intro b mem
            exact behind.untaken b (List.mem_reverse.1 mem)
          | cons v rest => exact ih size read' below closed
        · cases rest with
          | nil =>
            rw [scan_last taken]
            apply step
            apply done
            rw [closed]
            intro b mem
            exact behind.untaken b (List.mem_reverse.1 mem)
          | cons v rest =>
            rw [scan_lost taken]
            apply step
            have glued : ¬ Taken (u ++ v).str := by
              rw [str_append]
              intro both
              exact untaken (both.front (mt str_eq_nil.1 ne))
            have left : Behind true 0 ((u ++ v) :: tail) := .block below glued (by simp [ne])
            apply ih (Nat.le_of_succ_le size) read' left
            rw [closed, List.reverse_cons, List.append_assoc]
            rfl
      · by_cases empty : x = []
        · subst empty
          rw [scan_gap rfl]
          apply ih size read behind.gap
          rw [parts, List.reverse_cons, List.append_assoc]
          rfl
        · rw [scan_block taken (mt str_eq_nil.1 empty)]
          apply ih size read (.block behind.untaken taken empty)
          rw [parts, List.reverse_cons, List.append_assoc]
          rfl

/-! ### Rows with a NUL -/

/-- What `regexec` reads of a row. -/
def Text.upToNul (row : Text) : Text := row.takeWhile fun x => x.char ≠ Char.ofNat 0

theorem cStr_upToNul (row : Text) : row.cStr = row.upToNul.str := by
  rw [Text.cStr, Text.str, List.takeWhile_map]
  rfl

theorem upToNul_free (row : Text) : ∀ x ∈ row.upToNul, x.char ≠ Char.ofNat 0 := by
  intro x mem
  simpa using List.mem_takeWhile_imp mem

theorem upToNul_append {r tail : Text} (free : ∀ x ∈ r, x.char ≠ Char.ofNat 0) (nul : ∀ x ∈ tail.head?, x.char = Char.ofNat 0) :
    (r ++ tail).upToNul = r := by
  rw [Text.upToNul, List.takeWhile_append_of_pos (by intro x mem; simpa using free x mem)]
  cases tail with
  | nil => simp
  | cons x tail => simp [nul x rfl]

/-- A match lies in what was read, the text stored included. -/
theorem contAttr_inside {row : Text} (tail : Text) {m : Match} (h : regexec contRegAttr row.cStr = some m) :
    StringMatch.extract [contRegAttrGroup] m (row ++ tail) = StringMatch.extract [contRegAttrGroup] m row ∧
      (row ++ tail).erase m.so m.len = row.erase m.so m.len ++ tail := by
  have le := cStr_length_le row
  constructor
  · obtain ⟨p, w, t, e, so, len, parse⟩ := regexec_sound h
    obtain ⟨head, sp, x, sp', close, rfl, -, -, -, -, -, lookup⟩ := parses_contAttr parse
    have total := congrArg List.length e
    simp only [List.length_append] at total lookup
    have inner := substr_inner (a := []) (x := row) (b := tail)
      (s := ⟨p.length + (head.length + sp.length), p.length + (head.length + sp.length) + x.length⟩)
      (by dsimp only; omega)
    simp only [List.length_nil, Nat.zero_add, List.nil_append] at inner
    simp [StringMatch.extract, contRegAttrGroup, indexes, Match.group, lookup, inner]
  · have inside := (contAttr_cutting _ _ h).2
    rw [Text.erase, Text.erase, List.take_append_of_le_length (by omega), List.drop_append_of_le_length (by omega),
      List.append_assoc]

theorem cuts_append {r left : Text} (tail : Text) {cuts : List (Text × Match)} (path : StringMatch.Cuts (regexec contRegAttr) r cuts left)
    (free : ∀ x ∈ r, x.char ≠ Char.ofNat 0) (nul : ∀ x ∈ tail.head?, x.char = Char.ofNat 0) :
    ∃ cuts', StringMatch.Cuts (regexec contRegAttr) (r ++ tail) cuts' (left ++ tail) ∧ texts cuts' = texts cuts := by
  have same : ∀ {r : Text}, (∀ x ∈ r, x.char ≠ Char.ofNat 0) → (r ++ tail).cStr = r.cStr := by
    intro r free
    rw [cStr_upToNul, upToNul_append free nul, read_of_noNul free]
  induction path with
  | stop none =>
    refine ⟨[], .stop ?_, rfl⟩
    rw [same free]
    exact none
  | @cut row m cuts left found rest ih =>
    obtain ⟨stored, erased⟩ := contAttr_inside tail found
    obtain ⟨cuts', path, e⟩ := ih fun x mem => free x (mem_erase mem)
    rw [← erased] at path
    refine ⟨(row ++ tail, m) :: cuts', .cut (by rw [same free]; exact found) path, ?_⟩
    rw [texts, List.map_cons, stored]
    exact congrArg _ e

/-- The texts `loadAttributes` recognises, in the order they are found. -/
def recognised (row : Text) : List Text := (scan str false 0 (items row.upToNul)).map itemText

/-- The loop over an attribute list finds what `scan` gives. -/
theorem matchVector_items (row : Text) :
    ∃ left, StringMatch.matchVector (regexec contRegAttr) [contRegAttrGroup] row =
      .ok ((recognised row).map fun x => [x]) left := by
  have start : Behind false 0 [] := ⟨⟨[], rfl, by simp, by simp⟩, by simp⟩
  obtain ⟨cuts, left, path, e⟩ := scan_cuts (Nat.le_refl _) (read_of_noNul (upToNul_free row)) start rfl
  have split := List.takeWhile_append_dropWhile (p := fun x : Letter => decide (x.char ≠ Char.ofNat 0)) (l := row)
  obtain ⟨cuts', path', e'⟩ := cuts_append (row.dropWhile fun x => x.char ≠ Char.ofNat 0) path (upToNul_free row) (by
    intro x mem
    cases behind : row.dropWhile (fun x => decide (x.char ≠ Char.ofNat 0)) with
    | nil =>
      rw [behind] at mem
      cases mem
    | cons y rest =>
      have := List.head_dropWhile_not (fun x : Letter => decide (x.char ≠ Char.ofNat 0)) (l := row) (by rw [behind]; simp)
      simp only [behind, List.head_cons] at this
      rw [behind] at mem
      cases mem
      simpa using this)
  rw [Text.upToNul, split] at path'
  refine ⟨_, (StringMatch.matchVector_iff contAttr_cutting).2 ⟨cuts', path', ?_⟩⟩
  rw [recognised, List.map_map]
  exact (e'.trans e).symm

end SqlHandler
