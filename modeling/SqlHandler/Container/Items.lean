import SqlHandler.Container.Names
import SqlHandler.Stl.Split

/-!
# The items of an attribute list

`loadAttributes` cuts the matches of `_SQLH_CONT_REG_ATTR` out of a list. A match is an
item with the commas beside it, the first item of the expression there is. The items on
its two sides become one (`item_round`).
-/

namespace SqlHandler
open Posix Text Stl

/-! ## Items -/

def comma (c : Char) : Bool := c == ','

/-- The items of a list, what stands between its commas. -/
def items (row : Text) : List Text := row.splitOnP (comma ·.char)

/-- Optional spaces, a `*` or a text of some letters, optional spaces. -/
def Item (letter : Char → Bool) (x : Str) : Prop :=
  ∃ sp y sp', x = sp ++ y ++ sp' ∧ (∀ c ∈ sp, c = ' ') ∧ (∀ c ∈ sp', c = ' ') ∧
    (y = ['*'] ∨ (y ≠ [] ∧ ∀ c ∈ y, letter c = true))

/-- An item `_SQLH_CONT_REG_ATTR` matches. -/
abbrev Taken (x : Str) : Prop := Item attrChar x

/-- Where the text of an item stands: behind the leading spaces, or the last of the
spaces when there is nothing else. -/
def itemSpan (x : Str) : Span :=
  let lead := (x.takeWhile (· == ' ')).length
  if lead = x.length then ⟨lead - 1, lead⟩
  else if x[lead]? = some '*' then ⟨lead, lead + 1⟩
  else ⟨lead, x.length⟩

/-- The text an item is recognised by. -/
def itemText (x : Text) : Text := x.substr (itemSpan x.str)

/-- The parts of an item: spaces, its text, spaces. -/
structure ItemParts (letter : Char → Bool) (x lead y trail : Str) : Prop where
  whole : x = lead ++ y ++ trail
  span : itemSpan x = ⟨lead.length, lead.length + y.length⟩
  lead_spaces : ∀ c ∈ lead, c = ' '
  trail_spaces : ∀ c ∈ trail, c = ' '
  cases : (y = [' '] ∧ trail = []) ∨ y = ['*'] ∨
    (trail = [] ∧ (∀ c ∈ y, letter c = true) ∧ ∃ c rest, y = c :: rest ∧ c ≠ ' ' ∧ c ≠ '*')

section Parts
variable {letter : Char → Bool}

theorem lead_of {sp y : Str} (lead : ∀ c ∈ sp, c = ' ') (first : ∀ c ∈ y.head?, c ≠ ' ') :
    (sp ++ y).takeWhile (· == ' ') = sp :=
  (run_split (fun c h => by simp [lead c h]) fun c h => by simp [first c h]).1

theorem Item.parts {x : Str} (h : Item letter x) (space : letter ' ' = true) (star : letter '*' = false) :
    ∃ lead y trail, ItemParts letter x lead y trail := by
  obtain ⟨sp, y, sp', rfl, lead, trail, y_cases⟩ := h
  rcases y_cases with rfl | ⟨ne, letters⟩
  · have before : (sp ++ ['*'] ++ sp').takeWhile (· == ' ') = sp := by
      rw [List.append_assoc]
      exact lead_of lead (by simp)
    refine ⟨sp, ['*'], sp', rfl, ?_, lead, trail, .inr (.inl rfl)⟩
    simp only [itemSpan, before]
    rw [if_neg (by simp), if_pos (by simp)]
    rfl
  · -- the text is what is behind all the spaces in front
    have all : ∀ c ∈ sp ++ y ++ sp', letter c = true := by
      intro c mem
      simp only [List.mem_append] at mem
      rcases mem with (mem | mem) | mem
      · rw [lead c mem, space]
      · exact letters c mem
      · rw [trail c mem, space]
    have nonempty : sp ++ y ++ sp' ≠ [] := by simp [ne]
    generalize sp ++ y ++ sp' = x at all nonempty
    have split := List.takeWhile_append_dropWhile (p := (· == ' ')) (l := x)
    have spaces : ∀ c ∈ x.takeWhile (· == ' '), c = ' ' := by
      intro c mem
      simpa using List.mem_takeWhile_imp mem
    cases behind : x.dropWhile (· == ' ') with
    | nil =>
      rw [behind, List.append_nil] at split
      rw [split] at spaces
      have last : x.getLast nonempty = ' ' := spaces _ (List.getLast_mem nonempty)
      have parts := List.dropLast_append_getLast nonempty
      rw [last] at parts
      have positive := List.length_pos_iff.2 nonempty
      refine ⟨x.dropLast, [' '], [], by simp [parts], ?_, ?_, by simp, .inl ⟨rfl, rfl⟩⟩
      · simp only [itemSpan, split, if_true, List.length_dropLast, List.length_singleton, Span.mk.injEq, true_and]
        omega
      · intro c mem
        exact spaces c ((List.dropLast_sublist x).subset mem)
    | cons c rest =>
      rw [behind] at split
      have first := List.head_dropWhile_not (· == ' ') (l := x) (by rw [behind]; simp)
      simp only [behind, List.head_cons] at first
      have ne_space : c ≠ ' ' := by simpa using first
      have mem : c ∈ x := by
        rw [← split]
        simp
      have ne_star : c ≠ '*' := by
        rintro rfl
        rw [all _ mem] at star
        cases star
      generalize x.takeWhile (· == ' ') = lead at split spaces
      subst split
      refine ⟨lead, c :: rest, [], by simp, ?_, spaces, by simp, .inr (.inr ⟨rfl, ?_, c, rest, rfl, ne_space, ne_star⟩)⟩
      · have before : (lead ++ c :: rest).takeWhile (· == ' ') = lead := lead_of spaces (by simpa using ne_space)
        simp only [itemSpan, before]
        rw [if_neg (by simp), if_neg (by simpa using ne_star)]
        simp
      · intro d mem
        exact all d (List.mem_append_right _ mem)

end Parts

theorem attrChar_space : attrChar ' ' = true := by decide

theorem attrChar_star : attrChar '*' = false := by decide

theorem taken_of {sp y sp' : Str} (lead : ∀ c ∈ sp, c = ' ') (text : IsAttrText y) (trail : ∀ c ∈ sp', c = ' ') :
    Taken (sp ++ y ++ sp') := by
  refine ⟨sp, y, sp', rfl, lead, trail, ?_⟩
  rcases text with text | ⟨c, rfl, hc⟩
  · exact .inr text
  · rcases (by simpa [starChar] using hc : c = '\\' ∨ c = '*') with rfl | rfl
    · exact .inr ⟨by simp, List.all_eq_true.1 (by decide)⟩
    · exact .inl rfl

theorem Taken.text {x lead y trail : Str} (h : ItemParts attrChar x lead y trail) : IsAttrText y := by
  rcases h.cases with ⟨rfl, -⟩ | rfl | ⟨-, letters, c, rest, rfl, -⟩
  · exact .inl ⟨by simp, List.all_eq_true.1 (by decide)⟩
  · exact .inr ⟨'*', rfl, by decide⟩
  · exact .inl ⟨by simp, letters⟩

theorem Taken.ne_nil {x : Str} (h : Taken x) : x ≠ [] := by
  obtain ⟨sp, y, sp', rfl, -, -, rfl | ⟨ne, -⟩⟩ := h
  · simp
  · simp [ne]

theorem Taken.letter {x : Str} (h : Taken x) {c : Char} (mem : c ∈ x) : c ≠ ',' ∧ c ≠ Char.ofNat 0 := by
  obtain ⟨sp, y, sp', rfl, lead, trail, text⟩ := h
  simp only [List.mem_append] at mem
  rcases mem with (mem | mem) | mem
  · rw [lead c mem]
    decide
  · rcases text with rfl | ⟨-, letters⟩
    · rw [List.mem_singleton.1 mem]
      decide
    · have letter := letters c mem
      constructor <;>
      · rintro rfl
        exact absurd letter (by decide)
  · rw [trail c mem]
    decide

/-! ## One match -/

section Match
variable {i : Nat} {w t : Str} {g : Groups}

theorem closes {close : Str} (h : close = [','] ∨ (close = [] ∧ t = [])) :
    Matches (.group 3 (.alt (.lit ',') .eol)) i close t := by
  rw [matches_group, matches_alt]
  rcases h with rfl | ⟨rfl, rfl⟩
  · exact .inl ⟨[], parses_lit.2 ⟨rfl, rfl⟩⟩
  · exact .inr ⟨[], .eol⟩

theorem itemMatches {y : Str} (text : IsAttrText y) :
    Matches (.group 2 (.alt (.plus (.set attrChar)) (.set starChar))) i y t := by
  rw [matches_group, matches_alt, matches_plus_set]
  rcases text with text | ⟨c, rfl, hc⟩
  · exact .inl text
  · exact .inr ⟨[], .set hc⟩

/-- A match, by its parts; there are never more leading spaces nor a longer text. -/
theorem exec_contAttr (h : exec contRegAttr i w t = some g) :
    ∃ head sp y sp' close, w = head ++ (sp ++ y ++ sp') ++ close ∧ ((head = [] ∧ i = 0) ∨ head = [',']) ∧
      (∀ c ∈ sp, c = ' ') ∧ IsAttrText y ∧ (∀ c ∈ sp', c = ' ') ∧ (close = [','] ∨ (close = [] ∧ t = [])) ∧
      g.lookup 2 = some ⟨i + (head ++ sp).length, i + (head ++ sp).length + y.length⟩ ∧
      ∀ sp₂ y₂ sp₂', sp ++ y ++ sp' = sp₂ ++ y₂ ++ sp₂' → (∀ c ∈ sp₂, c = ' ') → IsAttrText y₂ →
        (∀ c ∈ sp₂', c = ' ') → sp₂.length ≤ sp.length ∧ (sp₂.length = sp.length → y₂.length ≤ y.length) := by
  obtain ⟨head, w₁, g₁, _, rfl, rfl, h₁, h, -⟩ := exec_seq h
  obtain ⟨sp, w₂, gs, _, rfl, rfl, h₂, h, longSpaces⟩ := exec_seq h
  obtain ⟨y, w₃, g₂, _, rfl, rfl, h₃, h, longText⟩ := exec_seq h
  obtain ⟨sp', close, gs', g₃, rfl, rfl, h₄, h₅, -⟩ := exec_seq h
  obtain ⟨g₁', rfl, front⟩ := parses_group.1 (exec_sound h₁)
  obtain ⟨lead, rfl⟩ := parses_spaces.1 (exec_sound h₂)
  obtain ⟨g₂', rfl, item⟩ := parses_group.1 (exec_sound h₃)
  obtain ⟨trail, rfl⟩ := parses_spaces.1 (exec_sound h₄)
  obtain ⟨g₃', rfl, final⟩ := parses_group.1 (exec_sound h₅)
  have back : (close = [','] ∨ (close = [] ∧ t = [])) ∧ g₃' = [] := by
    rcases parses_alt.1 final with back | back
    · obtain ⟨rfl, rfl⟩ := parses_lit.1 back
      exact ⟨.inl rfl, rfl⟩
    · obtain ⟨rfl, rfl, rfl⟩ := parses_eol.1 back
      exact ⟨.inr ⟨rfl, rfl⟩, rfl⟩
  obtain ⟨closed, rfl⟩ := back
  have opened : (head = [] ∧ i = 0) ∨ head = [','] := by
    rcases parses_alt.1 front with front | front
    · obtain ⟨rfl, rfl, -⟩ := parses_bol.1 front
      exact .inl ⟨rfl, rfl⟩
    · exact .inr (parses_lit.1 front).1
  have text : IsAttrText y := by
    rcases parses_alt.1 item with item | item
    · obtain ⟨ne, letters, -⟩ := parses_plus_set.1 item
      exact .inl ⟨ne, letters⟩
    · obtain ⟨c, rfl, hc, -⟩ := parses_set.1 item
      exact .inr ⟨c, rfl, hc⟩
  refine ⟨head, sp, y, sp', close, by simp, opened, lead, text, trail, closed, ?_, ?_⟩
  · simp [List.lookup_cons]
    omega
  · intro sp₂ y₂ sp₂' e lead₂ text₂ trail₂
    have closeParses : ∀ {i : Nat} {v : Str}, (∀ c ∈ v, c = ' ') →
        Matches (.seq spaces (.group 3 (.alt (.lit ',') .eol))) i (v ++ close) t := by
      intro i v spaces
      rw [matches_seq]
      exact ⟨v, close, rfl, ⟨_, parses_spaces.2 ⟨spaces, rfl⟩⟩, closes closed⟩
    have whole : sp ++ (y ++ (sp' ++ close)) = sp₂ ++ (y₂ ++ (sp₂' ++ close)) := by
      simpa using congrArg (· ++ close) e
    constructor
    · by_contra lt
      apply longSpaces sp₂ _ whole (by omega)
      constructor
      · exact ⟨_, parses_spaces.2 ⟨lead₂, rfl⟩⟩
      · change Matches _ _ _ _
        rw [matches_seq]
        exact ⟨y₂, sp₂' ++ close, rfl, itemMatches text₂, closeParses trail₂⟩
    · intro same
      obtain ⟨rfl, rest⟩ := List.append_inj whole same.symm
      by_contra lt
      apply longText y₂ _ rest (by omega)
      exact ⟨itemMatches text₂, closeParses trail₂⟩

/-- Any item between two commas is matched. -/
theorem contAttr_matches {head x close : Str} (opened : (head = [] ∧ i = 0) ∨ head = [',']) (taken : Taken x)
    (closed : close = [','] ∨ (close = [] ∧ t = [])) : Matches contRegAttr i (head ++ x ++ close) t := by
  obtain ⟨lead, y, trail, parts⟩ := taken.parts attrChar_space attrChar_star
  have text := Taken.text parts
  simp only [contRegAttr, spaces, matches_seq, matches_star_lit]
  refine ⟨head, lead ++ (y ++ (trail ++ close)), by simp [parts.whole], ?_, lead, _, rfl, parts.lead_spaces, y, _, rfl,
    itemMatches text, trail, close, rfl, parts.trail_spaces, closes closed⟩
  rw [matches_group, matches_alt]
  rcases opened with ⟨rfl, rfl⟩ | rfl
  · exact .inl ⟨[], .bol⟩
  · exact .inr ⟨[], parses_lit.2 ⟨rfl, rfl⟩⟩

/-- Where the text stored of a match stands. -/
theorem contAttr_group {head x close : Str} (h : exec contRegAttr i (head ++ x ++ close) t = some g)
    (opened : head = [] ∨ head = [',']) (taken : Taken x) (closed : close = [] ∨ close = [',']) :
    g.lookup 2 = some ⟨i + head.length + (itemSpan x).so, i + head.length + (itemSpan x).eo⟩ := by
  obtain ⟨head', sp, y, sp', close', e, opened', lead, text, trail, closed', lookup, longest⟩ := exec_contAttr h
  have inner := taken_of lead text trail
  obtain ⟨c, rest, ne⟩ := List.exists_cons_of_ne_nil taken.ne_nil
  obtain ⟨c', rest', ne'⟩ := List.exists_cons_of_ne_nil inner.ne_nil
  have first : c ≠ ',' := (taken.letter (c := c) (by simp [ne])).1
  have first' : c' ≠ ',' := (inner.letter (c := c') (by simp [ne'])).1
  obtain rfl : head = head' := by
    rw [ne, ne'] at e
    rcases opened with rfl | rfl <;> rcases opened' with ⟨rfl, -⟩ | rfl
    · rfl
    · simp only [List.nil_append, List.cons_append, List.cons.injEq] at e
      exact absurd e.1 first
    · simp only [List.nil_append, List.cons_append, List.cons.injEq] at e
      exact absurd e.1.symm first'
    · rfl
  rw [List.append_assoc, List.append_assoc] at e
  have e := List.append_cancel_left e
  obtain rfl : x = sp ++ y ++ sp' := by
    have noComma : ∀ {x : Str}, Taken x → ∀ d ∈ x, (d != ',') = true := fun h d mem => by simpa using (h.letter mem).1
    have closing : ∀ {close : Str}, close = [] ∨ close = [','] → ∀ d ∈ close.head?, (d != ',') = false := by
      rintro close (rfl | rfl) d mem
      · cases mem
      · cases mem
        decide
    have cut := (run_split (noComma taken) (closing closed)).1
    have cut' := (run_split (noComma inner) (closing (closed'.symm.imp_left And.left))).1
    rw [e] at cut
    exact cut.symm.trans cut'
  obtain ⟨lead₂, y₂, trail₂, parts⟩ := taken.parts attrChar_space attrChar_star
  obtain ⟨le, long⟩ := longest lead₂ y₂ trail₂ parts.whole parts.lead_spaces (Taken.text parts) parts.trail_spaces
  have whole := parts.whole
  have total := congrArg List.length whole
  simp only [List.length_append] at total
  have positive := List.length_pos_iff.2 text.ne_nil
  have start : sp.length ≤ lead₂.length := by
    by_contra lt
    have inSpaces : (sp ++ y ++ sp')[lead₂.length]? = some ' ' := by
      rw [List.append_assoc, List.getElem?_append_left (by omega), List.getElem?_eq_getElem (by omega),
        lead _ (List.getElem_mem _)]
    rw [whole, List.append_assoc, List.getElem?_append_right (le_refl _), Nat.sub_self] at inSpaces
    rcases parts.cases with ⟨rfl, rfl⟩ | rfl | ⟨-, -, d, more, rfl, ne_space, -⟩
    · simp only [List.length_singleton, List.length_nil] at total
      omega
    · cases inSpaces
    · exact ne_space (Option.some.inj inSpaces)
  have same : lead₂.length = sp.length := le_antisymm le start
  have stop : y.length ≤ y₂.length := by
    rcases parts.cases with ⟨rfl, rfl⟩ | rfl | ⟨rfl, -⟩
    · simp only [List.length_nil] at total
      omega
    · rw [List.append_assoc, List.append_assoc] at whole
      obtain ⟨-, rest⟩ := List.append_inj whole same.symm
      rcases text with ⟨-, letters⟩ | ⟨d, rfl, -⟩
      · obtain ⟨d, more, rfl⟩ := List.exists_cons_of_ne_nil (List.length_pos_iff.1 positive)
        obtain ⟨rfl, -⟩ := List.cons.inj rest
        exact absurd (letters _ List.mem_cons_self) (by decide)
      · rfl
    · simp only [List.length_nil] at total
      omega
  have long := long same
  rw [parts.span, lookup, List.length_append, same]
  simp only [Option.some.injEq, Span.mk.injEq]
  omega

end Match

/-! ## The leftmost longest match -/

section Search
variable {p head x close t : Str}

/-- The items in front of a match: none at the start, else those before its comma. -/
def Opens (p head : Str) (before : List Str) : Prop :=
  (head = [] ∧ p = [] ∧ before = []) ∨ (head = [','] ∧ before = p.splitOnP comma)

theorem Taken.noComma (h : Taken x) : ∀ c ∈ x, comma c = false := by
  intro c mem
  simpa [comma] using (h.letter mem).1

theorem split_item {before : List Str} (opened : Opens p head before) (taken : Taken x)
    (closed : close = [','] ∨ (close = [] ∧ t = [])) :
    ∃ after, (p ++ (head ++ x ++ close) ++ t).splitOnP comma = before ++ x :: after := by
  have here : ∃ after, (x ++ close ++ t).splitOnP comma = x :: after := by
    rcases closed with rfl | ⟨rfl, rfl⟩
    · refine ⟨t.splitOnP comma, ?_⟩
      rw [List.append_assoc]
      exact List.splitOnP_append_cons_of_forall_mem taken.noComma ',' rfl t
    · refine ⟨[], ?_⟩
      rw [List.append_nil, List.append_nil]
      exact List.splitOnP_eq_singleton taken.noComma
  obtain ⟨after, here⟩ := here
  refine ⟨after, ?_⟩
  rcases opened with ⟨rfl, rfl, rfl⟩ | ⟨rfl, rfl⟩
  · simpa using here
  · rw [← here, List.append_assoc, List.append_assoc, List.append_assoc, List.singleton_append, List.append_assoc]
    exact List.splitOnP_append_cons p (x ++ (close ++ t)) rfl

/-- A parse is an item with the commas beside it. -/
theorem parse_item {w : Str} {g : Groups} (h : Parses contRegAttr p.length w t g) :
    ∃ head x close before after, w = head ++ x ++ close ∧ Taken x ∧ Opens p head before ∧
      (close = [','] ∨ (close = [] ∧ t = [])) ∧ (p ++ w ++ t).splitOnP comma = before ++ x :: after := by
  obtain ⟨head, sp, y, sp', close, rfl, opened, lead, text, trail, closed, -⟩ := parses_contAttr h
  have taken := taken_of lead text trail
  have opens : ∃ before, Opens p head before := by
    rcases opened with ⟨rfl, zero⟩ | rfl
    · exact ⟨[], .inl ⟨rfl, List.eq_nil_of_length_eq_zero zero, rfl⟩⟩
    · exact ⟨_, .inr ⟨rfl, rfl⟩⟩
  obtain ⟨before, opens⟩ := opens
  obtain ⟨after, split⟩ := split_item opens taken closed
  refine ⟨head, sp ++ y ++ sp', close, before, after, by simp, taken, opens, closed, ?_⟩
  rw [← split]
  simp

theorem behind_shorter {p p' r r' : Str} {c : Char} (e : p' ++ c :: r' = p ++ r) (lt : p'.length < p.length) :
    ∃ d, p = p' ++ c :: d ∧ r' = d ++ r := by
  rcases List.append_eq_append_iff.1 e with ⟨a, rfl, rest⟩ | ⟨d, rfl, rest⟩
  · cases a with
    | nil => simp at lt
    | cons b a =>
      obtain ⟨rfl, tail⟩ := List.cons.inj rest
      exact ⟨a, rfl, tail⟩
  · rw [List.length_append] at lt
    omega

/-- No match starts before the first item that is matched. -/
theorem not_earlier {before after : List Str} (opened : Opens p head before) (none : ∀ b ∈ before, ¬ Taken b)
    {w' p' t' : Str} {g : Groups} (split : (p' ++ w' ++ t').splitOnP comma = before ++ x :: after)
    (e : p' ++ w' ++ t' = p ++ (head ++ x ++ close) ++ t) (lt : p'.length < p.length) :
    ¬ Parses contRegAttr p'.length w' t' g := by
  intro parse
  obtain ⟨head', x', close', before', after', rfl, taken', opened', -, split'⟩ := parse_item parse
  rw [split] at split'
  rcases opened with ⟨-, rfl, -⟩ | ⟨-, rfl⟩
  · simp at lt
  · obtain ⟨b, bs, parts⟩ := List.exists_cons_of_ne_nil (List.splitOnP_ne_nil comma p)
    rcases opened' with ⟨-, -, rfl⟩ | ⟨rfl, rfl⟩
    · rw [parts] at split' none
      obtain ⟨rfl, -⟩ := List.cons.inj split'
      exact none b List.mem_cons_self taken'
    · -- the comma of the earlier match stands in `p`, so its item does too
      have behind : p' ++ ',' :: (x' ++ close' ++ t') = p ++ (head ++ x ++ close ++ t) := by simpa using e
      obtain ⟨d, rfl, -⟩ := behind_shorter behind lt
      rw [List.splitOnP_append_cons p' d rfl, List.append_assoc] at split'
      have split' := List.append_cancel_left split'
      obtain ⟨y, ys, inner⟩ := List.exists_cons_of_ne_nil (List.splitOnP_ne_nil comma d)
      rw [inner] at split'
      obtain ⟨rfl, -⟩ := List.cons.inj split'
      apply none y _ taken'
      rw [List.splitOnP_append_cons p' d rfl, inner]
      simp

/-- No longer match starts there. -/
theorem not_longer {before after : List Str} (opened : Opens p head before) (none : ∀ b ∈ before, ¬ Taken b)
    (taken : Taken x) (closed : close = [','] ∨ (close = [] ∧ t = [])) {w' t' : Str} {g : Groups}
    (split : (p ++ (head ++ x ++ close) ++ t).splitOnP comma = before ++ x :: after)
    (e : (head ++ x ++ close) ++ t = w' ++ t') (lt : (head ++ x ++ close).length < w'.length) :
    ¬ Parses contRegAttr p.length w' t' g := by
  intro parse
  obtain ⟨head', x', close', before', after', rfl, taken', opened', closed', split'⟩ := parse_item parse
  rw [List.append_assoc p, ← e, ← List.append_assoc p, split] at split'
  have same : head' = head ∧ x' = x := by
    rcases opened with ⟨rfl, rfl, rfl⟩ | ⟨rfl, rfl⟩ <;> rcases opened' with ⟨rfl, -, rfl⟩ | ⟨rfl, rfl⟩
    · obtain ⟨rfl, -⟩ := List.cons.inj split'
      exact ⟨rfl, rfl⟩
    · obtain ⟨rfl, -⟩ := List.cons.inj split'
      exact absurd rfl taken.ne_nil
    · obtain ⟨b, bs, parts⟩ := List.exists_cons_of_ne_nil (List.splitOnP_ne_nil comma p)
      rw [parts] at split' none
      obtain ⟨rfl, -⟩ := List.cons.inj split'
      exact absurd taken' (none b List.mem_cons_self)
    · obtain ⟨rfl, -⟩ := List.cons.inj (List.append_cancel_left split')
      exact ⟨rfl, rfl⟩
  obtain ⟨rfl, rfl⟩ := same
  have total := congrArg List.length e
  simp only [List.length_append] at total lt
  rcases closed with rfl | ⟨rfl, rfl⟩
  · rcases closed' with rfl | ⟨rfl, -⟩
    · omega
    · simp only [List.length_nil] at lt
      omega
  · simp only [List.length_nil] at total lt
    omega

/-- The match in a list is its first item of the expression. -/
theorem contAttr_search {before : List Str} (opened : Opens p head before) (none : ∀ b ∈ before, ¬ Taken b)
    (taken : Taken x) (closed : close = [','] ∨ (close = [] ∧ t = [])) :
    ∃ g, regexec contRegAttr (p ++ (head ++ x ++ close) ++ t) =
        some ⟨p.length, (head ++ x ++ close).length, g⟩ ∧
      g.lookup 2 = some ⟨p.length + head.length + (itemSpan x).so, p.length + head.length + (itemSpan x).eo⟩ := by
  obtain ⟨after, split⟩ := split_item opened taken closed
  have position : (head = [] ∧ p.length = 0) ∨ head = [','] := by
    rcases opened with ⟨rfl, rfl, -⟩ | ⟨rfl, -⟩
    · exact .inl ⟨rfl, rfl⟩
    · exact .inr rfl
  obtain ⟨g₀, parse⟩ := contAttr_matches (i := p.length) (t := t) position taken closed
  have here : Parses contRegAttr (0 + p.length) (head ++ x ++ close) t g₀ := by rwa [Nat.zero_add]
  obtain ⟨g, found, -⟩ := search_exists here
    (by
      intro p' w' t' e lt g parse
      rw [Nat.zero_add] at parse
      rw [e] at split
      exact not_earlier opened none split e.symm lt parse)
    (by
      intro w' t' e lt g parse
      rw [Nat.zero_add] at parse
      exact not_longer opened none taken closed split e lt parse)
  rw [Nat.zero_add] at found
  refine ⟨g, found, ?_⟩
  obtain ⟨p₁, w₁, t₁, e, so, len, run⟩ := search_exec found
  rw [Nat.zero_add] at so
  dsimp only at so len run
  obtain ⟨front, rfl⟩ := List.append_inj e (by simp only [List.length_append] at len ⊢; omega)
  obtain ⟨rfl, rfl⟩ := List.append_inj front so
  apply contAttr_group run (position.imp_left And.left) taken
  rcases closed with rfl | ⟨rfl, -⟩
  · exact .inr rfl
  · exact .inl rfl

/-- Where no item is one of the expression, nothing is matched. -/
theorem contAttr_search_none {s : Str} (untaken : ∀ b ∈ s.splitOnP comma, ¬ Taken b) :
    regexec contRegAttr s = none := by
  refine search_none.2 ?_
  intro p w t g e parse
  rw [Nat.zero_add] at parse
  obtain ⟨head, x, close, before, after, -, taken, -, -, split⟩ := parse_item parse
  rw [← e] at split
  exact untaken x (by rw [split]; simp) taken

end Search

/-! ## One round of the loop -/

theorem items_str (row : Text) : (items row).map str = row.str.splitOnP comma := (split_map Letter.char row).symm

theorem untaken_str {row : Text} {before : List Text} (parts : items row = before) (none : ∀ b ∈ before, ¬ Taken b.str) :
    ∀ b ∈ row.str.splitOnP comma, ¬ Taken b := by
  intro b mem
  rw [← items_str, parts] at mem
  obtain ⟨t, inBefore, rfl⟩ := List.mem_map.1 mem
  exact none t inBefore

theorem Text.erase_at (a w b : Text) : (a ++ w ++ b).erase a.length w.length = a ++ b := by
  rw [Text.erase, List.append_assoc, List.take_left, ← List.append_assoc, ← List.length_append, List.drop_left]

theorem Text.substr_inner {a x b : Text} {s : Span} (le : s.eo ≤ x.length) :
    (a ++ x ++ b).substr ⟨a.length + s.so, a.length + s.eo⟩ = x.substr s := by
  rw [Text.substr, Text.substr, List.append_assoc, ← List.drop_drop, List.drop_left,
    show a.length + s.eo - (a.length + s.so) = s.eo - s.so by omega]
  by_cases lt : s.so ≤ x.length
  · rw [List.drop_append_of_le_length lt, List.take_append_of_le_length (by rw [List.length_drop]; omega)]
  · rw [show s.eo - s.so = 0 by omega, List.take_zero, List.take_zero]

/-- The items after the match of one: the two beside it become one. The items in front
are given from the last to the first. -/
def closeUp : List Text → List Text → List Text
  | [], [] => [[]]
  | [], v :: after => v :: after
  | u :: before, [] => (u :: before).reverse
  | u :: before, v :: after => before.reverse ++ (u ++ v) :: after

/-- A row around one of its items: the commas beside it and what is in front and behind. -/
theorem row_at {row x : Text} {before after : List Text} (parts : items row = before ++ x :: after) :
    ∃ a head close b, row = a ++ (head ++ x ++ close) ++ b ∧
      ((before = [] ∧ a = [] ∧ head = []) ∨ (before ≠ [] ∧ str head = [','] ∧ items a = before)) ∧
      ((after = [] ∧ close = [] ∧ b = []) ∨ (after ≠ [] ∧ str close = [','] ∧ items b = after)) := by
  have back : ∀ {r : Text}, items r = x :: after → ∃ close b, r = x ++ close ++ b ∧
      ((after = [] ∧ close = [] ∧ b = []) ∨ (after ≠ [] ∧ str close = [','] ∧ items b = after)) := by
    intro r parts
    by_cases last : after = []
    · subst last
      exact ⟨[], [], by simp [split_singleton parts], .inl ⟨rfl, rfl, rfl⟩⟩
    · obtain ⟨y, c, b, rfl, hc, left, right⟩ := split_append (l := [x]) parts (by simp) last
      obtain rfl := split_singleton left
      exact ⟨[c], b, by simp, .inr ⟨last, by simpa [str, comma] using hc, right⟩⟩
  by_cases first : before = []
  · subst first
    obtain ⟨close, b, rfl, behind⟩ := back parts
    exact ⟨[], [], close, b, by simp, .inl ⟨rfl, rfl, rfl⟩, behind⟩
  · obtain ⟨a, c, r, rfl, hc, left, right⟩ := split_append parts first (by simp)
    obtain ⟨close, b, rfl, behind⟩ := back right
    exact ⟨a, [c], close, b, by simp, .inr ⟨first, by simpa [str, comma] using hc, left⟩, behind⟩

/-- The first item of the expression is cut out, and its text stored. -/
theorem item_round {row x : Text} {before after : List Text} (read : row.cStr = row.str)
    (parts : items row = before.reverse ++ x :: after) (none : ∀ b ∈ before, ¬ Taken b.str) (taken : Taken x.str) :
    ∃ m, regexec contRegAttr row.cStr = some m ∧
      StringMatch.extract [contRegAttrGroup] m row = [itemText x] ∧ items (row.erase m.so m.len) = closeUp before after := by
  obtain ⟨a, head, close, b, rfl, front, behind⟩ := row_at parts
  have opened : ∃ strs, Opens a.str head.str strs ∧ ∀ s ∈ strs, ¬ Taken s := by
    rcases front with ⟨-, rfl, rfl⟩ | ⟨-, one, first⟩
    · exact ⟨[], .inl ⟨rfl, rfl, rfl⟩, by simp⟩
    · refine ⟨_, .inr ⟨one, rfl⟩, untaken_str first ?_⟩
      intro u mem
      exact none u (List.mem_reverse.1 mem)
  obtain ⟨strs, opened, free⟩ := opened
  have closed : close.str = [','] ∨ (close.str = [] ∧ b.str = []) := by
    rcases behind with ⟨-, rfl, rfl⟩ | ⟨-, one, -⟩
    · exact .inr ⟨rfl, rfl⟩
    · exact .inl one
  obtain ⟨g, found, group⟩ := contAttr_search opened free taken closed
  refine ⟨_, by rw [read]; simpa only [str_append] using found, ?_, ?_⟩
  · obtain ⟨lead, y, trail, whole⟩ := taken.parts attrChar_space attrChar_star
    have inside : (itemSpan x.str).eo ≤ x.length := by
      rw [← str_length x, whole.whole, ← whole.whole, whole.span]
      have := congrArg List.length whole.whole
      simp only [List.length_append] at this
      dsimp only
      omega
    have text := substr_inner (a := a ++ head) (b := close ++ b) inside
    rw [List.length_append] at text
    simp only [str_length] at group
    simp only [StringMatch.extract, contRegAttrGroup, indexes, Match.group, List.map_cons, List.map_nil, group]
    simpa [itemText] using text
  · have erased := Text.erase_at a (head ++ x ++ close) b
    simp only [← str_append, str_length]
    rw [erased]
    rcases front with ⟨e, rfl, rfl⟩ | ⟨ne, -, first⟩
    · obtain rfl := List.reverse_eq_nil_iff.1 e
      rcases behind with ⟨rfl, -, rfl⟩ | ⟨ne, -, rest⟩
      · rfl
      · obtain ⟨v, after, rfl⟩ := List.exists_cons_of_ne_nil ne
        exact rest
    · obtain ⟨u, before, rfl⟩ := List.exists_cons_of_ne_nil (mt List.reverse_eq_nil_iff.2 ne)
      rcases behind with ⟨rfl, -, rfl⟩ | ⟨ne, -, rest⟩
      · rw [List.append_nil]
        exact first
      · obtain ⟨v, after, rfl⟩ := List.exists_cons_of_ne_nil ne
        rw [List.reverse_cons] at first
        exact split_glue first rest

end SqlHandler
