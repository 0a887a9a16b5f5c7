import SqlHandler.Container.Names

/-!
# The texts an attribute is loaded from

`SQLAttribute::loadAttribute` on its object, and the texts it is meant to take apart: a
dotted path, a path with an alias behind spaces or behind `AS` between spaces, and `*`.
The words of such a text say where its parts are (`Accepts.words`). `_SQLH_REG_ATTR`
has one space on each side of `AS`, and reads up to a NUL.
-/

namespace SqlHandler
open Posix Text

namespace SQLAttribute

/-! ## `loadAttribute` -/

def setFullName (fullName : Text) : Proc SQLAttribute Unit := modify fun a => { a with fullName }

def setName (name : Text) : Proc SQLAttribute Unit := modify fun a => { a with name }

/-- The chain of `if`s for the full name; the entry the name is in comes next. -/
def setFullPart (m : Matched) : Proc SQLAttribute Nat :=
  if m.test 1 then do setFullName (← m.getMatch 0); return 1
  else if m.test 4 then do setFullName (← m.getMatch 0); return 1
  else do setFullName []; return 0

/-- The chain of `if`s for the name. -/
def setNamePart (m : Matched) (i : Nat) : Proc SQLAttribute Bool := do
  if m.test 3 then setName (← m.getMatch i)
  else if m.test 8 then setName (← m.getMatch i)
  else if m.test 9 then setName (← m.getMatch i)
  else Proc.raise .besInternalError "Unable to match required attribute name.".toList
  return true

/-- `loadAttribute` on its object. -/
def loadInto (attr : Text) : Proc SQLAttribute Bool := do
  let (found, _) ← Proc.onLocal (StringMatch.matchSet (regexec regAttr) attrGroups) attr
  match found with
  | [m] => do setNamePart m (← setFullPart m)
  | _ => Proc.raise .besInternalError "Unable to match the SQLAttributes parts".toList

theorem getMatch_ok {σ τ : Type} {m : Matched} {i : Nat} {t : Text} {s s' : σ} (h : m.getMatch i s = .ok t s') (a : τ) :
    m.getMatch i a = .ok t a := by
  unfold Matched.getMatch at *
  cases e : m.found[i]? with
  | none =>
    rw [e] at h
    cases h
  | some x =>
    rw [e] at h
    cases h
    rfl

theorem setNamePart_ok {m : Matched} {i : Nat} {f fullName name t s' : Text}
    (h : (if m.test 3 then return (f, ← m.getMatch i)
      else if m.test 8 then return (f, ← m.getMatch i)
      else if m.test 9 then return (f, ← m.getMatch i)
      else Proc.raise .besInternalError "Unable to match required attribute name.".toList :
      Proc Text (Text × Text)) t = .ok (fullName, name) s') :
    f = fullName ∧ ∀ b, setNamePart m i b = .ok true { b with name } := by
  have named : ((do return (f, ← m.getMatch i)) : Proc Text (Text × Text)) t = .ok (fullName, name) s' →
      f = fullName ∧ ∀ b : SQLAttribute, m.getMatch i b = .ok name b := by
    intro run
    obtain ⟨n, t', got, same⟩ := Proc.of_bind_ok run
    cases same
    exact ⟨rfl, getMatch_ok got⟩
  unfold setNamePart
  split at h
  · obtain ⟨same, got⟩ := named h
    exact ⟨same, fun b => by rw [if_pos ‹_›, Proc.bind_ok (got b)]; rfl⟩
  · split at h
    · obtain ⟨same, got⟩ := named h
      exact ⟨same, fun b => by rw [if_neg ‹_›, if_pos ‹_›, Proc.bind_ok (got b)]; rfl⟩
    · split at h
      · obtain ⟨same, got⟩ := named h
        exact ⟨same, fun b => by rw [if_neg ‹_›, if_neg ‹_›, if_pos ‹_›, Proc.bind_ok (got b)]; rfl⟩
      · cases h

/-- The members are set to the parts. -/
theorem setParts_ok {m : Matched} {fullName name : Text} {s s' : Text} (h : parts m s = .ok (fullName, name) s')
    (a : SQLAttribute) : ∃ i, setFullPart m a = .ok i { a with fullName } ∧
      setNamePart m i { a with fullName } = .ok true { a with fullName, name } := by
  unfold parts at h
  unfold setFullPart
  split at h
  · obtain ⟨n, t', got, rest⟩ := Proc.of_bind_ok h
    obtain ⟨rfl, set⟩ := setNamePart_ok rest
    refine ⟨1, ?_, set _⟩
    rw [if_pos ‹_›, Proc.bind_ok (getMatch_ok got a)]
    rfl
  · split at h
    · obtain ⟨n, t', got, rest⟩ := Proc.of_bind_ok h
      obtain ⟨rfl, set⟩ := setNamePart_ok rest
      refine ⟨1, ?_, set _⟩
      rw [if_neg ‹_›, if_pos ‹_›, Proc.bind_ok (getMatch_ok got a)]
      rfl
    · obtain ⟨rfl, set⟩ := setNamePart_ok h
      refine ⟨0, ?_, set _⟩
      rw [if_neg ‹_›, if_neg ‹_›]
      rfl

variable {attr : Text} {m : Match}

/-- The parts the constructor stores are those the object is given. -/
theorem loadInto_of_make {pos : Nat} {fullName name : Text} (h : make attr pos = .ok ⟨attr, fullName, name, pos⟩)
    (a : SQLAttribute) : loadInto attr a = .ok true { a with fullName, name } := by
  cases e : regexec regAttr attr.cStr with
  | none =>
    obtain ⟨fault, run⟩ := loadAttribute_none e
    rw [make, run] at h
    cases h
  | some m =>
    obtain ⟨full, name', run, -, -, -, index⟩ := parts_found e (attr.erase m.so m.len)
    rw [make, loadAttribute_found e index, run] at h
    cases h
    have found : (Proc.onLocal (StringMatch.matchSet (regexec regAttr) attrGroups) attr : Proc SQLAttribute _) a =
        .ok ([StringMatch.extractSet attrGroups m attr], attr.erase m.so m.len) a := by
      unfold Proc.onLocal
      rw [matchSet_found e index]
      rfl
    obtain ⟨i, full, set⟩ := setParts_ok run a
    unfold loadInto
    rw [Proc.bind_ok found]
    dsimp only
    rw [Proc.bind_ok full]
    exact set

/-- A matched text is taken apart. -/
theorem loadInto_found (h : regexec regAttr attr.cStr = some m) :
    ∃ fullName name, AttrForm attr.cStr fullName.str name.str ∧
      ∀ a, loadInto attr a = .ok true { a with fullName, name } := by
  obtain ⟨fullName, name, form, -, -, run⟩ := make_found h
  exact ⟨fullName, name, form, loadInto_of_make (run 0)⟩

/-- Any other text leaves the object as it was. -/
theorem loadInto_none (h : regexec regAttr attr.cStr = none) (a : SQLAttribute) :
    ∃ e, loadInto attr a = .error (.error e) a := by
  have run : StringMatch.matchSet (regexec regAttr) attrGroups attr = .ok [] attr :=
    (StringMatch.matchSet_iff regAttr_cutting).2 ⟨[], .stop h, rfl⟩
  have found : (Proc.onLocal (StringMatch.matchSet (regexec regAttr) attrGroups) attr : Proc SQLAttribute _) a =
      .ok ([], attr) a := by
    unfold Proc.onLocal
    rw [run]
    rfl
  refine ⟨⟨.besInternalError, "Unable to match the SQLAttributes parts".toList⟩, ?_⟩
  unfold loadInto
  rw [Proc.bind_ok found]
  rfl

end SQLAttribute

/-! ## The texts -/

/-- A text of one of the forms, with its full name and its name. -/
inductive Accepts : Str → Str → Str → Prop where
  | path {sp sp' : Str} (p : AttrPath) (lead : ∀ c ∈ sp, c = ' ') (trail : ∀ c ∈ sp', c = ' ') :
      Accepts (sp ++ p.text ++ sp') p.text p.last
  | spaced {sp sep name sp' : Str} (p : AttrPath) (lead : ∀ c ∈ sp, c = ' ') (sep_ne : sep ≠ [])
      (sep_spaces : ∀ c ∈ sep, c = ' ') (name_ne : name ≠ []) (name_ok : ∀ c ∈ name, nameChar c = true)
      (trail : ∀ c ∈ sp', c = ' ') : Accepts (sp ++ p.text ++ (sep ++ name) ++ sp') p.text name
  | keyword {sp gap gap' name sp' : Str} {a s : Char} (p : AttrPath) (lead : ∀ c ∈ sp, c = ' ') (gap_ne : gap ≠ [])
      (gap_spaces : ∀ c ∈ gap, c = ' ') (isA : a = 'A' ∨ a = 'a') (isS : s = 'S' ∨ s = 's') (gap'_ne : gap' ≠ [])
      (gap'_spaces : ∀ c ∈ gap', c = ' ') (name_ne : name ≠ []) (name_ok : ∀ c ∈ name, nameChar c = true)
      (trail : ∀ c ∈ sp', c = ' ') : Accepts (sp ++ p.text ++ (gap ++ [a, s] ++ gap' ++ name) ++ sp') p.text name
  | star {sp sp' : Str} (lead : ∀ c ∈ sp, c = ' ') (trail : ∀ c ∈ sp', c = ' ') : Accepts (sp ++ ['*'] ++ sp') [] ['*']

/-- An alias behind `AS` with more than one space on a side of it. -/
def WideKeyword (w : Str) : Prop :=
  ∃ (sp gap gap' name sp' : Str) (a s : Char) (p : AttrPath), w = sp ++ p.text ++ (gap ++ [a, s] ++ gap' ++ name) ++ sp' ∧
    (∀ c ∈ sp, c = ' ') ∧ gap ≠ [] ∧ (∀ c ∈ gap, c = ' ') ∧ (a = 'A' ∨ a = 'a') ∧ (s = 'S' ∨ s = 's') ∧ gap' ≠ [] ∧
    (∀ c ∈ gap', c = ' ') ∧ name ≠ [] ∧ (∀ c ∈ name, nameChar c = true) ∧ (∀ c ∈ sp', c = ' ') ∧
    (1 < gap.length ∨ 1 < gap'.length)

/-! ## Words -/

/-- The text without the spaces around it. -/
def trim (w : Str) : Str := ((w.dropWhile (· == ' ')).reverse.dropWhile (· == ' ')).reverse

/-- The first word, what is behind it without the last word, the last word. -/
def words (w : Str) : Str × Str × Str :=
  let behind := (trim w).dropWhile (· != ' ')
  ((trim w).takeWhile (· != ' '), (behind.reverse.dropWhile (· != ' ')).reverse,
    (behind.reverse.takeWhile (· != ' ')).reverse)

theorem trim_of {sp w sp' : Str} (lead : ∀ c ∈ sp, c = ' ') (trail : ∀ c ∈ sp', c = ' ') (ne : w ≠ [])
    (first : ∀ c ∈ w.head?, c ≠ ' ') (last : ∀ c ∈ w.getLast?, c ≠ ' ') : trim (sp ++ w ++ sp') = w := by
  have front : (sp ++ (w ++ sp')).dropWhile (· == ' ') = w ++ sp' := by
    refine (run_split (fun c h => by simp [lead c h]) fun c h => ?_).2
    rw [List.head?_append_of_ne_nil _ ne] at h
    simpa using first c h
  have back : (sp'.reverse ++ w.reverse).dropWhile (· == ' ') = w.reverse := by
    refine (run_split (fun c h => by simp [trail c (List.mem_reverse.1 h)]) fun c h => ?_).2
    rw [List.head?_reverse] at h
    simpa using last c h
  rw [trim, List.append_assoc, front, List.reverse_append, back, List.reverse_reverse]

section Words
variable {sp first sep last sp' : Str}

theorem words_single (lead : ∀ c ∈ sp, c = ' ') (trail : ∀ c ∈ sp', c = ' ') (ne : first ≠ [])
    (word : ∀ c ∈ first, c ≠ ' ') : words (sp ++ first ++ sp') = (first, [], []) := by
  have core : trim (sp ++ first ++ sp') = first := trim_of lead trail ne
    (fun c h => word c (List.mem_of_mem_head? h)) fun c h => word c (List.mem_of_mem_getLast? h)
  have split := run_split (p := (· != ' ')) (a := first) (b := []) (fun c h => by simpa using word c h)
    fun c h => by cases h
  rw [List.append_nil] at split
  simp only [words, core, split.1, split.2]
  rfl

theorem words_aliased (lead : ∀ c ∈ sp, c = ' ') (trail : ∀ c ∈ sp', c = ' ') (ne : first ≠ [])
    (word : ∀ c ∈ first, c ≠ ' ') (opens : sep.head? = some ' ') (closes : sep.getLast? = some ' ')
    (last_ne : last ≠ []) (last_word : ∀ c ∈ last, c ≠ ' ') :
    words (sp ++ first ++ (sep ++ last) ++ sp') = (first, sep, last) := by
  have core : trim (sp ++ first ++ (sep ++ last) ++ sp') = first ++ (sep ++ last) := by
    rw [List.append_assoc sp]
    refine trim_of lead trail (by simp [ne]) (fun c h => ?_) fun c h => ?_
    · rw [List.head?_append_of_ne_nil _ ne] at h
      exact word c (List.mem_of_mem_head? h)
    · rw [← List.append_assoc, List.getLast?_append_of_ne_nil _ last_ne] at h
      exact last_word c (List.mem_of_mem_getLast? h)
  have front := run_split (p := (· != ' ')) (a := first) (b := sep ++ last) (fun c h => by simpa using word c h)
    fun c h => by
      rw [List.head?_append, opens] at h
      cases h
      rfl
  have back := run_split (p := (· != ' ')) (a := last.reverse) (b := sep.reverse)
    (fun c h => by simpa using last_word c (List.mem_reverse.1 h)) fun c h => by
      rw [List.head?_reverse, closes] at h
      cases h
      rfl
  simp only [words, core, front.1, front.2, List.reverse_append, back.1, back.2, List.reverse_reverse]

/-- Spaces open and close with a space. -/
theorem spaces_ends {g : Str} (ne : g ≠ []) (spaces : ∀ c ∈ g, c = ' ') : g.head? = some ' ' ∧ g.getLast? = some ' ' := by
  constructor
  · rw [List.head?_eq_some_head ne, spaces _ (List.head_mem ne)]
  · rw [List.getLast?_eq_some_getLast ne, spaces _ (List.getLast_mem ne)]

end Words

/-- The full name and the name by the words of a text. -/
def readWords : Str × Str × Str → Str × Str
  | (first, _, []) => if first = ['*'] then ([], ['*']) else (first, lastOf first)
  | (first, _, last) => (first, last)

theorem AttrPath.letter_space (p : AttrPath) : ∀ c ∈ p.text, c ≠ ' ' := fun _ h => (p.letter_ne h).1

theorem name_space {name : Str} (ok : ∀ c ∈ name, nameChar c = true) : ∀ c ∈ name, c ≠ ' ' :=
  fun c h => (nameChar_ne (ok c h)).1

/-- What stands between a path and an alias behind a keyword. -/
theorem keyword_ends {gap gap' : Str} {a s : Char} (gap_ne : gap ≠ []) (gap_spaces : ∀ c ∈ gap, c = ' ')
    (gap'_ne : gap' ≠ []) (gap'_spaces : ∀ c ∈ gap', c = ' ') :
    (gap ++ [a, s] ++ gap').head? = some ' ' ∧ (gap ++ [a, s] ++ gap').getLast? = some ' ' := by
  constructor
  · rw [List.append_assoc, List.head?_append_of_ne_nil _ gap_ne]
    exact (spaces_ends gap_ne gap_spaces).1
  · rw [List.getLast?_append_of_ne_nil _ gap'_ne]
    exact (spaces_ends gap'_ne gap'_spaces).2

theorem readWords_alias {first sep last : Str} (ne : last ≠ []) : readWords (first, sep, last) = (first, last) := by
  obtain ⟨c, rest, rfl⟩ := List.exists_cons_of_ne_nil ne
  rfl

/-- The parts of a text are where its words say. -/
theorem Accepts.read {w full name : Str} (h : Accepts w full name) : readWords (words w) = (full, name) := by
  cases h with
  | path p lead trail =>
    rw [words_single lead trail p.text_ne p.letter_space, readWords, if_neg, p.lastOf_text]
    intro star
    exact (p.letter_ne (c := '*') (by rw [star]; exact List.mem_singleton_self _)).2.1 rfl
  | spaced p lead sep_ne sep_spaces name_ne name_ok trail =>
    obtain ⟨opens, closes⟩ := spaces_ends sep_ne sep_spaces
    rw [words_aliased lead trail p.text_ne p.letter_space opens closes name_ne (name_space name_ok),
      readWords_alias name_ne]
  | keyword p lead gap_ne gap_spaces isA isS gap'_ne gap'_spaces name_ne name_ok trail =>
    obtain ⟨opens, closes⟩ := keyword_ends gap_ne gap_spaces gap'_ne gap'_spaces
    rw [words_aliased lead trail p.text_ne p.letter_space opens closes name_ne (name_space name_ok),
      readWords_alias name_ne]
  | star lead trail =>
    rw [words_single lead trail (List.cons_ne_nil _ _) (fun c h => by rw [List.mem_singleton.1 h]; decide)]
    rfl

/-- A text has one full name and one name. -/
theorem Accepts.unique {w full name full' name' : Str} (h : Accepts w full name) (h' : Accepts w full' name') :
    full = full' ∧ name = name' := by
  have same := h.read.symm.trans h'.read
  exact ⟨congrArg Prod.fst same, congrArg Prod.snd same⟩

/-! ## The forms the expression has -/

theorem AttrForm.accepts {w full name : Str} (h : AttrForm w full name) : Accepts w full name := by
  cases h with
  | path p lead trail => exact .path p lead trail
  | aliased p lead separator ne ok trail =>
    rcases separator with ⟨sep_ne, spaces⟩ | ⟨a, s, rfl, isA, isS⟩
    · exact .spaced p lead sep_ne spaces ne ok trail
    · have one : ∀ c ∈ [' '], c = ' ' := fun c h => List.mem_singleton.1 h
      exact .keyword p lead (show [' '] ≠ [] by simp) one isA isS (show [' '] ≠ [] by simp) one ne ok trail
  | star lead trail => exact .star lead trail

/-- A run of spaces that is not longer than one is one space. -/
theorem one_space {gap : Str} (ne : gap ≠ []) (spaces : ∀ c ∈ gap, c = ' ') (short : ¬ 1 < gap.length) : gap = [' '] := by
  obtain ⟨c, rest, rfl⟩ := List.exists_cons_of_ne_nil ne
  obtain rfl : c = ' ' := spaces c List.mem_cons_self
  obtain rfl : rest = [] := by
    refine List.eq_nil_of_length_eq_zero ?_
    rw [List.length_cons] at short
    omega
  rfl

theorem Accepts.form {w full name : Str} (h : Accepts w full name) (narrow : ¬ WideKeyword w) : AttrForm w full name := by
  cases h with
  | path p lead trail => exact .path p lead trail
  | spaced p lead sep_ne spaces ne ok trail => exact .aliased p lead (.inl ⟨sep_ne, spaces⟩) ne ok trail
  | @keyword sp gap gap' name sp' a s p lead gap_ne gap_spaces isA isS gap'_ne gap'_spaces ne ok trail =>
    have short : ¬ (1 < gap.length ∨ 1 < gap'.length) := fun wide => narrow
      ⟨sp, gap, gap', name, sp', a, s, p, rfl, lead, gap_ne, gap_spaces, isA, isS, gap'_ne, gap'_spaces, ne, ok, trail,
        wide⟩
    rw [not_or] at short
    obtain rfl := one_space gap_ne gap_spaces short.1
    obtain rfl := one_space gap'_ne gap'_spaces short.2
    exact .aliased p lead (.inr ⟨a, s, rfl, isA, isS⟩) ne ok trail
  | star lead trail => exact .star lead trail

theorem WideKeyword.accepts {w : Str} (h : WideKeyword w) : ∃ full name, Accepts w full name := by
  obtain ⟨sp, gap, gap', name, sp', a, s, p, rfl, lead, gap_ne, gap_spaces, isA, isS, gap'_ne, gap'_spaces, ne, ok, trail,
    -⟩ := h
  exact ⟨_, _, .keyword p lead gap_ne gap_spaces isA isS gap'_ne gap'_spaces ne ok trail⟩

theorem IsSeparator.ends {sep : Str} (h : IsSeparator sep) : sep.head? = some ' ' ∧ sep.getLast? = some ' ' := by
  rcases h with ⟨ne, spaces⟩ | ⟨a, s, rfl, -, -⟩
  · exact spaces_ends ne spaces
  · exact ⟨rfl, rfl⟩

theorem AttrForm.separator {w full name : Str} (h : AttrForm w full name) :
    (words w).2.1 = [] ∨ IsSeparator (words w).2.1 := by
  cases h with
  | path p lead trail =>
    rw [words_single lead trail p.text_ne p.letter_space]
    exact .inl rfl
  | aliased p lead separator ne ok trail =>
    obtain ⟨opens, closes⟩ := separator.ends
    rw [words_aliased lead trail p.text_ne p.letter_space opens closes ne (name_space ok)]
    exact .inr separator
  | star lead trail =>
    rw [words_single lead trail (List.cons_ne_nil _ _) (fun c h => by rw [List.mem_singleton.1 h]; decide)]
    exact .inl rfl

/-- `AS` with more than one space on a side is in no form of the expression. -/
theorem WideKeyword.no_form {w full name : Str} (h : WideKeyword w) : ¬ AttrForm w full name := by
  obtain ⟨sp, gap, gap', name', sp', a, s, p, rfl, lead, gap_ne, gap_spaces, isA, isS, gap'_ne, gap'_spaces, ne, ok, trail,
    wide⟩ := h
  intro form
  have separator := form.separator
  obtain ⟨opens, closes⟩ := keyword_ends (a := a) (s := s) gap_ne gap_spaces gap'_ne gap'_spaces
  rw [words_aliased lead trail p.text_ne p.letter_space opens closes ne (name_space ok)] at separator
  have notA : a ≠ ' ' := by rcases isA with rfl | rfl <;> decide
  rcases separator with empty | ⟨-, spaces⟩ | ⟨b, t, same, isB, -⟩
  · rw [List.append_assoc] at empty
    exact gap_ne (List.append_eq_nil_iff.1 empty).1
  · exact notA (spaces a (by simp))
  · have gapOne : gap.length = 1 := by
      obtain ⟨c, rest, rfl⟩ := List.exists_cons_of_ne_nil gap_ne
      cases rest with
      | nil => rfl
      | cons d rest =>
        have d_space : d = ' ' := gap_spaces d (by simp)
        simp only [List.cons_append, List.cons.injEq] at same
        rw [d_space] at same
        rcases isB with rfl | rfl
        · exact absurd same.2.1 (by decide)
        · exact absurd same.2.1 (by decide)
    have whole := congrArg List.length same
    simp only [List.length_append, List.length_cons, List.length_nil] at whole
    omega

/-! ## What is loaded -/

/-- No form has a NUL. -/
theorem Accepts.noNul {w full name : Str} (h : Accepts w full name) : Char.ofNat 0 ∉ w := by
  have space : ∀ {g : Str}, (∀ c ∈ g, c = ' ') → Char.ofNat 0 ∉ g := fun spaces nul => absurd (spaces _ nul) (by decide)
  have path : ∀ p : AttrPath, Char.ofNat 0 ∉ p.text := fun p nul => (p.letter_ne nul).2.2 rfl
  have letters : ∀ {g : Str}, (∀ c ∈ g, nameChar c = true) → Char.ofNat 0 ∉ g := fun ok nul => absurd (ok _ nul) (by decide)
  intro nul
  cases h with
  | path p lead trail =>
    rcases List.mem_append.1 nul with nul | nul
    · exact (List.mem_append.1 nul).elim (space lead) (path p)
    · exact space trail nul
  | spaced p lead sep_ne sep_spaces name_ne name_ok trail =>
    simp only [List.mem_append] at nul
    rcases nul with ((nul | nul) | (nul | nul)) | nul
    · exact space lead nul
    · exact path p nul
    · exact space sep_spaces nul
    · exact letters name_ok nul
    · exact space trail nul
  | @keyword sp gap gap' name sp' a s p lead gap_ne gap_spaces isA isS gap'_ne gap'_spaces name_ne name_ok trail =>
    have word : Char.ofNat 0 ∉ [a, s] := by
      rcases isA with rfl | rfl <;> rcases isS with rfl | rfl <;> decide
    simp only [List.mem_append] at nul
    rcases nul with ((nul | nul) | (((nul | nul) | nul) | nul)) | nul
    · exact space lead nul
    · exact path p nul
    · exact space gap_spaces nul
    · exact word nul
    · exact space gap'_spaces nul
    · exact letters name_ok nul
    · exact space trail nul
  | star lead trail =>
    simp only [List.mem_append, List.mem_singleton] at nul
    rcases nul with (nul | nul) | nul
    · exact space lead nul
    · exact absurd nul (by decide)
    · exact space trail nul

namespace SQLAttribute

/-- A text of one of the forms sets its full name and its name; any other raises and changes nothing. -/
def LoadsAsMeant (t : Text) : Prop :=
  (∀ full name, Accepts t.str full name → ∃ fullName' name' : Text, fullName'.str = full ∧ name'.str = name ∧
    ∀ a, loadInto t a = .ok true { a with fullName := fullName', name := name' }) ∧
  ((∀ full name, ¬ Accepts t.str full name) → ∀ a, ∃ e, loadInto t a = .error (.error e) a)

variable {t : Text}

/-- What is loaded is a form of what stands before a NUL. -/
theorem form_of_loaded {a a' : SQLAttribute} (h : loadInto t a = .ok true a') : ∃ full name, AttrForm t.cStr full name := by
  cases found : regexec regAttr t.cStr with
  | none =>
    obtain ⟨e, raised⟩ := loadInto_none found a
    rw [raised] at h
    cases h
  | some m =>
    obtain ⟨fullName, name, form, -⟩ := loadInto_found found
    exact ⟨_, _, form⟩

theorem wide_not_meant (wide : WideKeyword t.str) : ¬ LoadsAsMeant t := by
  intro meant
  obtain ⟨full, name, accepts⟩ := wide.accepts
  obtain ⟨fullName', name', -, -, run⟩ := meant.1 full name accepts
  obtain ⟨_, _, form⟩ := form_of_loaded (run ⟨[], [], [], 0⟩)
  rw [cStr_of_noNul accepts.noNul] at form
  exact wide.no_form form

/-- A text is loaded as it is meant to be if and only if `AS` has one space on each side, where
it stands before an alias, and no letters before a NUL are a text of their own. -/
theorem loadAttribute_meant_iff (t : Text) :
    LoadsAsMeant t ↔ ¬ WideKeyword t.str ∧
      (Char.ofNat 0 ∈ t.str → ∀ full name, Accepts t.cStr full name → WideKeyword t.cStr) := by
  constructor
  · intro meant
    refine ⟨fun wide => wide_not_meant wide meant, ?_⟩
    intro nul full name accepts
    by_contra narrow
    obtain ⟨m, found⟩ := (accepts.form narrow).found
    obtain ⟨fullName, name, -, run⟩ := loadInto_found found
    obtain ⟨e, raised⟩ := meant.2 (fun _ _ accepts => accepts.noNul nul) ⟨[], [], [], 0⟩
    rw [run] at raised
    cases raised
  · rintro ⟨narrow, hidden⟩
    constructor
    · intro full name accepts
      have read : t.cStr = t.str := cStr_of_noNul accepts.noNul
      have form := accepts.form narrow
      rw [← read] at form
      obtain ⟨m, found⟩ := form.found
      obtain ⟨fullName, name', form', run⟩ := loadInto_found found
      have whole := form'.accepts
      rw [read] at whole
      obtain ⟨rfl, rfl⟩ := accepts.unique whole
      exact ⟨fullName, name', rfl, rfl, run⟩
    · intro none a
      cases found : regexec regAttr t.cStr with
      | none => exact loadInto_none found a
      | some m =>
        obtain ⟨fullName, name, form, -⟩ := loadInto_found found
        by_cases nul : Char.ofNat 0 ∈ t.str
        · exact absurd form (hidden nul _ _ form.accepts).no_form
        · rw [cStr_of_noNul nul] at form
          exact absurd form.accepts (none _ _)

/-- Two spaces before `AS`. -/
theorem twoSpaces_rejected : ¬ LoadsAsMeant (Text.of .literal "temp  AS t".toList) := by
  refine wide_not_meant ?_
  rw [str_of]
  have letters : ∀ c ∈ "temp".toList, nameChar c = true := List.all_eq_true.1 (by decide)
  have name : ∀ c ∈ ['t'], nameChar c = true := List.all_eq_true.1 (by decide)
  exact ⟨[], [' ', ' '], [' '], ['t'], [], 'A', 'S', .single "temp".toList (by decide) letters, rfl, by simp, by simp,
    by simp, .inl rfl, .inl rfl, by simp, by simp, by simp, name, by simp, .inl (by simp)⟩

end SQLAttribute

end SqlHandler
