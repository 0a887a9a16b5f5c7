import SqlHandler.Container.Grammar

/-!
# What makes an attribute

`_SQLH_REG_ATTR` is anchored at both ends and has three alternatives: a dotted path, a
path with an alias behind it, and `*`. `make_ok` says which names an attribute that was
made can have, `make_path` that a dotted path always makes one.
-/

namespace SqlHandler
open Posix Text

/-! ## Dotted paths -/

/-- `([A-z0-9\_]+\.)*([A-z0-9\_]+)`, by its components. -/
structure AttrPath where
  init : List Str
  last : Str
  init_ok : ∀ c ∈ init, c ≠ [] ∧ ∀ x ∈ c, nameChar x = true
  last_ne : last ≠ []
  last_ok : ∀ x ∈ last, nameChar x = true

namespace AttrPath

/-- The qualifiers, each with its dot. -/
def qualifiers (p : AttrPath) : Str := p.init.flatMap (· ++ ['.'])

def text (p : AttrPath) : Str := p.qualifiers ++ p.last

theorem text_ne (p : AttrPath) : p.text ≠ [] := by simp [text, p.last_ne]

theorem letter (p : AttrPath) {x : Char} (h : x ∈ p.text) : nameChar x = true ∨ x = '.' := by
  rcases List.mem_append.1 h with h | h
  · obtain ⟨c, hc, h⟩ := List.mem_flatMap.1 h
    rcases List.mem_append.1 h with h | h
    · exact .inl ((p.init_ok c hc).2 x h)
    · exact .inr (List.mem_singleton.1 h)
  · exact .inl (p.last_ok x h)

end AttrPath

section Parse
variable {i n : Nat} {w t : Str} {g : Groups}

theorem matches_components : Matches (.star (.group n (.seq (.plus (.set nameChar)) (.lit '.')))) i w t ↔
    ∃ init : List Str, (∀ c ∈ init, c ≠ [] ∧ ∀ x ∈ c, nameChar x = true) ∧ w = init.flatMap (· ++ ['.']) := by
  constructor
  · rintro ⟨g, h⟩
    generalize er : Regex.star (.group n (.seq (.plus (.set nameChar)) (.lit '.'))) = r at h
    induction h with
    | starNil => exact ⟨[], by simp, rfl⟩
    | starCons ne left right _ ih =>
      cases er
      obtain ⟨init, ok, rfl⟩ := ih rfl
      obtain ⟨_, -, left⟩ := parses_group.1 left
      obtain ⟨c, d, _, _, rfl, -, hc, hd⟩ := parses_seq.1 left
      obtain ⟨hne, letters, -⟩ := parses_plus_set.1 hc
      obtain ⟨rfl, -⟩ := parses_lit.1 hd
      refine ⟨c :: init, ?_, by simp⟩
      intro x hx
      rcases List.mem_cons.1 hx with rfl | hx
      · exact ⟨hne, letters⟩
      · exact ok x hx
    | _ => cases er
  · rintro ⟨init, ok, rfl⟩
    induction init generalizing i with
    | nil => exact ⟨_, .starNil⟩
    | cons c init ih =>
      obtain ⟨ne, letters⟩ := ok c List.mem_cons_self
      obtain ⟨g, rest⟩ := ih (i := i + (c ++ ['.']).length) fun x hx => ok x (List.mem_cons_of_mem _ hx)
      refine ⟨_, .starCons (by simp) (.group (.seq (parses_plus_set.2 ⟨ne, letters, rfl⟩) (parses_lit.2 ⟨rfl, rfl⟩))) rest⟩

theorem matches_attrPath : Matches (attrPath n) i w t ↔ ∃ p : AttrPath, w = p.text := by
  simp only [attrPath, matches_seq, matches_components, matches_group, matches_plus_set]
  constructor
  · rintro ⟨_, last, rfl, ⟨init, ok, rfl⟩, ne, letters⟩
    exact ⟨⟨init, last, ok, ne, letters⟩, rfl⟩
  · rintro ⟨p, rfl⟩
    exact ⟨p.qualifiers, p.last, rfl, ⟨p.init, p.init_ok, rfl⟩, p.last_ne, p.last_ok⟩

/-- The groups of a path: the second is its last component, the first a qualifier. -/
theorem parses_attrPath (h : Parses (attrPath n) i w t g) :
    ∃ p : AttrPath, w = p.text ∧ (∀ e ∈ g, e.1 ∈ [n, n + 1]) ∧
      g.lookup (n + 1) = some ⟨i + p.qualifiers.length, i + p.qualifiers.length + p.last.length⟩ := by
  have numbers := parses_numbers h
  obtain ⟨q, last, ga, gb, rfl, rfl, left, right⟩ := parses_seq.1 h
  obtain ⟨init, ok, rfl⟩ := matches_components.1 ⟨_, left⟩
  obtain ⟨gl, rfl, final⟩ := parses_group.1 right
  obtain ⟨ne, letters, rfl⟩ := parses_plus_set.1 final
  refine ⟨⟨init, last, ok, ne, letters⟩, rfl, ?_, ?_⟩
  · intro e he
    have := numbers e he
    simpa [attrPath, Regex.numbers, Regex.plus, Regex.lit] using this
  · simp [AttrPath.qualifiers]

/-- What may stand between a path and its alias. -/
def IsSeparator (s : Str) : Prop :=
  (s ≠ [] ∧ ∀ c ∈ s, c = ' ') ∨ ∃ a b, s = [' ', a, b, ' '] ∧ (a = 'A' ∨ a = 'a') ∧ (b = 'S' ∨ b = 's')

theorem matches_separator : Matches attrSeparator i w t ↔ IsSeparator w := by
  simp only [attrSeparator, matches_alt, matches_plus_lit, matches_seq, matches_lit]
  refine or_congr Iff.rfl ?_
  simp only [Matches, parses_set, Bool.or_eq_true, beq_iff_eq]
  constructor
  · rintro ⟨_, _, rfl, rfl, _, _, rfl, ⟨_, a, rfl, ha, -⟩, _, _, rfl, ⟨_, b, rfl, hb, -⟩, rfl⟩
    exact ⟨a, b, rfl, ha, hb⟩
  · rintro ⟨a, b, rfl, ha, hb⟩
    exact ⟨[' '], _, rfl, rfl, [a], _, rfl, ⟨_, a, rfl, ha, rfl⟩, [b], _, rfl, ⟨_, b, rfl, hb, rfl⟩, rfl⟩

end Parse

/-- A path without qualifiers. -/
def AttrPath.single (x : Str) (ne : x ≠ []) (ok : ∀ c ∈ x, nameChar c = true) : AttrPath :=
  ⟨[], x, by simp, ne, ok⟩

theorem AttrPath.single_text {x : Str} {ne : x ≠ []} {ok : ∀ c ∈ x, nameChar c = true} :
    (AttrPath.single x ne ok).text = x := rfl

/-! ## The three forms -/

/-- The full name and the name of an attribute text. -/
inductive AttrForm : Str → Str → Str → Prop where
  | path {sp sp' : Str} (p : AttrPath) (lead : ∀ c ∈ sp, c = ' ') (trail : ∀ c ∈ sp', c = ' ') :
      AttrForm (sp ++ p.text ++ sp') p.text p.last
  | aliased {sp sep name sp' : Str} (p : AttrPath) (lead : ∀ c ∈ sp, c = ' ') (separator : IsSeparator sep)
      (name_ne : name ≠ []) (name_ok : ∀ c ∈ name, nameChar c = true) (trail : ∀ c ∈ sp', c = ' ') :
      AttrForm (sp ++ p.text ++ (sep ++ name) ++ sp') p.text name
  | star {sp sp' : Str} (lead : ∀ c ∈ sp, c = ' ') (trail : ∀ c ∈ sp', c = ' ') :
      AttrForm (sp ++ ['*'] ++ sp') [] ['*']

/-- The groups of a match of `_SQLH_REG_ATTR`: where the full name and the name stand. -/
inductive FormGroups (w : Str) (g : Groups) : Prop where
  | path {sp sp' : Str} (p : AttrPath) (word : w = sp ++ p.text ++ sp') (lead : ∀ c ∈ sp, c = ' ')
      (trail : ∀ c ∈ sp', c = ' ')
      (full : g.lookup 1 = some ⟨sp.length, sp.length + p.text.length⟩)
      (name : g.lookup 3 = some ⟨(sp ++ p.qualifiers).length, (sp ++ p.qualifiers).length + p.last.length⟩)
      (others : ∀ e ∈ g, e.1 ∈ [1, 2, 3])
  | aliased {sp sep name sp' : Str} (p : AttrPath) (word : w = sp ++ p.text ++ (sep ++ name) ++ sp')
      (lead : ∀ c ∈ sp, c = ' ') (separator : IsSeparator sep) (name_ne : name ≠ [])
      (name_ok : ∀ c ∈ name, nameChar c = true) (trail : ∀ c ∈ sp', c = ' ')
      (full : g.lookup 4 = some ⟨sp.length, sp.length + p.text.length⟩)
      (behind : g.lookup 8 = some ⟨(sp ++ p.text ++ sep).length, (sp ++ p.text ++ sep).length + name.length⟩)
      (others : ∀ e ∈ g, e.1 ∈ [4, 5, 6, 7, 8])
  | star {sp sp' : Str} (word : w = sp ++ ['*'] ++ sp') (lead : ∀ c ∈ sp, c = ' ') (trail : ∀ c ∈ sp', c = ' ')
      (name : g.lookup 9 = some ⟨sp.length, sp.length + 1⟩) (others : ∀ e ∈ g, e.1 ∈ [9])

section Forms
variable {i : Nat} {w t : Str} {g : Groups}

/-- The first alternative. -/
theorem parses_pathForm (h : Parses (.seq .bol <| .seq spaces <| .seq (.group 1 (attrPath 2)) <| .seq spaces .eol)
    i w t g) : i = 0 ∧ t = [] ∧ FormGroups w g := by
  have numbers := parses_numbers h
  obtain ⟨u, w₁, _, _, rfl, rfl, h₁, h⟩ := parses_seq.1 h
  obtain ⟨sp, w₂, _, _, rfl, rfl, h₂, h⟩ := parses_seq.1 h
  obtain ⟨pt, w₃, _, _, rfl, rfl, h₃, h⟩ := parses_seq.1 h
  obtain ⟨sp', u', _, _, rfl, rfl, h₄, h₅⟩ := parses_seq.1 h
  obtain ⟨rfl, rfl, rfl⟩ := parses_bol.1 h₁
  obtain ⟨lead, rfl⟩ := parses_spaces.1 h₂
  obtain ⟨gp, rfl, path⟩ := parses_group.1 h₃
  obtain ⟨p, rfl, _, last⟩ := parses_attrPath path
  obtain ⟨trail, rfl⟩ := parses_spaces.1 h₄
  obtain ⟨rfl, rfl, rfl⟩ := parses_eol.1 h₅
  refine ⟨rfl, rfl, .path p (by simp) lead trail ?_ ?_ ?_⟩
  · simp
  · simp only [List.nil_append, List.append_nil, List.length_nil, Nat.zero_add] at last ⊢
    rw [List.lookup_cons, show ((3 : Nat) == 1) = false from rfl]
    simpa [AttrPath.text] using last
  · intro e he
    have := numbers e he
    simpa [Regex.numbers, attrPath, spaces, Regex.plus, Regex.lit] using this

/-- The second alternative. -/
theorem parses_aliasForm (h : Parses (.seq .bol <| .seq spaces <| .seq (.group 4 (attrPath 5)) <|
    .seq (.group 7 attrSeparator) <| .seq (.group 8 (.plus (.set nameChar))) <| .seq spaces .eol) i w t g) :
    i = 0 ∧ t = [] ∧ FormGroups w g := by
  have numbers := parses_numbers h
  obtain ⟨u, w₁, _, _, rfl, rfl, h₁, h⟩ := parses_seq.1 h
  obtain ⟨sp, w₂, _, _, rfl, rfl, h₂, h⟩ := parses_seq.1 h
  obtain ⟨pt, w₃, _, _, rfl, rfl, h₃, h⟩ := parses_seq.1 h
  obtain ⟨sep, w₄, _, _, rfl, rfl, h₄, h⟩ := parses_seq.1 h
  obtain ⟨name, w₅, _, _, rfl, rfl, h₅, h⟩ := parses_seq.1 h
  obtain ⟨sp', u', _, _, rfl, rfl, h₆, h₇⟩ := parses_seq.1 h
  obtain ⟨rfl, rfl, rfl⟩ := parses_bol.1 h₁
  obtain ⟨lead, rfl⟩ := parses_spaces.1 h₂
  obtain ⟨gp, rfl, path⟩ := parses_group.1 h₃
  obtain ⟨p, rfl, keys, _⟩ := parses_attrPath path
  obtain ⟨gs, rfl, separator⟩ := parses_group.1 h₄
  have noGroups : gs = [] := by
    cases gs with
    | nil => rfl
    | cons e gs =>
      have := parses_numbers separator e List.mem_cons_self
      simp [attrSeparator, Regex.numbers, Regex.plus, Regex.lit] at this
  subst noGroups
  obtain ⟨gn, rfl, nameParse⟩ := parses_group.1 h₅
  obtain ⟨ne, letters, rfl⟩ := parses_plus_set.1 nameParse
  obtain ⟨trail, rfl⟩ := parses_spaces.1 h₆
  obtain ⟨rfl, rfl, rfl⟩ := parses_eol.1 h₇
  refine ⟨rfl, rfl, .aliased p (by simp) lead (matches_separator.1 ⟨_, separator⟩) ne letters trail ?_ ?_ ?_⟩
  · simp [List.lookup_cons]
  · simp [Nat.add_assoc]
  · intro e he
    have := numbers e he
    simpa [Regex.numbers, attrPath, attrSeparator, spaces, Regex.plus, Regex.lit] using this

/-- The third alternative; the letters of a name are the first one's. -/
theorem parses_starForm (h : Parses (.seq .bol <| .seq spaces <|
    .seq (.group 9 (.alt (.plus (.set nameChar)) (.set starChar))) <| .seq spaces .eol) i w t g)
    (noPath : ∀ sp p sp', (∀ c ∈ sp, c = ' ') → (∀ c ∈ sp', c = ' ') → w ≠ sp ++ AttrPath.text p ++ sp') :
    i = 0 ∧ t = [] ∧ FormGroups w g := by
  have numbers := parses_numbers h
  obtain ⟨u, w₁, _, _, rfl, rfl, h₁, h⟩ := parses_seq.1 h
  obtain ⟨sp, w₂, _, _, rfl, rfl, h₂, h⟩ := parses_seq.1 h
  obtain ⟨x, w₃, _, _, rfl, rfl, h₃, h⟩ := parses_seq.1 h
  obtain ⟨sp', u', _, _, rfl, rfl, h₄, h₅⟩ := parses_seq.1 h
  obtain ⟨rfl, rfl, rfl⟩ := parses_bol.1 h₁
  obtain ⟨lead, rfl⟩ := parses_spaces.1 h₂
  obtain ⟨gx, rfl, name⟩ := parses_group.1 h₃
  obtain ⟨trail, rfl⟩ := parses_spaces.1 h₄
  obtain ⟨rfl, rfl, rfl⟩ := parses_eol.1 h₅
  have star : x = ['*'] := by
    rcases parses_alt.1 name with name | name
    · obtain ⟨ne, letters, -⟩ := parses_plus_set.1 name
      exact absurd (by rw [AttrPath.single_text]; simp) (noPath sp (.single x ne letters) sp' lead trail)
    · obtain ⟨c, rfl, hc, -⟩ := parses_set.1 name
      rcases (by simpa [starChar] using hc : c = '\\' ∨ c = '*') with rfl | rfl
      · have letters : ∀ c ∈ ['\\'], nameChar c = true := by simp [nameChar]
        exact absurd (by rw [AttrPath.single_text]; simp) (noPath sp (.single _ (by simp) letters) sp' lead trail)
      · rfl
  subst star
  refine ⟨rfl, rfl, .star (by simp) lead trail (by simp) ?_⟩
  intro e he
  have := numbers e he
  simpa [Regex.numbers, spaces, Regex.plus, Regex.lit] using this

theorem exec_regAttr (h : exec regAttr i w t = some g) : i = 0 ∧ t = [] ∧ FormGroups w g := by
  rcases exec_alt h with h | ⟨none, h⟩
  · exact parses_pathForm (exec_sound h)
  · rcases exec_alt h with h | ⟨-, h⟩
    · exact parses_aliasForm (exec_sound h)
    · have parse := exec_sound h
      refine parses_starForm parse ?_
      rintro sp p sp' lead trail rfl
      obtain ⟨rfl, rfl⟩ : i = 0 ∧ t = [] := by
        obtain ⟨u, w₁, _, _, -, -, h₁, h⟩ := parses_seq.1 parse
        obtain ⟨_, w₂, _, _, -, -, -, h⟩ := parses_seq.1 h
        obtain ⟨_, w₃, _, _, -, -, -, h⟩ := parses_seq.1 h
        obtain ⟨_, _, _, _, -, -, -, h₅⟩ := parses_seq.1 h
        exact ⟨(parses_bol.1 h₁).1, (parses_eol.1 h₅).2.1⟩
      have path : Matches (.seq .bol <| .seq spaces <| .seq (.group 1 (attrPath 2)) <| .seq spaces .eol) 0
          (sp ++ p.text ++ sp') [] := by
        simp only [matches_seq, spaces, matches_star_lit, matches_group, matches_attrPath]
        refine ⟨[], _, rfl, ⟨[], .bol⟩, sp, p.text ++ sp', by simp, lead, p.text, sp', rfl, ⟨p, rfl⟩, ?_⟩
        exact ⟨sp', [], by simp, trail, [], .eol⟩
      obtain ⟨_, parse'⟩ := path
      obtain ⟨_, run⟩ := exec_complete parse'
      rw [run] at none
      cases none

end Forms

/-! ## The constructor -/

theorem FormGroups.form {w : Str} {g : Groups} (h : FormGroups w g) :
    ∃ full name, AttrForm w full name := by
  cases h with
  | path p word lead trail =>
    rw [word]
    exact ⟨_, _, AttrForm.path p lead trail⟩
  | aliased p word lead separator ne ok trail =>
    rw [word]
    exact ⟨_, _, AttrForm.aliased p lead separator ne ok trail⟩
  | star word lead trail =>
    rw [word]
    exact ⟨_, _, AttrForm.star lead trail⟩

theorem AttrForm.ne_nil {w full name : Str} (h : AttrForm w full name) : w ≠ [] := by
  cases h with
  | path p => simp [p.text_ne]
  | aliased p => simp [p.text_ne]
  | star => simp

/-- A match takes the whole of what was read. -/
theorem regAttr_found {s : Str} {m : Match} (h : regexec regAttr s = some m) :
    m.so = 0 ∧ m.len = s.length ∧ FormGroups s m.groups := by
  obtain ⟨p, w, t, e, so, len, run⟩ := search_exec h
  obtain ⟨zero, rfl, form⟩ := exec_regAttr run
  obtain rfl : p = [] := List.eq_nil_of_length_eq_zero (by omega)
  obtain rfl : s = w := by simpa using e
  exact ⟨zero, len, form⟩

theorem regAttr_cutting : StringMatch.Cutting (regexec regAttr) := by
  intro s m h
  obtain ⟨so, len, form⟩ := regAttr_found h
  obtain ⟨_, _, form⟩ := form.form
  have := List.length_pos_iff.2 form.ne_nil
  omega

theorem regAttr_nil : regexec regAttr [] = none := by
  cases e : regexec regAttr [] with
  | none => rfl
  | some m =>
    obtain ⟨_, _, form⟩ := (regAttr_found e).2.2.form
    exact absurd rfl form.ne_nil

/-- Without the first letters up to a NUL nothing is read. -/
theorem cStr_drop (row : Text) : Text.cStr (row.drop row.cStr.length) = [] := by
  have str : Text.str (row.drop row.cStr.length) = row.str.drop row.cStr.length := by
    simp [Text.str, List.map_drop]
  obtain ⟨tail, e⟩ := cStr_prefix row
  have tail_eq : row.str.drop row.cStr.length = row.str.dropWhile (· ≠ Char.ofNat 0) := by
    conv_lhs => rw [← List.takeWhile_append_dropWhile (p := (· ≠ Char.ofNat 0)) (l := row.str)]
    exact List.drop_left
  rw [Text.cStr, str, tail_eq]
  cases e : row.str.dropWhile (· ≠ Char.ofNat 0) with
  | nil => rfl
  | cons c rest =>
    have := List.head_dropWhile_not (· ≠ Char.ofNat 0) (l := row.str) (by rw [e]; simp)
    simp only [e, List.head_cons] at this
    have nul : c = Char.ofNat 0 := by simpa using this
    simp [nul]

namespace SQLAttribute
variable {attr : Text} {pos : Nat} {m : Match}

/-- A match is the one entry of the list. -/
theorem matchSet_found (h : regexec regAttr attr.cStr = some m)
    (some : ∃ g p, g ∈ attrGroups ∧ indexes m g = .some p) :
    StringMatch.matchSet (regexec regAttr) attrGroups attr =
      .ok [StringMatch.extractSet attrGroups m attr] (attr.erase m.so m.len) := by
  obtain ⟨so, len, -⟩ := regAttr_found h
  have rest : Text.cStr (attr.erase m.so m.len) = [] := by
    rw [so, len]
    simpa [Text.erase] using cStr_drop attr
  have stored : StringMatch.stored attrGroups m attr = [StringMatch.extractSet attrGroups m attr] := by
    obtain ⟨g, p, mem, index⟩ := some
    rw [StringMatch.stored, if_neg]
    have : (g, attr.substr p) ∈ (StringMatch.extractSet attrGroups m attr).found :=
      List.mem_filterMap.2 ⟨g, mem, by rw [index]; rfl⟩
    intro empty
    rw [List.isEmpty_iff.1 empty] at this
    cases this
  refine (StringMatch.matchSet_iff regAttr_cutting).2 ⟨[(attr, m)], .cut h (.stop ?_), ?_⟩
  · rw [rest, regAttr_nil]
  · simp [stored]

theorem loadAttribute_found (h : regexec regAttr attr.cStr = some m)
    (some : ∃ g p, g ∈ attrGroups ∧ indexes m g = .some p) :
    loadAttribute attr = parts (StringMatch.extractSet attrGroups m attr) (attr.erase m.so m.len) := by
  rw [loadAttribute, Proc.bind_ok (matchSet_found h some)]

theorem loadAttribute_none (h : regexec regAttr attr.cStr = none) :
    ∃ fault, loadAttribute attr = .error fault attr := by
  have run : StringMatch.matchSet (regexec regAttr) attrGroups attr = .ok [] attr :=
    (StringMatch.matchSet_iff regAttr_cutting).2 ⟨[], .stop h, rfl⟩
  exact ⟨_, by rw [loadAttribute, Proc.bind_ok run]; rfl⟩

/-- What the parts of a match are: the full name and the name of the text. -/
theorem parts_found (h : regexec regAttr attr.cStr = some m) (s : Text) :
    ∃ full name, parts (StringMatch.extractSet attrGroups m attr) s = .ok (full, name) s ∧
      AttrForm attr.cStr full.str name.str ∧ (∀ x ∈ full, x ∈ attr) ∧ (∀ x ∈ name, x ∈ attr) ∧
      ∃ g p, g ∈ attrGroups ∧ indexes m g = some p := by
  obtain ⟨so, len, form⟩ := regAttr_found h
  cases form with
  | @path sp sp' p word lead trail full name others =>
    have set₄ : m.groups.lookup 4 = none := lookup_of_numbers others (by decide)
    have set₈ : m.groups.lookup 8 = none := lookup_of_numbers others (by decide)
    have set₉ : m.groups.lookup 9 = none := lookup_of_numbers others (by decide)
    refine ⟨attr.substr ⟨sp.length, sp.length + p.text.length⟩,
      attr.substr ⟨(sp ++ p.qualifiers).length, (sp ++ p.qualifiers).length + p.last.length⟩, ?_, ?_,
      fun x => mem_substr, fun x => mem_substr, 1, _, by decide, by rw [indexes, if_neg (by decide)]; exact full⟩
    · have found : StringMatch.extractSet attrGroups m attr = ⟨[
          (1, attr.substr ⟨sp.length, sp.length + p.text.length⟩),
          (3, attr.substr ⟨(sp ++ p.qualifiers).length, (sp ++ p.qualifiers).length + p.last.length⟩)]⟩ := by
        simp [StringMatch.extractSet, attrGroups, indexes, Match.group, full, name, set₄, set₈, set₉]
      rw [found]
      rfl
    · rw [substr_at word, substr_at (p := sp ++ p.qualifiers) (t := sp') (by rw [word]; simp [AttrPath.text]), word]
      exact .path p lead trail
  | @aliased sp sep name sp' p word lead separator ne ok trail full behind others =>
    have set₁ : m.groups.lookup 1 = none := lookup_of_numbers others (by decide)
    have set₃ : m.groups.lookup 3 = none := lookup_of_numbers others (by decide)
    have set₉ : m.groups.lookup 9 = none := lookup_of_numbers others (by decide)
    refine ⟨attr.substr ⟨sp.length, sp.length + p.text.length⟩,
      attr.substr ⟨(sp ++ p.text ++ sep).length, (sp ++ p.text ++ sep).length + name.length⟩, ?_, ?_,
      fun x => mem_substr, fun x => mem_substr, 4, _, by decide, by rw [indexes, if_neg (by decide)]; exact full⟩
    · have found : StringMatch.extractSet attrGroups m attr = ⟨[
          (4, attr.substr ⟨sp.length, sp.length + p.text.length⟩),
          (8, attr.substr ⟨(sp ++ p.text ++ sep).length, (sp ++ p.text ++ sep).length + name.length⟩)]⟩ := by
        simp [StringMatch.extractSet, attrGroups, indexes, Match.group, full, behind, set₁, set₃, set₉]
      rw [found]
      rfl
    · rw [substr_at (t := sep ++ name ++ sp') (by rw [word]; simp),
        substr_at (p := sp ++ p.text ++ sep) (t := sp') (by rw [word]; simp), word]
      exact .aliased p lead separator ne ok trail
  | @star sp sp' word lead trail name others =>
    have set₁ : m.groups.lookup 1 = none := lookup_of_numbers others (by decide)
    have set₃ : m.groups.lookup 3 = none := lookup_of_numbers others (by decide)
    have set₄ : m.groups.lookup 4 = none := lookup_of_numbers others (by decide)
    have set₈ : m.groups.lookup 8 = none := lookup_of_numbers others (by decide)
    refine ⟨[], attr.substr ⟨sp.length, sp.length + 1⟩, ?_, ?_, by simp, fun x => mem_substr, 9, _, by decide,
      by rw [indexes, if_neg (by decide)]; exact name⟩
    · have found : StringMatch.extractSet attrGroups m attr = ⟨[(9, attr.substr ⟨sp.length, sp.length + 1⟩)]⟩ := by
        simp [StringMatch.extractSet, attrGroups, indexes, Match.group, name, set₁, set₃, set₄, set₈]
      rw [found]
      rfl
    · rw [show sp.length + 1 = sp.length + ['*'].length from rfl, substr_at word, word]
      exact .star lead trail

/-- An attribute is made of what `_SQLH_REG_ATTR` matches, at any position. -/
theorem make_found (h : regexec regAttr attr.cStr = some m) :
    ∃ full name, AttrForm attr.cStr full.str name.str ∧ (∀ x ∈ full, x ∈ attr) ∧ (∀ x ∈ name, x ∈ attr) ∧
      ∀ pos, make attr pos = .ok ⟨attr, full, name, pos⟩ := by
  obtain ⟨full, name, run, form, inFull, inName, index⟩ := parts_found h (attr.erase m.so m.len)
  refine ⟨full, name, form, inFull, inName, fun pos => ?_⟩
  rw [make, loadAttribute_found h index, run]

/-- What an attribute that was made is. -/
theorem make_ok {a : SQLAttribute} (h : make attr pos = .ok a) :
    a.attr = attr ∧ a.position = pos ∧ AttrForm attr.cStr a.fullName.str a.name.str ∧
      (∀ x ∈ a.fullName, x ∈ attr) ∧ ∀ x ∈ a.name, x ∈ attr := by
  cases e : regexec regAttr attr.cStr with
  | none =>
    obtain ⟨fault, run⟩ := loadAttribute_none e
    rw [make, run] at h
    cases h
  | some m =>
    obtain ⟨full, name, form, inFull, inName, run⟩ := make_found e
    rw [run pos] at h
    cases h
    exact ⟨rfl, rfl, form, inFull, inName⟩

/-- The position plays no part in the parsing. -/
theorem make_pos {a : SQLAttribute} (h : make attr pos = .ok a) (pos' : Nat) :
    make attr pos' = .ok { a with position := pos' } := by
  unfold make at *
  cases run : loadAttribute attr with
  | ok parts s =>
    rw [run] at h
    cases h
    rfl
  | error fault s =>
    rw [run] at h
    cases h

end SQLAttribute

/-! ### Dotted paths make attributes -/

/-- What is behind the last dot. -/
def lastOf (s : Str) : Str := (s.reverse.takeWhile (· != '.')).reverse

theorem nameChar_ne {c : Char} (h : nameChar c = true) : c ≠ ' ' ∧ c ≠ '.' ∧ c ≠ '*' ∧ c ≠ Char.ofNat 0 := by
  refine ⟨?_, ?_, ?_, ?_⟩ <;>
  · rintro rfl
    exact absurd h (by decide)

theorem AttrPath.lastOf_text (p : AttrPath) : lastOf p.text = p.last := by
  have split := run_split (p := (· != '.')) (a := p.last.reverse) (b := p.qualifiers.reverse)
    (fun c h => by simpa using (nameChar_ne (p.last_ok c (List.mem_reverse.1 h))).2.1) ?_
  · rw [lastOf, AttrPath.text, List.reverse_append, split.1, List.reverse_reverse]
  · intro c h
    cases e : p.init.reverse with
    | nil =>
      rw [AttrPath.qualifiers, List.reverse_eq_nil_iff.1 e] at h
      cases h
    | cons x rest =>
      have init : p.init = rest.reverse ++ [x] := by rw [← List.reverse_reverse p.init, e]; simp
      rw [AttrPath.qualifiers, init, List.flatMap_append] at h
      simp at h
      simp [← h]

theorem AttrPath.letter_ne (p : AttrPath) {c : Char} (h : c ∈ p.text) : c ≠ ' ' ∧ c ≠ '*' ∧ c ≠ Char.ofNat 0 := by
  rcases p.letter h with h | rfl
  · exact ⟨(nameChar_ne h).1, (nameChar_ne h).2.2.1, (nameChar_ne h).2.2.2⟩
  · decide

/-- Spaces around a word without spaces are none. -/
theorem no_spaces {sp w sp' v : Str} (e : sp ++ w ++ sp' = v) (hv : ∀ c ∈ v, c ≠ ' ') (lead : ∀ c ∈ sp, c = ' ')
    (trail : ∀ c ∈ sp', c = ' ') : sp = [] ∧ sp' = [] := by
  constructor
  · refine List.eq_nil_iff_forall_not_mem.2 fun c h => hv c ?_ (lead c h)
    rw [← e]
    simp [h]
  · refine List.eq_nil_iff_forall_not_mem.2 fun c h => hv c ?_ (trail c h)
    rw [← e]
    simp [h]

/-- The only form of a dotted path is the path. -/
theorem AttrForm.of_path {p : AttrPath} {full name : Str} (h : AttrForm p.text full name) :
    full = p.text ∧ name = p.last := by
  generalize e : p.text = w at h
  have noSpace : ∀ c ∈ w, c ≠ ' ' := fun c hc => (p.letter_ne (e ▸ hc)).1
  cases h with
  | path q lead trail =>
    obtain ⟨rfl, rfl⟩ := no_spaces rfl noSpace lead trail
    simp only [List.nil_append, List.append_nil] at e
    exact ⟨by simp, by rw [← p.lastOf_text, e, q.lastOf_text]⟩
  | aliased q lead separator ne ok trail =>
    rcases separator with ⟨ne, spaces⟩ | ⟨a, b, rfl, -, -⟩
    · obtain ⟨c, rest, rfl⟩ := List.exists_cons_of_ne_nil ne
      exact absurd (spaces c List.mem_cons_self) (noSpace c (by simp))
    · exact absurd rfl (noSpace ' ' (by simp))
  | star lead trail => exact absurd rfl (p.letter_ne (c := '*') (by rw [e]; simp)).2.1

/-- Every form is matched. -/
theorem AttrForm.found {w full name : Str} (h : AttrForm w full name) : ∃ m, regexec regAttr w = some m := by
  have form : Matches regAttr 0 w [] := by
    simp only [regAttr, matches_alt]
    cases h with
    | @path sp sp' p lead trail =>
      left
      simp only [matches_seq, spaces, matches_star_lit, matches_group, matches_attrPath]
      refine ⟨[], _, rfl, ⟨[], .bol⟩, sp, p.text ++ sp', by simp, lead, p.text, sp', rfl, ⟨p, rfl⟩, ?_⟩
      exact ⟨sp', [], by simp, trail, [], .eol⟩
    | @aliased sp sep name sp' p lead separator ne ok trail =>
      right
      left
      simp only [matches_seq, spaces, matches_star_lit, matches_group, matches_attrPath, matches_separator, matches_plus_set]
      refine ⟨[], _, rfl, ⟨[], .bol⟩, sp, p.text ++ (sep ++ (name ++ sp')), by simp, lead, p.text, _, rfl, ⟨p, rfl⟩, ?_⟩
      exact ⟨sep, _, rfl, separator, name, sp', rfl, ⟨ne, ok⟩, sp', [], by simp, trail, [], .eol⟩
    | @star sp sp' lead trail =>
      right
      right
      simp only [matches_seq, spaces, matches_star_lit, matches_group, matches_alt]
      refine ⟨[], _, rfl, ⟨[], .bol⟩, sp, ['*'] ++ sp', by simp, lead, ['*'], sp', rfl, ?_⟩
      exact ⟨.inr ⟨[], .set (by decide)⟩, sp', [], by simp, trail, [], .eol⟩
  obtain ⟨g, parse⟩ := form
  obtain ⟨g', run, -⟩ := search_exists (p := []) (w := w) (t := []) (i := 0) parse
    (by simp) (by
      intro w' t' e lt
      have := congrArg List.length e
      simp only [List.length_append, List.length_nil] at this
      omega)
  exact ⟨_, by simpa [regexec] using run⟩

theorem regAttr_path (p : AttrPath) : ∃ m, regexec regAttr p.text = some m := by
  have form : AttrForm ([] ++ p.text ++ []) p.text p.last := .path p (by simp) (by simp)
  rw [List.nil_append, List.append_nil] at form
  exact form.found

theorem SQLAttribute.make_form {attr : Text} {full name : Str} (h : AttrForm attr.cStr full name) (pos : Nat) :
    ∃ a, make attr pos = .ok a := by
  obtain ⟨m, found⟩ := h.found
  obtain ⟨_, _, -, -, -, run⟩ := make_found found
  exact ⟨_, run pos⟩

theorem SQLAttribute.make_path {attr : Text} {p : AttrPath} (e : attr.str = p.text) (pos : Nat) :
    ∃ a, make attr pos = .ok a ∧ a.attr = attr ∧ a.fullName.str = p.text ∧ a.name.str = p.last := by
  have read : attr.cStr = p.text := by
    rw [cStr_of_noNul, e]
    rw [e]
    exact fun h => (p.letter_ne h).2.2 rfl
  obtain ⟨m, found⟩ := regAttr_path p
  rw [← read] at found
  obtain ⟨full, name, form, -, -, run⟩ := make_found found
  rw [read] at form
  obtain ⟨efull, ename⟩ := form.of_path
  exact ⟨_, run pos, rfl, efull, ename⟩

/-! ## The items of an attribute list -/

/-- The words of the second group of `_SQLH_CONT_REG_ATTR`. -/
def IsAttrText (x : Str) : Prop :=
  (x ≠ [] ∧ ∀ c ∈ x, attrChar c = true) ∨ ∃ c, x = [c] ∧ starChar c = true

section Items
variable {i : Nat} {w t : Str} {g : Groups}

/-- A parse of `_SQLH_CONT_REG_ATTR`, by its parts. -/
theorem parses_contAttr (h : Parses contRegAttr i w t g) :
    ∃ head sp x sp' close, w = head ++ sp ++ x ++ sp' ++ close ∧ ((head = [] ∧ i = 0) ∨ head = [',']) ∧
      (∀ c ∈ sp, c = ' ') ∧ IsAttrText x ∧ (∀ c ∈ sp', c = ' ') ∧ (close = [','] ∨ (close = [] ∧ t = [])) ∧
      g.lookup 2 = some ⟨i + (head ++ sp).length, i + (head ++ sp).length + x.length⟩ := by
  obtain ⟨head, w₁, _, _, rfl, rfl, h₁, h⟩ := parses_seq.1 h
  obtain ⟨sp, w₂, _, _, rfl, rfl, h₂, h⟩ := parses_seq.1 h
  obtain ⟨x, w₃, _, _, rfl, rfl, h₃, h⟩ := parses_seq.1 h
  obtain ⟨sp', close, _, _, rfl, rfl, h₄, h₅⟩ := parses_seq.1 h
  obtain ⟨g₁, rfl, front⟩ := parses_group.1 h₁
  obtain ⟨lead, rfl⟩ := parses_spaces.1 h₂
  obtain ⟨g₂, rfl, item⟩ := parses_group.1 h₃
  obtain ⟨trail, rfl⟩ := parses_spaces.1 h₄
  obtain ⟨g₃, rfl, final⟩ := parses_group.1 h₅
  have back : (close = [','] ∨ (close = [] ∧ t = [])) ∧ g₃ = [] := by
    rcases parses_alt.1 final with back | back
    · obtain ⟨rfl, rfl⟩ := parses_lit.1 back
      exact ⟨.inl rfl, rfl⟩
    · obtain ⟨rfl, rfl, rfl⟩ := parses_eol.1 back
      exact ⟨.inr ⟨rfl, rfl⟩, rfl⟩
  obtain ⟨closed, rfl⟩ := back
  refine ⟨head, sp, x, sp', close, by simp, ?_, lead, ?_, trail, closed, ?_⟩
  · rcases parses_alt.1 front with front | front
    · obtain ⟨rfl, rfl, -⟩ := parses_bol.1 front
      exact .inl ⟨rfl, rfl⟩
    · exact .inr (parses_lit.1 front).1
  · rcases parses_alt.1 item with item | item
    · obtain ⟨ne, letters, -⟩ := parses_plus_set.1 item
      exact .inl ⟨ne, letters⟩
    · obtain ⟨c, rfl, hc, -⟩ := parses_set.1 item
      exact .inr ⟨c, rfl, hc⟩
  · simp [List.lookup_cons]
    omega

end Items

theorem IsAttrText.ne_nil {x : Str} (h : IsAttrText x) : x ≠ [] := by
  rcases h with h | ⟨c, rfl, -⟩
  · exact h.1
  · simp

theorem contAttr_cutting : StringMatch.Cutting (regexec contRegAttr) := by
  refine cutting_of fun i w t g h => ?_
  obtain ⟨head, sp, x, sp', close, rfl, -, -, item, -⟩ := parses_contAttr h
  simp [item.ne_nil]

end SqlHandler
