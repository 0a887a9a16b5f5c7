import SqlHandler.Container.Parameters

/-!
# The part a row belongs to

A tag is recognised by `_SQLH_DATASET_REG_TAGS` and interpreted by `partTracking`, which
knows five of them and has no last `else`: a row with any other tag is taken and changes
nothing, and the rows behind it go on in the part that was open. `openPart` is the part
the rows leave open, `lastTag` the tag they end with.
-/

namespace SqlHandler
open Posix Text Stl

namespace SQLTextContainer
variable {rt : Runtime}

/-! ## Tags -/

/-- The part a tag names. -/
def partNamed (tag : Str) : Option DatasetPart :=
  if tag = "[section]".toList then some .sectionTag else partOf tag

/-- The parts a dataset has tags for. -/
def tagParts : List DatasetPart := [.sectionTag, .selectTag, .fromTag, .whereTag, .otherTag]

/-- The tag of a row. -/
def tagOf (row : Str) : Option Str :=
  match rowKind row with
  | .tag text => some text
  | _ => none

/-- The nearest tag above the end of the rows. -/
def lastTag (rows : List Str) : Option Str := rows.foldl (fun tag row => (tagOf row).or tag) none

/-- The part that is open behind the rows. -/
def openPart (part : DatasetPart) (rows : List Str) : DatasetPart :=
  rows.foldl (fun part row => ((tagOf row).bind partNamed).getD part) part

theorem partNamed_mem {tag : Str} {part : DatasetPart} (h : partNamed tag = some part) : part ∈ tagParts := by
  unfold partNamed at h
  split at h
  · cases h
    decide
  · exact List.mem_cons_of_mem _ (partOf_mem h)

theorem lastTag_concat (rows : List Str) (row : Str) : lastTag (rows ++ [row]) = (tagOf row).or (lastTag rows) := by
  unfold lastTag
  rw [List.foldl_append]
  rfl

theorem openPart_concat (part : DatasetPart) (rows : List Str) (row : Str) :
    openPart part (rows ++ [row]) = ((tagOf row).bind partNamed).getD (openPart part rows) := by
  unfold openPart
  rw [List.foldl_append]
  rfl

/-- The part of the nearest tag is open, if there is one. -/
theorem openPart_named {unset part : DatasetPart} {rows : List Str} {tag : Str} (last : lastTag rows = some tag)
    (named : partNamed tag = some part) : openPart unset rows = part := by
  induction rows using List.reverseRecOn with
  | nil => cases last
  | append_singleton rows row ih =>
    rw [lastTag_concat] at last
    rw [openPart_concat]
    cases at' : tagOf row with
    | none =>
      rw [at'] at last
      exact ih last
    | some text =>
      rw [at'] at last
      cases last
      rw [Option.bind_some, named]
      rfl

theorem tagOf_section {row : Str} (h : isSectionTag row = true) : tagOf row = some "[section]".toList := by
  unfold tagOf
  rw [isSectionTag_iff.1 h]

/-- Behind a `[section]` tag one of the five parts is open. -/
theorem openPart_mem {unset : DatasetPart} {rows : List Str} (opened : ∃ row ∈ rows, isSectionTag row = true) :
    openPart unset rows ∈ tagParts := by
  induction rows using List.reverseRecOn with
  | nil =>
    obtain ⟨row, mem, -⟩ := opened
    cases mem
  | append_singleton rows row ih =>
    rw [openPart_concat]
    cases at' : (tagOf row).bind partNamed with
    | some part =>
      obtain ⟨tag, -, named⟩ := Option.bind_eq_some_iff.1 at'
      exact partNamed_mem named
    | none =>
      obtain ⟨x, mem, tagged⟩ := opened
      rcases List.mem_append.1 mem with mem | mem
      · exact ih ⟨x, mem, tagged⟩
      · rw [← List.mem_singleton.1 mem, tagOf_section tagged] at at'
        cases at'

theorem RowEffect.opens_part {row : Str} {r r' : Reading} (effect : RowEffect rt row r r') :
    r'.readingPart = ((tagOf row).bind partNamed).getD r.readingPart := by
  unfold tagOf
  cases effect with
  | idle kind => rw [kind]; rfl
  | definition kind => rw [kind]; rfl
  | @part text kind other =>
    rw [kind, Option.bind_some, partNamed, if_neg other]
    cases partOf text <;> rfl
  | first kind => rw [kind]; rfl
  | next kind => rw [kind]; rfl
  | parameter kind made at' found set =>
    rw [kind]
    exact (setParameter_leaves set).part
  | added kind =>
    rw [kind]
    exact (rowAction_leaves _ _ _).1.part

/-- A scan is in the part its rows have opened. -/
theorem readRows_part {rows : List Str} {r r' : Reading} (run : readRows rt rows r = .ok () r') :
    r'.readingPart = openPart r.readingPart rows := by
  induction rows generalizing r with
  | nil =>
    cases run
    rfl
  | cons row rows ih =>
    obtain ⟨⟨⟩, r₁, first, rest⟩ := Proc.of_bind_ok run
    rw [ih rest, (readRow_effect first).opens_part]
    rfl

/-! ## What a part has been given -/

/-- The bits of a part. -/
def partBits : DatasetPart → List DatasetPart
  | .sectionTag => [.sectionTag, .api, .server, .port, .dbname, .user, .pass]
  | part => [part]

/-- The part has the same bits and the same contents. -/
def Untouched (part : DatasetPart) (r r' : Reading) : Prop :=
  (∀ p ∈ partBits part, r'.complete p = r.complete p) ∧
    match part with
    | .sectionTag => ∀ key, r'.newSection.parameter key = r.newSection.parameter key
    | .selectTag => r'.attributeBuf = r.attributeBuf ∧ r'.newSection.query.select = r.newSection.query.select
    | .fromTag => r'.newSection.query.fromText = r.newSection.query.fromText
    | .whereTag => r'.whereBuf = r.whereBuf ∧ r'.newSection.query.whereSet = r.newSection.query.whereSet
    | .otherTag => r'.newSection.other = r.newSection.other
    | _ => True

theorem Untouched.refl (part : DatasetPart) (r : Reading) : Untouched part r r := by
  refine ⟨fun _ _ => rfl, ?_⟩
  cases part with
  | sectionTag => exact fun _ => rfl
  | selectTag => exact ⟨rfl, rfl⟩
  | fromTag => rfl
  | whereTag => exact ⟨rfl, rfl⟩
  | otherTag => rfl
  | _ => trivial

theorem mark_untouched {part p : DatasetPart} (apart : p ∉ partBits part) (r : Reading) : Untouched part r (r.mark p) := by
  refine ⟨?_, (Untouched.refl part r).2⟩
  intro q mem
  have ne : q ≠ p := fun same => apart (same ▸ mem)
  simp only [Reading.mark, Completion.put, if_neg ne]

theorem Untouched.trans {part : DatasetPart} {r₁ r₂ r₃ : Reading} (h : Untouched part r₁ r₂) (h' : Untouched part r₂ r₃) :
    Untouched part r₁ r₃ := by
  obtain ⟨bits, held⟩ := h
  obtain ⟨bits', held'⟩ := h'
  refine ⟨fun p mem => (bits' p mem).trans (bits p mem), ?_⟩
  cases part with
  | sectionTag => exact fun key => (held' key).trans (held key)
  | selectTag => exact ⟨held'.1.trans held.1, held'.2.trans held.2⟩
  | fromTag => exact Eq.trans held' held
  | whereTag => exact ⟨held'.1.trans held.1, held'.2.trans held.2⟩
  | otherTag => exact Eq.trans held' held
  | _ => trivial

/-- The members a parameter is set in. -/
theorem setParameter_untouched {key val : Str} {r r' : Reading} (set : setParameter key val r = some r')
    {part : DatasetPart} (mem : part ∈ tagParts) (other : part ≠ .sectionTag) : Untouched part r r' := by
  have step : ∀ (s : DatasetSection) (p : DatasetPart), s.query = r.newSection.query → s.other = r.newSection.other →
      p ∈ partBits .sectionTag → Untouched part r ((r.setSection s).mark p) := by
    intro s p query others bit
    have held : Untouched part r (r.setSection s) := by
      refine ⟨fun _ _ => rfl, ?_⟩
      simp only [tagParts, List.mem_cons, List.not_mem_nil, or_false] at mem
      rcases mem with rfl | rfl | rfl | rfl | rfl
      · exact absurd rfl other
      · exact ⟨rfl, congrArg SQLQuery.select query⟩
      · exact congrArg SQLQuery.fromText query
      · exact ⟨rfl, congrArg SQLQuery.whereSet query⟩
      · exact others
    refine held.trans (mark_untouched ?_ _)
    simp only [tagParts, List.mem_cons, List.not_mem_nil, or_false] at mem
    simp only [partBits, List.mem_cons, List.not_mem_nil, or_false] at bit
    rcases mem with rfl | rfl | rfl | rfl | rfl <;> first | exact absurd rfl other | skip
    all_goals rcases bit with rfl | rfl | rfl | rfl | rfl | rfl | rfl <;> decide
  have section' : ∀ q : Reading, Untouched part q (q.mark .sectionTag) := by
    intro q
    refine mark_untouched ?_ q
    simp only [tagParts, List.mem_cons, List.not_mem_nil, or_false] at mem
    rcases mem with rfl | rfl | rfl | rfl | rfl <;> first | exact absurd rfl other | decide
  unfold setParameter at set
  split at set
  · cases set
    have api := step { r.newSection with api := val } .api rfl rfl (by decide)
    split
    · exact api.trans (section' _)
    · exact api
  · split at set
    · cases set
      have server := step { r.newSection with server := val } .server rfl rfl (by decide)
      split
      · exact server.trans (section' _)
      · exact server
    · repeat' split at set
      all_goals cases set
      all_goals exact step _ _ rfl rfl (by decide)

/-- A row of another part than `[section]` changes that part alone. -/
theorem rowAction_untouched (part : DatasetPart) (row : Str) (r : Reading) {q : DatasetPart} (mem : q ∈ tagParts)
    (other : q ≠ part) : Untouched q r (rowAction rt part row r) := by
  simp only [tagParts, List.mem_cons, List.not_mem_nil, or_false] at mem
  unfold rowAction
  split
  · split
    · refine Untouched.trans (show Untouched q r (r.setSection _) from ?_) (mark_untouched ?_ _)
      · refine ⟨fun _ _ => rfl, ?_⟩
        rcases mem with rfl | rfl | rfl | rfl | rfl
        · exact fun _ => rfl
        · exact ⟨rfl, rfl⟩
        · rfl
        · exact ⟨rfl, rfl⟩
        · exact absurd rfl other
      · rcases mem with rfl | rfl | rfl | rfl | rfl <;> first | exact absurd rfl other | decide
    · exact .refl q r
  · unfold appendRow
    split
    · refine Untouched.trans (show Untouched q r { r with attributeBuf := r.attributeBuf ++ rowText row } from ?_)
        (mark_untouched ?_ _)
      · refine ⟨fun _ _ => rfl, ?_⟩
        rcases mem with rfl | rfl | rfl | rfl | rfl
        · exact fun _ => rfl
        · exact absurd rfl other
        · rfl
        · exact ⟨rfl, rfl⟩
        · rfl
      · rcases mem with rfl | rfl | rfl | rfl | rfl <;> first | exact absurd rfl other | decide
    · refine Untouched.trans (show Untouched q r (r.setSection _) from ?_) (mark_untouched ?_ _)
      · refine ⟨fun _ _ => rfl, ?_⟩
        rcases mem with rfl | rfl | rfl | rfl | rfl
        · exact fun _ => rfl
        · exact ⟨rfl, rfl⟩
        · exact absurd rfl other
        · exact ⟨rfl, rfl⟩
        · rfl
      · rcases mem with rfl | rfl | rfl | rfl | rfl <;> first | exact absurd rfl other | decide
    · refine Untouched.trans (show Untouched q r { r with whereBuf := r.whereBuf ++ rowText row } from ?_)
        (mark_untouched ?_ _)
      · refine ⟨fun _ _ => rfl, ?_⟩
        rcases mem with rfl | rfl | rfl | rfl | rfl
        · exact fun _ => rfl
        · exact ⟨rfl, rfl⟩
        · rfl
        · exact absurd rfl other
        · rfl
      · rcases mem with rfl | rfl | rfl | rfl | rfl <;> first | exact absurd rfl other | decide
    · exact .refl q r

/-- A data row sets a parameter, or takes its action in the part that is open. -/
theorem data_effect {row : Str} {r r' : Reading} (kind : rowKind row = .data) (run : readRow rt row r = .ok () r') :
    ∃ row', substituteRow r.vars row = .ok row' ∧
      ((r.readingPart = .sectionTag ∧ ∃ m, regexec regKeyVal (rowStr row') = some m ∧
          setParameter (((m.group 1).getD ⟨0, 0⟩).text row') (((m.group 2).getD ⟨0, 0⟩).text row') r = some r') ∨
        (r.readingPart ≠ .sectionTag ∧ r' = rowAction rt r.readingPart row' r)) := by
  cases readRow_effect run with
  | idle kind' => exact absurd (kind'.symm.trans kind) (fun h => by cases h)
  | definition kind' => exact absurd (kind'.symm.trans kind) (fun h => by cases h)
  | part kind' => exact absurd (kind'.symm.trans kind) (fun h => by cases h)
  | first kind' => exact absurd (kind'.symm.trans kind) (fun h => by cases h)
  | next kind' => exact absurd (kind'.symm.trans kind) (fun h => by cases h)
  | parameter _ made at' found set => exact ⟨_, made, .inl ⟨at', _, found, set⟩⟩
  | added _ made at' => exact ⟨_, made, .inr ⟨at', rfl⟩⟩

/-- A data row touches no part but the one that is open. -/
theorem readRow_untouched {row : Str} {r r' : Reading} (kind : rowKind row = .data) (run : readRow rt row r = .ok () r')
    {part : DatasetPart} (mem : part ∈ tagParts) (other : part ≠ r.readingPart) : Untouched part r r' := by
  obtain ⟨row', -, ⟨at', m, -, set⟩ | ⟨-, rfl⟩⟩ := data_effect kind run
  · exact setParameter_untouched set mem (at' ▸ other)
  · exact rowAction_untouched _ _ _ mem other

/-! ## Rows that add nothing -/

/-- What has been set has its bit. -/
structure Diary (r : Reading) : Prop where
  api : r.newSection.api ≠ [] → r.complete .api = true
  server : r.newSection.server ≠ [] → r.complete .server = true
  port : r.newSection.port ≠ [] → r.complete .port = true
  dbname : r.newSection.dbname ≠ [] → r.complete .dbname = true
  user : r.newSection.user ≠ [] → r.complete .user = true
  pass : r.newSection.pass ≠ [] → r.complete .pass = true
  both : r.complete .api = true → r.complete .server = true → r.complete .sectionTag = true
  other : r.newSection.other.toList ≠ [] → r.complete .otherTag = true
  ordered : Ordered Prod.fst r.newSection.other

theorem blank_diary {r : Reading} (section' : r.newSection = .blank) (complete : r.complete = .empty) : Diary r := by
  constructor <;> simp [section', complete, DatasetSection.blank, Completion.empty, ordered_leaf]

theorem setParameter_diary {key val : Str} {r r' : Reading} (set : setParameter key val r = some r') (h : Diary r) :
    Diary r' := by
  obtain ⟨api, server, port, dbname, user, pass, both, other, ordered⟩ := h
  unfold setParameter at set
  split at set
  · cases set
    split <;> constructor <;> simp_all [Reading.mark, Completion.put, Reading.setSection]
  · split at set
    · cases set
      split <;> constructor <;> simp_all [Reading.mark, Completion.put, Reading.setSection]
    · repeat' split at set
      all_goals cases set
      all_goals constructor <;> simp_all [Reading.mark, Completion.put, Reading.setSection]

theorem rowAction_diary (part : DatasetPart) (row : Str) {r : Reading} (h : Diary r) : Diary (rowAction rt part row r) := by
  obtain ⟨api, server, port, dbname, user, pass, both, other, ordered⟩ := h
  unfold rowAction
  split
  · split
    · refine ⟨?_, ?_, ?_, ?_, ?_, ?_, ?_, ?_, (insert_byKey rt.shape _ ordered).1⟩ <;>
        simp_all [Reading.mark, Completion.put, Reading.setSection]
    · exact ⟨api, server, port, dbname, user, pass, both, other, ordered⟩
  · unfold appendRow
    split <;> constructor <;> simp_all [Reading.mark, Completion.put, Reading.setSection]

theorem RowEffect.diary {row : Str} {r r' : Reading} (effect : RowEffect rt row r r') (h : Diary r) : Diary r' := by
  cases effect with
  | idle => exact h
  | definition => exact ⟨h.api, h.server, h.port, h.dbname, h.user, h.pass, h.both, h.other, h.ordered⟩
  | @part text =>
    cases partOf text with
    | none => exact h
    | some part => exact ⟨h.api, h.server, h.port, h.dbname, h.user, h.pass, h.both, h.other, h.ordered⟩
  | first => exact ⟨h.api, h.server, h.port, h.dbname, h.user, h.pass, h.both, h.other, h.ordered⟩
  | next => exact blank_diary rfl rfl
  | parameter _ _ _ _ set => exact setParameter_diary set h
  | added => exact rowAction_diary _ _ h

theorem readRows_diary {rows : List Str} {r r' : Reading} (run : readRows rt rows r = .ok () r') (h : Diary r) : Diary r' := by
  induction rows generalizing r with
  | nil =>
    cases run
    exact h
  | cons row rows ih =>
    obtain ⟨⟨⟩, r₁, first, rest⟩ := Proc.of_bind_ok run
    exact ih rest ((readRow_effect first).diary h)

/-- A row, its variables substituted, that leaves the open part as it is: no entry for `[other]`
or one whose key is there, or a parameter with the value it has. -/
def AddsNothing (part : DatasetPart) (s : DatasetSection) (row : Str) : Prop :=
  match part with
  | .otherTag => ∀ m, regexec regKeyVal (rowStr row) = some m →
      ∃ p ∈ s.other.toList, p.1 = ((m.group 1).getD ⟨0, 0⟩).text row
  | .sectionTag => ∀ m, regexec regKeyVal (rowStr row) = some m →
      ((m.group 2).getD ⟨0, 0⟩).text row = s.parameter (((m.group 1).getD ⟨0, 0⟩).text row)
  | _ => False

theorem put_same {c : Completion} {p : DatasetPart} (set : c p = true) : c.put p true = c := by
  funext q
  unfold Completion.put
  split
  · rename_i same
    rw [same, set]
  · rfl

/-- A parameter set to the value it has. -/
theorem setParameter_same {key val : Str} {r r' : Reading} (ne : val ≠ []) (set : setParameter key val r = some r')
    (h : Diary r) (has : val = r.newSection.parameter key) : r' = r := by
  obtain ⟨api, server, port, dbname, user, pass, both, -, -⟩ := h
  have stays : ∀ p : DatasetPart, r.complete p = true → (r.setSection r.newSection).mark p = r := by
    intro p bit
    unfold Reading.mark Reading.setSection
    simp only [put_same bit]
  unfold setParameter at set
  unfold DatasetSection.parameter at has
  split at set
  · rename_i is
    rw [if_pos is] at has
    subst has
    cases set
    rw [stays .api (api ne)]
    split
    · rename_i bit
      exact stays .sectionTag (both (api ne) bit)
    · rfl
  · rename_i isNot
    rw [if_neg isNot] at has
    split at set
    · rename_i is
      rw [if_pos is] at has
      subst has
      cases set
      rw [stays .server (server ne)]
      split
      · rename_i bit
        exact stays .sectionTag (both bit (server ne))
      · rfl
    · rename_i isNot
      rw [if_neg isNot] at has
      split at set
      · rename_i is
        rw [if_pos is] at has
        subst has
        cases set
        exact stays .port (port ne)
      · rename_i isNot
        rw [if_neg isNot] at has
        split at set
        · rename_i is
          rw [if_pos is] at has
          subst has
          cases set
          exact stays .dbname (dbname ne)
        · rename_i isNot
          rw [if_neg isNot] at has
          split at set
          · rename_i is
            rw [if_pos is] at has
            subst has
            cases set
            exact stays .user (user ne)
          · rename_i isNot
            rw [if_neg isNot] at has
            split at set
            · rename_i is
              rw [if_pos is] at has
              subst has
              cases set
              exact stays .pass (pass ne)
            · cases set

/-- What is there stays as it is. -/
theorem rowAction_same {row : Str} {r : Reading} (h : Diary r) (nothing : AddsNothing .otherTag r.newSection row) :
    rowAction rt .otherTag row r = r := by
  unfold rowAction
  simp only
  split
  · rename_i m found
    obtain ⟨p, mem, key⟩ := nothing m found
    have set : r.complete .otherTag = true := h.other fun empty => by
      rw [empty] at mem
      cases mem
    rw [insert_existing rt.shape h.ordered ⟨p, mem, key⟩]
    unfold Reading.mark Reading.setSection
    simp only [put_same set]
  · rfl

/-- A row touches no part if and only if it adds nothing to the open one. -/
theorem addRow_untouched_iff {row row' : Str} {r r' : Reading} (kind : rowKind row = .data) (h : Diary r)
    (open' : r.readingPart ∈ tagParts) (made : substituteRow r.vars row = .ok row') (run : readRow rt row r = .ok () r') :
    (∀ part ∈ tagParts, Untouched part r r') ↔ AddsNothing r.readingPart r.newSection row' := by
  obtain ⟨row'', made', effect⟩ := data_effect kind run
  obtain rfl : row' = row'' := Except.ok.inj (made.symm.trans made')
  rcases effect with ⟨at', m, found, set⟩ | ⟨at', rfl⟩
  · rw [at']
    constructor
    · intro untouched m' found'
      obtain rfl := Option.some.inj (found.symm.trans found')
      have kept := (untouched .sectionTag (by decide)).2 (((m.group 1).getD ⟨0, 0⟩).text row')
      rw [setParameter_parameter set, if_pos rfl] at kept
      exact kept
    · intro nothing part _
      obtain ⟨k, v, group₁, group₂, ne⟩ := keyVal_found found
      have has := nothing m found
      rw [group₂, Option.getD_some] at has set
      rw [setParameter_same ne set h has]
      exact .refl part r
  · simp only [tagParts, List.mem_cons, List.not_mem_nil, or_false] at open'
    rcases open' with part | part | part | part | part
    · exact absurd part at'
    · rw [part]
      refine ⟨fun untouched => ?_, fun nothing => nothing.elim⟩
      have kept := (untouched .selectTag (by decide)).2.1
      exact absurd (List.append_right_eq_self.1 kept) (List.cons_ne_nil _ _)
    · rw [part]
      refine ⟨fun untouched => ?_, fun nothing => nothing.elim⟩
      have kept := (untouched .fromTag (by decide)).2
      exact absurd (List.append_right_eq_self.1 kept) (List.cons_ne_nil _ _)
    · rw [part]
      refine ⟨fun untouched => ?_, fun nothing => nothing.elim⟩
      have kept := (untouched .whereTag (by decide)).2.1
      exact absurd (List.append_right_eq_self.1 kept) (List.cons_ne_nil _ _)
    · rw [part]
      constructor
      · intro untouched m found
        have kept := (untouched .otherTag (by decide)).2
        simp only [rowAction, found] at kept
        change insert rt.shape (byKey Prod.fst) _ r.newSection.other = _ at kept
        by_contra fresh
        have mem := ((insert_byKey rt.shape (((m.group 1).getD ⟨0, 0⟩).text row', ((m.group 2).getD ⟨0, 0⟩).text row')
          h.ordered).2 _).2 (.inr ⟨rfl, fun z mem same => fresh ⟨z, mem, same⟩⟩)
        rw [kept] at mem
        exact fresh ⟨_, mem, rfl⟩
      · intro nothing q _
        rw [rowAction_same h nothing]
        exact .refl q r

/-! ## The nearest tag -/

/-- A data row behind the first `[section]` tag touches the part its nearest tag names, if any, and no other. -/
def BelongsToNearestTag (rt : Runtime) (unset : DatasetPart) (c : SQLTextContainer) (rows : List Str) : Prop :=
  ∀ pre row post tag r r', rows = pre ++ row :: post → (∃ x ∈ pre, isSectionTag x = true) → lastTag pre = some tag →
    rowKind row = .data → readRows rt pre (begin unset c) = .ok () r → readRow rt row r = .ok () r' →
    ∀ part ∈ tagParts, partNamed tag ≠ some part → Untouched part r r'

/-- A data row behind a tag that names no part adds nothing to the part left open. -/
def UnknownTagsAddNothing (rt : Runtime) (unset : DatasetPart) (c : SQLTextContainer) (rows : List Str) : Prop :=
  ∀ pre row post tag r row', rows = pre ++ row :: post → (∃ x ∈ pre, isSectionTag x = true) → lastTag pre = some tag →
    partNamed tag = none → rowKind row = .data → readRows rt pre (begin unset c) = .ok () r →
    substituteRow r.vars row = .ok row' → AddsNothing (openPart unset pre) r.newSection row'

/-- Rows that were read were read one after the other. -/
theorem readRows_split {pre post : List Str} {row : Str} {r r'' : Reading}
    (run : readRows rt (pre ++ row :: post) r = .ok () r'') :
    ∃ r₁ r₂, readRows rt pre r = .ok () r₁ ∧ readRow rt row r₁ = .ok () r₂ ∧ readRows rt post r₂ = .ok () r'' := by
  rw [readRows_append] at run
  obtain ⟨⟨⟩, r₁, first, rest⟩ := Proc.of_bind_ok run
  obtain ⟨⟨⟩, r₂, second, last⟩ := Proc.of_bind_ok rest
  exact ⟨r₁, r₂, first, second, last⟩

theorem begin_diary (unset : DatasetPart) (c : SQLTextContainer) : Diary (begin unset c) := blank_diary rfl rfl

theorem lastTag_mem {rows : List Str} {tag : Str} (last : lastTag rows = some tag) : ∃ row ∈ rows, tagOf row = some tag := by
  induction rows using List.reverseRecOn with
  | nil => cases last
  | append_singleton rows row ih =>
    rw [lastTag_concat] at last
    cases at' : tagOf row with
    | none =>
      rw [at'] at last
      obtain ⟨x, mem, tagged⟩ := ih last
      exact ⟨x, List.mem_append_left _ mem, tagged⟩
    | some text =>
      rw [at'] at last
      cases last
      exact ⟨row, List.mem_append_right _ (List.mem_singleton_self _), at'⟩

/-- Where every tag names a part, no row strays. -/
theorem known_tags {unset : DatasetPart} {c : SQLTextContainer} {rows : List Str}
    (known : ∀ row ∈ rows, (tagOf row).map partNamed ≠ some none) : UnknownTagsAddNothing rt unset c rows := by
  rintro pre row post tag r row' rfl - last unknown - - -
  obtain ⟨x, mem, tagged⟩ := lastTag_mem last
  refine absurd ?_ (known x (List.mem_append_left _ mem))
  rw [tagged, Option.map_some, unknown]

/-- In a file that is read, rows belong to the nearest tag above them if and only if those behind
a tag without a part add nothing to the part left open. -/
theorem nearest_tag_iff (rt : Runtime) (unset : DatasetPart) (c c' : SQLTextContainer) (text : Str) (b : Bool)
    (done : read rt unset (some text) c = .ok b c') :
    BelongsToNearestTag rt unset c (text.splitOn '\n') ↔ UnknownTagsAddNothing rt unset c (text.splitOn '\n') := by
  obtain ⟨final, whole⟩ : ∃ final, readRows rt (text.splitOn '\n') (begin unset c) = .ok () final := by
    obtain ⟨r, ran, -⟩ := read_ok done
    obtain ⟨⟨⟩, final, first, -⟩ := Proc.of_bind_ok ran
    exact ⟨final, first⟩
  constructor
  · intro belongs pre row post tag r row' rows opened last unknown kind ran made
    rw [rows] at whole
    obtain ⟨r₁, r₂, ran', step, -⟩ := readRows_split whole
    cases ran.symm.trans ran'
    have part := readRows_part ran
    have open' : r.readingPart ∈ tagParts := by
      rw [part]
      exact openPart_mem opened
    have untouched := belongs pre row post tag r r₂ rows opened last kind ran step
    have nothing := (addRow_untouched_iff kind (readRows_diary ran (begin_diary unset c)) open' made step).1
      fun q mem => untouched q mem (by rw [unknown]; exact fun h => by cases h)
    rw [part] at nothing
    exact nothing
  · intro idle pre row post tag r r' rows opened last kind ran step part mem other
    have at' := readRows_part ran
    cases named : partNamed tag with
    | some q =>
      refine readRow_untouched kind step mem ?_
      rw [at', openPart_named last named]
      rintro rfl
      exact other named
    | none =>
      have open' : r.readingPart ∈ tagParts := by
        rw [at']
        exact openPart_mem opened
      obtain ⟨row', made, -⟩ := data_effect kind step
      have nothing := idle pre row post tag r row' rows opened last named kind ran made
      rw [← show r.readingPart = openPart unset pre from at'] at nothing
      exact (addRow_untouched_iff kind (readRows_diary ran (begin_diary unset c)) open' made step).2 nothing part mem

theorem sample_nearest : ∃ c, read (.reuse 1) .api (some sample) .fresh = .ok true c ∧
    BelongsToNearestTag (.reuse 1) .api .fresh (sample.splitOn '\n') := by
  obtain ⟨c, done⟩ := sample_reads
  have known : ∀ row ∈ sample.splitOn '\n', (tagOf row).map partNamed ≠ some none := by decide +kernel
  exact ⟨c, done, (nearest_tag_iff (.reuse 1) .api .fresh c sample true done).2 (known_tags known)⟩

/-- A dataset with the tag of the documentation, in upper case. -/
def upperWhere : Str := sample ++ "\n[WHERE]\nb=1".toList

/-- The condition goes into the text of `[from]`. -/
theorem upperWhere_strays : ∃ c, read (.reuse 1) .api (some upperWhere) .fresh = .ok true c ∧
    ¬ BelongsToNearestTag (.reuse 1) .api .fresh (upperWhere.splitOn '\n') := by
  have answer : returned (read (.reuse 1) .api (some upperWhere) .fresh) = some true := by decide +kernel
  obtain ⟨c, done⟩ : ∃ c, read (.reuse 1) .api (some upperWhere) .fresh = .ok true c := by
    cases run : read (.reuse 1) .api (some upperWhere) .fresh with
    | ok b c =>
      rw [run] at answer
      cases answer
      exact ⟨c, rfl⟩
    | error fault c =>
      rw [run] at answer
      cases answer
  refine ⟨c, done, fun belongs => ?_⟩
  have rows : upperWhere.splitOn '\n' = (sample.splitOn '\n' ++ ["[WHERE]".toList]) ++ "b=1".toList :: [] := by rfl
  obtain ⟨final, scanned, -⟩ := read_ok done
  obtain ⟨⟨⟩, r₀, whole, -⟩ := Proc.of_bind_ok scanned
  rw [rows] at whole
  obtain ⟨r, r', ran, step, -⟩ := readRows_split whole
  have opened : ∃ x ∈ sample.splitOn '\n' ++ ["[WHERE]".toList], isSectionTag x = true := by decide +kernel
  have last : lastTag (sample.splitOn '\n' ++ ["[WHERE]".toList]) = some "[WHERE]".toList := by decide +kernel
  have part : r.readingPart = .fromTag := (readRows_part ran).trans (by decide +kernel)
  have kind : rowKind "b=1".toList = .data := by
    have data : isData "b=1".toList = true := by decide +kernel
    unfold isData at data
    split at data
    · assumption
    · cases data
  have untouched := belongs _ _ _ _ r r' rows opened last kind ran step .fromTag (by decide) (by decide)
  obtain ⟨row', -, ⟨at', -⟩ | ⟨-, rfl⟩⟩ := data_effect kind step
  · rw [part] at at'
    cases at'
  · rw [part] at untouched
    exact absurd (List.append_right_eq_self.1 untouched.2) (List.cons_ne_nil _ _)

end SQLTextContainer

end SqlHandler
