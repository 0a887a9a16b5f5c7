import SqlHandler.Container.Completeness

/-!
# The order of the parts of a section

A block is a row with a tag and the data rows behind it. What a data row does in one
part commutes with what a row does in another (`rowAction_comm`), the variables stay, and
only the part being read depends on which block came last. So blocks of different parts
can change places (`foldl_of_filter_eq`).
-/

namespace SqlHandler
open Posix Text Stl

/-- Where steps of different kinds commute, only the order within each kind counts. -/
theorem foldl_of_filter_eq {α σ κ : Type} [DecidableEq κ] {f : σ → α → σ} {kind : α → κ}
    (comm : ∀ a b, kind a ≠ kind b → ∀ s, f (f s a) b = f (f s b) a) {l l' : List α}
    (same : ∀ k, l.filter (fun a => kind a = k) = l'.filter (fun a => kind a = k)) (s : σ) :
    l.foldl f s = l'.foldl f s := by
  induction l generalizing l' s with
  | nil =>
    have : l' = [] := by
      refine List.eq_nil_iff_forall_not_mem.2 fun a mem => ?_
      have : a ∈ l'.filter (fun b => kind b = kind a) := List.mem_filter.2 ⟨mem, by simp⟩
      rw [← same] at this
      cases this
    rw [this]
  | cons a l ih =>
    -- the first step of its kind, with steps of other kinds before it
    obtain ⟨pre, post, rfl, others⟩ : ∃ pre post, l' = pre ++ a :: post ∧ ∀ b ∈ pre, kind b ≠ kind a := by
      have first := same (kind a)
      rw [List.filter_cons_of_pos (by simp)] at first
      obtain ⟨pre, post, e, none, -, -⟩ := List.filter_eq_cons_iff.1 first.symm
      exact ⟨pre, post, e, fun b mem => by simpa using none b mem⟩
    have front : ∀ s, (pre ++ a :: post).foldl f s = (pre ++ post).foldl f (f s a) := by
      intro s
      rw [List.foldl_append, List.foldl_append, List.foldl_cons]
      congr 1
      clear ih same
      induction pre generalizing s with
      | nil => rfl
      | cons b pre ihp =>
        rw [List.foldl_cons, List.foldl_cons, comm a b (Ne.symm (others b List.mem_cons_self))]
        exact ihp (fun c hc => others c (List.mem_cons_of_mem _ hc)) _
    rw [List.foldl_cons, front]
    refine ih (fun k => ?_) _
    have eq := same k
    rw [List.filter_append] at eq ⊢
    by_cases ha : kind a = k
    · rw [List.filter_cons_of_pos (by simpa using ha), List.filter_cons_of_pos (by simpa using ha)] at eq
      have empty : pre.filter (fun b => kind b = k) = [] :=
        List.filter_eq_nil_iff.2 fun b mem => by simpa [← ha] using others b mem
      rw [empty] at eq ⊢
      exact (List.cons.inj eq).2
    · rwa [List.filter_cons_of_neg (by simpa using ha), List.filter_cons_of_neg (by simpa using ha)] at eq

namespace SQLTextContainer

/-- The part a row opens, if it holds one of the known tags behind `[section]`. -/
def opens (row : Str) : Option DatasetPart :=
  match rowKind row with
  | .tag text => partOf text
  | _ => none

theorem opens_tag {row : Str} {part : DatasetPart} (opened : opens row = some part) :
    ∃ text, rowKind row = .tag text ∧ partOf text = some part := by
  unfold opens at opened
  cases kind : rowKind row with
  | tag text =>
    rw [kind] at opened
    exact ⟨text, rfl, opened⟩
  | _ =>
    rw [kind] at opened
    cases opened

theorem partOf_other {text : Str} {part : DatasetPart} (found : partOf text = some part) : text ≠ "[section]".toList := by
  rintro rfl
  cases found

theorem opens_other {row : Str} {part : DatasetPart} (opened : opens row = some part) : isSectionTag row = false := by
  obtain ⟨text, kind, found⟩ := opens_tag opened
  simpa [isSectionTag, kind] using partOf_other found

/-- A row without a tag or a definition. -/
def isPlain (row : Str) : Bool :=
  match rowKind row with
  | .idle => true
  | .data => true
  | _ => false

/-- A row with a tag and the rows of its part. -/
structure Block where
  tag : Str
  part : DatasetPart
  rows : List Str
  opens_part : opens tag = some part
  plain : ∀ row ∈ rows, isPlain row = true

namespace Block

def text (b : Block) : List Str := b.tag :: b.rows

theorem part_known (b : Block) :
    b.part = .selectTag ∨ b.part = .fromTag ∨ b.part = .whereTag ∨ b.part = .otherTag := by
  obtain ⟨text, -, h⟩ := opens_tag b.opens_part
  unfold partOf at h
  repeat' split at h
  all_goals first | cases h | skip
  all_goals rw [← Option.some.inj h]; simp

end Block

variable (rt : Runtime)

/-! ## Rows of different parts -/

theorem put_comm (c : Completion) (p q : DatasetPart) : (c.put p true).put q true = (c.put q true).put p true := by
  funext x
  simp only [Completion.put]
  split <;> split <;> rfl

theorem rowAction_frame (part : DatasetPart) (row : Str) (r : Reading) (q : DatasetPart) :
    (rowAction rt part row r).vars = r.vars ∧ (rowAction rt part row r).readingPart = r.readingPart ∧
      rowAction rt part row (r.setPart q) = (rowAction rt part row r).setPart q := by
  unfold rowAction
  split
  · split <;> exact ⟨rfl, rfl, rfl⟩
  · unfold appendRow
    split <;> exact ⟨rfl, rfl, rfl⟩

theorem rowAction_comm {b b' : Block} (ne : b.part ≠ b'.part) (row row' : Str) (r : Reading) :
    rowAction rt b.part row (rowAction rt b'.part row' r) = rowAction rt b'.part row' (rowAction rt b.part row r) := by
  have swap := put_comm r.complete b.part b'.part
  rcases b.part_known with h | h | h | h <;> rcases b'.part_known with h' | h' | h' | h' <;>
    rw [h, h'] at ne ⊢ <;> first
    | exact absurd rfl ne
    | (rw [h, h'] at swap
       simp only [rowAction, appendRow, Reading.mark, Reading.setSection]
       repeat' split
       all_goals simp_all)

/-! ## The run of a block -/

/-- A row that is neither idle nor a definition nor a tag. -/
def isData (row : Str) : Bool :=
  match rowKind row with
  | .data => true
  | _ => false

/-- The variables of every data row are defined. -/
def substitutes (vars : Vars) (rows : List Str) : Bool :=
  rows.all fun row => !isData row || (substituteRow vars row).isOk

/-- What the rows of a part do, with their variables substituted. -/
def rowActions (part : DatasetPart) (vars : Vars) (rows : List Str) (r : Reading) : Reading :=
  rows.foldl (fun r row =>
    if isData row then
      match substituteRow vars row with
      | .ok row => rowAction rt part row r
      | .error _ => r
    else r) r

theorem substitutes_cons (vars : Vars) (row : Str) (rows : List Str) :
    substitutes vars (row :: rows) = ((!isData row || (substituteRow vars row).isOk) && substitutes vars rows) := rfl

theorem rowActions_cons (part : DatasetPart) (vars : Vars) (row : Str) (rows : List Str) (r : Reading) :
    rowActions rt part vars (row :: rows) r = rowActions rt part vars rows
      (if isData row then
        match substituteRow vars row with
        | .ok row => rowAction rt part row r
        | .error _ => r
      else r) := rfl

theorem rowActions_frame (part : DatasetPart) (vars : Vars) (rows : List Str) (r : Reading) (q : DatasetPart) :
    (rowActions rt part vars rows r).vars = r.vars ∧ (rowActions rt part vars rows r).readingPart = r.readingPart ∧
      rowActions rt part vars rows (r.setPart q) = (rowActions rt part vars rows r).setPart q := by
  induction rows generalizing r with
  | nil => exact ⟨rfl, rfl, rfl⟩
  | cons row rows ih =>
    rw [rowActions_cons, rowActions_cons]
    split
    · cases substituteRow vars row with
      | error fault => exact ih r
      | ok row' =>
        obtain ⟨vars₁, part₁, set₁⟩ := rowAction_frame rt part row' r q
        obtain ⟨vars₂, part₂, set₂⟩ := ih (rowAction rt part row' r)
        simp only [set₁]
        exact ⟨vars₂.trans vars₁, part₂.trans part₁, set₂⟩
    · exact ih r

theorem rowStep_part {r : Reading} {part : DatasetPart} (at' : r.readingPart = part) (ne : part ≠ .sectionTag)
    (row : Str) : rowStep rt row r = .ok (rowAction rt part row r) := by
  unfold rowStep
  rw [at']
  cases part <;> first | exact absurd rfl ne | rfl

theorem readRows_plain {part : DatasetPart} (ne : part ≠ .sectionTag) {rows : List Str}
    (plain : ∀ row ∈ rows, isPlain row = true) {r : Reading} (at' : r.readingPart = part) :
    if substitutes r.vars rows then readRows rt rows r = .ok () (rowActions rt part r.vars rows r)
    else ∃ fault r', readRows rt rows r = .error fault r' := by
  induction rows generalizing r with
  | nil => simp only [substitutes, List.all_nil, if_true]; rfl
  | cons row rows ih =>
    have plain₁ := plain row List.mem_cons_self
    have later := fun x mem => plain x (List.mem_cons_of_mem _ mem)
    have first := readRow_eq rt row
    rw [substitutes_cons, rowActions_cons]
    change if _ then (readRow rt row >>= fun _ => readRows rt rows) r = _ else
      ∃ fault r', (readRow rt row >>= fun _ => readRows rt rows) r = _
    unfold isPlain at plain₁
    cases kind : rowKind row with
    | idle =>
      rw [kind] at first
      have idle : isData row = false := by unfold isData; rw [kind]
      rw [Proc.bind_ok (show readRow rt row r = .ok () r by rw [first]; rfl), idle]
      exact ih later at'
    | definition m => rw [kind] at plain₁; cases plain₁
    | tag text => rw [kind] at plain₁; cases plain₁
    | data =>
      rw [kind] at first
      have run := addRow_run rt row r
      rw [← show readRow rt row r = addRow rt row r by rw [first]] at run
      have data : isData row = true := by unfold isData; rw [kind]
      rw [data]
      cases subst : substituteRow r.vars row with
      | error fault =>
        simp only [subst] at run
        rw [Proc.bind_error run]
        simp [Except.isOk, Except.toBool]
      | ok row' =>
        simp only [subst, rowStep_part rt at' ne] at run
        rw [Proc.bind_ok run]
        obtain ⟨vars, still, -⟩ := rowAction_frame rt part row' r part
        have rest := ih later (still.trans at')
        rw [vars] at rest
        simpa [Except.isOk, Except.toBool] using rest

/-- A row whose tag opens a part. -/
theorem opens_run {row : Str} {part : DatasetPart} (opened : opens row = some part) (r : Reading) :
    readRow rt row r = .ok () (r.setPart part) := by
  obtain ⟨text, kind, found⟩ := opens_tag opened
  rw [readRow_eq, kind]
  simp only [partTracking_run, if_neg (partOf_other found), found]
  rfl

namespace Block

/-- The block's variables are defined. -/
def fits (vars : Vars) (b : Block) : Bool := substitutes vars b.rows

/-- What the block does to the section under construction. -/
def act (vars : Vars) (r : Reading) (b : Block) : Reading := rowActions rt b.part vars b.rows r

theorem act_comm (vars : Vars) (b b' : Block) (ne : b.part ≠ b'.part) (r : Reading) :
    act rt vars (act rt vars r b) b' = act rt vars (act rt vars r b') b := by
  -- one row of the second block passes the whole first block
  have one : ∀ row rows r, rowActions rt b.part vars rows (rowAction rt b'.part row r) =
      rowAction rt b'.part row (rowActions rt b.part vars rows r) := by
    intro row rows
    induction rows with
    | nil => intro r; rfl
    | cons x rows ih =>
      intro r
      rw [rowActions_cons, rowActions_cons]
      split
      · cases substituteRow vars x with
        | error fault => exact ih r
        | ok x' =>
          simp only
          rw [rowAction_comm rt ne x' row r]
          exact ih _
      · exact ih r
  unfold act
  generalize b'.rows = rows'
  induction rows' generalizing r with
  | nil => rfl
  | cons row rows' ih =>
    rw [rowActions_cons, rowActions_cons, ← ih]
    split
    · cases substituteRow vars row with
      | error fault => rfl
      | ok row' => simp only [one]
    · rfl

theorem part_ne (b : Block) : b.part ≠ .sectionTag := by
  rcases b.part_known with h | h | h | h <;> rw [h] <;> decide

theorem run (b : Block) (r : Reading) :
    if b.fits r.vars then readRows rt b.text r = .ok () ((act rt r.vars r b).setPart b.part)
    else ∃ fault r', readRows rt b.text r = .error fault r' := by
  change if _ then (readRow rt b.tag >>= fun _ => readRows rt b.rows) r = _ else
    ∃ fault r', (readRow rt b.tag >>= fun _ => readRows rt b.rows) r = _
  rw [Proc.bind_ok (opens_run rt b.opens_part r)]
  have body := readRows_plain rt b.part_ne b.plain (r := r.setPart b.part) rfl
  have moved := (rowActions_frame rt b.part r.vars b.rows r b.part).2.2
  simp only [Reading.setPart] at body moved ⊢
  rw [moved] at body
  exact body

end Block

/-- The blocks of a section, one after the other. -/
theorem blocks_run (blocks : List Block) (r : Reading) :
    if blocks.all (Block.fits r.vars) then
      ∃ part, readRows rt (blocks.flatMap Block.text) r = .ok () ((blocks.foldl (Block.act rt r.vars) r).setPart part)
    else ∃ fault r', readRows rt (blocks.flatMap Block.text) r = .error fault r' := by
  induction blocks generalizing r with
  | nil => exact ⟨r.readingPart, rfl⟩
  | cons b blocks ih =>
    rw [List.flatMap_cons, readRows_append, List.all_cons]
    have first := b.run rt r
    cases fits : b.fits r.vars with
    | false =>
      rw [fits] at first
      obtain ⟨fault, r', error⟩ := first
      simp only [Bool.false_and, Bool.false_eq_true, if_false]
      exact ⟨fault, r', Proc.bind_error error⟩
    | true =>
      rw [fits, if_pos rfl] at first
      rw [Proc.bind_ok first, Bool.true_and, List.foldl_cons]
      have rest := ih ((b.act rt r.vars r).setPart b.part)
      have vars : ((b.act rt r.vars r).setPart b.part).vars = r.vars :=
        (rowActions_frame rt b.part r.vars b.rows r b.part).1
      rw [vars] at rest
      have moved : ∀ (blocks : List Block) (s : Reading), blocks.foldl (Block.act rt r.vars) (s.setPart b.part) =
          (blocks.foldl (Block.act rt r.vars) s).setPart b.part := by
        intro blocks
        induction blocks with
        | nil => intro s; rfl
        | cons c blocks ih =>
          intro s
          have := (rowActions_frame rt c.part r.vars c.rows s b.part).2.2
          rw [List.foldl_cons, List.foldl_cons, Block.act, this]
          exact ih _
      rw [moved] at rest
      exact rest

/-! ## The end of the section -/

/-- A function that neither reads nor writes the part being read. -/
def PartBlind {α : Type} (m : Proc Reading α) : Prop :=
  ∀ r part, m (r.setPart part) = match m r with
    | .ok a r' => .ok a (r'.setPart part)
    | .error fault r' => .error fault (r'.setPart part)

theorem partBlind_iff {α : Type} {m : Proc Reading α} :
    PartBlind m ↔ ∀ part, Proc.Commutes (fun r => r.setPart part) m := by
  constructor
  · intro h part r
    refine (h r part).trans ?_
    cases m r <;> rfl
  · intro h r part
    refine (h part r).trans ?_
    cases m r <;> rfl

theorem PartBlind.bind {α β : Type} {m : Proc Reading α} {f : α → Proc Reading β} (hm : PartBlind m)
    (hf : ∀ a, PartBlind (f a)) : PartBlind (m >>= f) := by
  rw [partBlind_iff]
  intro part
  exact (partBlind_iff.1 hm part).bind (fun a => partBlind_iff.1 (hf a) part)

theorem addWhere_blind : PartBlind (addWhere rt) := by
  intro r part
  rw [addWhere_run, addWhere_run]
  have bit : (r.setPart part).complete = r.complete := rfl
  have buffer : (r.setPart part).whereBuf = r.whereBuf := rfl
  rw [bit, buffer]
  split
  · cases SQLQuery.loadConstraints rt.shape r.whereBuf with
    | ok cs t =>
      simp only [putWhere]
      split <;> rfl
    | error fault t => rfl
  · rfl

theorem addSelect_blind : PartBlind (addSelect rt) := by
  intro r part
  rw [addSelect_run, addSelect_run]
  have bit : (r.setPart part).complete = r.complete := rfl
  have buffer : (r.setPart part).attributeBuf = r.attributeBuf := rfl
  rw [bit, buffer]
  split
  · cases SQLQuery.loadAttributes rt.shape r.attributeBuf with
    | ok as t =>
      simp only [putAttributes]
      split <;> rfl
    | error fault t => rfl
  · rfl

theorem addNewSection_blind : PartBlind (addNewSection rt) := by
  apply (addWhere_blind rt).bind
  intro _
  apply (addSelect_blind rt).bind
  intro _ r part
  rw [Proc.get_bind, Proc.get_bind]
  have bit : (r.setPart part).complete = r.complete := rfl
  rw [bit]
  split <;> rfl

/-- What follows the rows in `scan`. -/
def finish : Proc Reading Bool := do
  if (← get).start then return false
  else do
    addNewSection rt
    return true

theorem scan_append (rows rows' : List Str) :
    scan rt (rows ++ rows') = (do readRows rt rows; readRows rt rows'; finish rt) := by
  change (readRows rt (rows ++ rows') >>= fun _ => finish rt) = _
  rw [readRows_append]
  funext r
  cases run : readRows rt rows r with
  | error fault r' => rw [Proc.bind_error run, Proc.bind_error (Proc.bind_error run)]
  | ok a r' =>
    rw [Proc.bind_ok run]
    cases run' : readRows rt rows' r' with
    | error fault r'' => rw [Proc.bind_error run', Proc.bind_error (by rw [Proc.bind_ok run, run'])]
    | ok a r'' => rw [Proc.bind_ok run', Proc.bind_ok (by rw [Proc.bind_ok run, run'])]

/-- Both calls fail, or both answer the same with the same container. -/
inductive Agree : EStateM.Result Fault SQLTextContainer Bool → EStateM.Result Fault SQLTextContainer Bool → Prop
  | returned (b : Bool) (c : SQLTextContainer) : Agree (.ok b c) (.ok b c)
  | failed (fault fault' : Fault) (c c' : SQLTextContainer) : Agree (.error fault c) (.error fault' c')

/-- What `read` makes of the result of a scan. -/
def answer : EStateM.Result Fault Reading Bool → EStateM.Result Fault SQLTextContainer Bool
  | .ok b r => .ok b r.toSQLTextContainer
  | .error fault r => .error fault r.toSQLTextContainer

theorem read_eq (unset : DatasetPart) (text : Str) (c : SQLTextContainer) :
    read rt unset (some text) c = answer (scan rt (text.splitOn '\n') (begin unset c)) := by
  change (match scan rt (text.splitOn '\n') (begin unset c) with
    | .ok b r => EStateM.Result.ok b r.toSQLTextContainer
    | .error fault r => .error fault r.toSQLTextContainer) = _
  cases scan rt (text.splitOn '\n') (begin unset c) <;> rfl

theorem Agree.refl (x : EStateM.Result Fault SQLTextContainer Bool) : Agree x x := by
  cases x with
  | ok b c => exact .returned b c
  | error fault c => exact .failed fault fault c c

/-- The rest of the file does not depend on the part that was read last. -/
theorem tail_agrees {tail : List Str} (ends : tail = [] ∨ ∃ tag rest, tail = tag :: rest ∧ isSectionTag tag = true)
    (r : Reading) (part part' : DatasetPart) :
    Agree (answer ((readRows rt tail >>= fun _ => finish rt) (r.setPart part)))
      (answer ((readRows rt tail >>= fun _ => finish rt) (r.setPart part'))) := by
  have add := addNewSection_blind rt r part
  have add' := addNewSection_blind rt r part'
  rcases ends with rfl | ⟨tag, rest, rfl, tagged⟩
  · change Agree (answer (finish rt (r.setPart part))) (answer (finish rt (r.setPart part')))
    unfold finish
    rw [Proc.get_bind, Proc.get_bind]
    cases start : r.start with
    | true =>
      simp only [Reading.setPart, start, if_true]
      exact .returned _ _
    | false =>
      have running : ∀ q, (r.setPart q).start = false := fun q => start
      simp only [running, Bool.false_eq_true, if_false]
      cases run : addNewSection rt r with
      | ok a r' =>
        simp only [run] at add add'
        rw [Proc.bind_ok add, Proc.bind_ok add']
        exact .returned _ _
      | error fault r' =>
        simp only [run] at add add'
        rw [Proc.bind_error add, Proc.bind_error add']
        exact .failed _ _ _ _
  · -- the tag stores the section and sets the part itself
    have row : ∀ q, readRow rt tag (r.setPart q) = partTracking rt "[section]".toList (r.setPart q) := by
      intro q
      rw [readRow_eq, isSectionTag_iff.1 tagged]
    have row₁ := row part
    have row₂ := row part'
    rw [partTracking_run, if_pos rfl] at row₁ row₂
    change Agree (answer (((readRow rt tag >>= fun _ => readRows rt rest) >>= fun _ => finish rt) (r.setPart part)))
      (answer (((readRow rt tag >>= fun _ => readRows rt rest) >>= fun _ => finish rt) (r.setPart part')))
    cases start : r.start with
    | true =>
      rw [if_pos (show (r.setPart part).start = true from start)] at row₁
      rw [if_pos (show (r.setPart part').start = true from start)] at row₂
      rw [Proc.bind_congr (Proc.bind_congr (row₁.trans row₂.symm))]
      exact Agree.refl _
    | false =>
      rw [if_neg (show ¬ (r.setPart part).start = true by simp [Reading.setPart, start])] at row₁
      rw [if_neg (show ¬ (r.setPart part').start = true by simp [Reading.setPart, start])] at row₂
      cases run : addNewSection rt r with
      | ok a r' =>
        simp only [run] at add add'
        simp only [add] at row₁
        simp only [add'] at row₂
        rw [Proc.bind_congr (Proc.bind_congr (row₁.trans row₂.symm))]
        exact Agree.refl _
      | error fault r' =>
        simp only [run] at add add'
        simp only [add] at row₁
        simp only [add'] at row₂
        rw [Proc.bind_error (Proc.bind_error row₁), Proc.bind_error (Proc.bind_error row₂)]
        exact .failed _ _ _ _

/-- Blocks of different parts may change places: the file is read with the same answer
and into the same container, or not at all. The rows in front of them and from the next `[section]` row
on are any; where the calls fail, their errors may differ. -/
theorem read_part_order (unset : DatasetPart) (c : SQLTextContainer) {text text' : Str} {head tail : List Str}
    {blocks blocks' : List Block}
    (same : ∀ part, blocks.filter (fun b => b.part = part) = blocks'.filter (fun b => b.part = part))
    (ends : tail = [] ∨ ∃ tag rest, tail = tag :: rest ∧ isSectionTag tag = true)
    (rows : text.splitOn '\n' = head ++ blocks.flatMap Block.text ++ tail)
    (rows' : text'.splitOn '\n' = head ++ blocks'.flatMap Block.text ++ tail) :
    Agree (read rt unset (some text) c) (read rt unset (some text') c) := by
  rw [read_eq, read_eq, rows, rows', List.append_assoc, List.append_assoc, scan_append, scan_append]
  cases first : readRows rt head (begin unset c) with
  | error fault r =>
    rw [Proc.bind_error first, Proc.bind_error first]
    exact .failed _ _ _ _
  | ok a r =>
  rw [Proc.bind_ok first, Proc.bind_ok first, readRows_append, readRows_append]
  have members : ∀ b, b ∈ blocks ↔ b ∈ blocks' := by
    intro b
    have := congrArg (b ∈ ·) (same b.part)
    simpa using this
  have fit : blocks.all (Block.fits r.vars) = blocks'.all (Block.fits r.vars) := by
    rw [Bool.eq_iff_iff, List.all_eq_true, List.all_eq_true]
    simp only [members]
  have run := blocks_run rt blocks r
  have run' := blocks_run rt blocks' r
  rw [← fit] at run'
  split at run
  · rename_i fits
    rw [if_pos fits] at run'
    obtain ⟨part, run⟩ := run
    obtain ⟨part', run'⟩ := run'
    rw [← foldl_of_filter_eq (fun b b' ne r => Block.act_comm rt _ b b' ne r) same] at run'
    rw [Proc.bind_congr (Proc.bind_ok run), Proc.bind_congr (Proc.bind_ok run')]
    exact tail_agrees rt ends _ part part'
  · rename_i fits
    rw [if_neg fits] at run'
    obtain ⟨fault, r₁, run⟩ := run
    obtain ⟨fault', r₂, run'⟩ := run'
    rw [Proc.bind_error (Proc.bind_error run), Proc.bind_error (Proc.bind_error run')]
    exact .failed _ _ _ _

/-- A row that is nothing but a known tag. -/
theorem opens_known {tag : Str} {part : DatasetPart} (known : partOf tag = some part) : opens tag = some part := by
  unfold partOf at known
  split at known
  · subst tag
    cases known
    decide +kernel
  split at known
  · subst tag
    cases known
    decide +kernel
  split at known
  · subst tag
    cases known
    decide +kernel
  split at known
  · subst tag
    cases known
    decide +kernel
  · cases known

theorem select_opens : opens "[select]".toList = some .selectTag := opens_known rfl

theorem from_opens : opens "[from]".toList = some .fromTag := opens_known rfl

theorem where_opens : opens "[where]".toList = some .whereTag := opens_known rfl

theorem other_opens : opens "[other]".toList = some .otherTag := opens_known rfl

theorem sample_plain : ∀ row ∈ ["x".toList, "t".toList], isPlain row = true := by decide +kernel

def selectBlock : Block :=
  ⟨"[select]".toList, .selectTag, ["x".toList], select_opens,
    fun row mem => sample_plain row (List.mem_cons.2 (.inl (List.mem_singleton.1 mem)))⟩

def fromBlock : Block :=
  ⟨"[from]".toList, .fromTag, ["t".toList], from_opens, fun row mem => sample_plain row (List.mem_cons_of_mem _ mem)⟩

/-- `sample` with its `[from]` in front. -/
def sampleReordered : Str := "[section]\napi=a\nserver=s\n[from]\nt\n[select]\nx".toList

theorem sample_rows : sample.splitOn '\n' = ["[section]".toList, "api=a".toList, "server=s".toList] ++
    [selectBlock, fromBlock].flatMap Block.text ++ [] := by rfl

theorem sampleReordered_rows : sampleReordered.splitOn '\n' =
    ["[section]".toList, "api=a".toList, "server=s".toList] ++ [fromBlock, selectBlock].flatMap Block.text ++ [] := by
  rfl

theorem sample_blocks (part : DatasetPart) : [selectBlock, fromBlock].filter (fun b => b.part = part) =
    [fromBlock, selectBlock].filter (fun b => b.part = part) := by
  cases part <;> rfl

theorem sample_part_order :
    Agree (read (.reuse 1) .api (some sample) .fresh) (read (.reuse 1) .api (some sampleReordered) .fresh) :=
  read_part_order (.reuse 1) .api .fresh sample_blocks (.inl rfl) sample_rows sampleReordered_rows

end SQLTextContainer

end SqlHandler
