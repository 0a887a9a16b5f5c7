import SqlHandler.Container.Endings

/-!
# Setting a container up again

`SQLContainer::setup` clears the sections and reads the file. A call that fails leaves what
`addNewSection` has not emptied in the buffers, and an exception leaves the status as it
was. The next call is that of a new container if and only if no condition begins in what is
left of `[where]` and commas and spaces are left of `[select]`: any other text is told by a
file with one section (`unnoticed_of`).
-/

namespace SqlHandler
open Posix Text Stl

namespace SQLTextContainer
variable (rt : Runtime)

/-! ## Texts that are noticed -/

/-- A text appended to one of the parts with a buffer. -/
def extend (part : DatasetPart) (t : Text) (r : Reading) : Reading :=
  if t = [] then r
  else match part with
    | .selectTag => { r with attributeBuf := r.attributeBuf ++ t }.mark .selectTag
    | .whereTag => { r with whereBuf := r.whereBuf ++ t }.mark .whereTag
    | _ => r

theorem extend_extend (part : DatasetPart) (t t' : Text) (r : Reading) :
    extend part t' (extend part t r) = extend part (t ++ t') r := by
  unfold extend
  by_cases first : t = []
  · subst first
    simp
  · by_cases second : t' = []
    · subst second
      simp
    · have both : t ++ t' ≠ [] := by simp [first]
      rw [if_neg first, if_neg second, if_neg both]
      have again : ∀ p, (r.complete.put p true).put p true = r.complete.put p true :=
        fun p => put_same (by simp [Completion.put])
      cases part with
      | selectTag => simp [Reading.mark, again]
      | whereTag => simp [Reading.mark, again]
      | _ => rfl

theorem extend_vars (part : DatasetPart) (t : Text) (r : Reading) (vars : Vars) :
    extend part t { r with vars } = { extend part t r with vars } ∧ (extend part t r).readingPart = r.readingPart := by
  unfold extend
  split
  · exact ⟨rfl, rfl⟩
  · cases part <;> exact ⟨rfl, rfl⟩

/-- A row of one of these parts. -/
theorem partRow_run {part : DatasetPart} (known : part = .whereTag ∨ part = .selectTag) {row : Str} (taken : IsPartRow row)
    {b : Text} {s : Text × Vars} {r : Reading} (at' : r.readingPart = part) (step : takeRow rt (b, r.vars) row = .ok s) :
    ∃ more, s.1 = b ++ more ∧ readRow rt row r = .ok () { extend part more r with vars := s.2 } := by
  obtain ⟨-, kinds⟩ := taken
  unfold takeRow at step
  unfold isDefinition isData at kinds
  rw [readRow_eq]
  cases kind : rowKind row with
  | idle => simp [kind] at kinds
  | tag text => simp [kind] at kinds
  | definition m =>
    simp only [kind] at step
    cases made : defined rt row m r.vars with
    | error fault =>
      rw [made] at step
      cases step
    | ok vars =>
      rw [made] at step
      cases step
      refine ⟨[], by simp, ?_⟩
      simp only [defineVariable_run, made, extend, if_true]
  | data =>
    simp only [kind] at step
    cases made : substituteRow r.vars row with
    | error fault =>
      rw [made] at step
      cases step
    | ok row' =>
      rw [made] at step
      cases step
      have ne : rowText row' ≠ [] := append_row_ne [] row'
      refine ⟨rowText row', rfl, ?_⟩
      simp only [addRow_run, made]
      rcases known with rfl | rfl
      · rw [rowStep_part rt at' (by decide)]
        simp only [extend, if_neg ne]
        rfl
      · rw [rowStep_part rt at' (by decide)]
        simp only [extend, if_neg ne]
        rfl

theorem partRows_run {part : DatasetPart} (known : part = .whereTag ∨ part = .selectTag) {rows : List Str}
    (taken : ∀ row ∈ rows, IsPartRow row) {b t : Text} {vars : Vars} {r : Reading} (at' : r.readingPart = part)
    (run : rows.foldlM (takeRow rt) (b, r.vars) = .ok (t, vars)) :
    ∃ more, t = b ++ more ∧ readRows rt rows r = .ok () { extend part more r with vars } := by
  induction rows generalizing b r with
  | nil =>
    cases run
    exact ⟨[], by simp, rfl⟩
  | cons row rows ih =>
    rw [List.foldlM_cons] at run
    cases step : takeRow rt (b, r.vars) row with
    | error fault =>
      rw [step] at run
      cases run
    | ok s =>
      rw [step] at run
      obtain ⟨more, same, first⟩ := partRow_run rt known (taken row List.mem_cons_self) at' step
      obtain ⟨more', same', rest⟩ := ih (fun x mem => taken x (List.mem_cons_of_mem _ mem))
        (r := { extend part more r with vars := s.2 }) ((extend_vars part more r r.vars).2.trans at') run
      refine ⟨more ++ more', ?_, ?_⟩
      · rw [same', same, List.append_assoc]
      · change (readRow rt row >>= fun _ => readRows rt rows) r = _
        rw [Proc.bind_ok first, rest, ← extend_extend, (extend_vars part more' _ s.2).1]

/-! ## A file for a text -/

theorem literal_run {row : Str} (literal : isLiteral row = true) {r r' : Reading} (step : rowStep rt row r = .ok r') :
    readRow rt row r = .ok () r' := by
  obtain ⟨kind, same⟩ := literal_data literal
  rw [readRow_eq, kind]
  simp only [addRow_run, same, step]

/-- The key and the value of a row. -/
def keyVal (row : Str) : Option (Str × Str) :=
  (regexec regKeyVal (rowStr row)).map fun m => (((m.group 1).getD ⟨0, 0⟩).text row, ((m.group 2).getD ⟨0, 0⟩).text row)

theorem keyVal_step {row key val : Str} (keyed : keyVal row = some (key, val)) {r r' : Reading}
    (at' : r.readingPart = .sectionTag) (set : setParameter key val r = some r') : rowStep rt row r = .ok r' := by
  unfold keyVal at keyed
  obtain ⟨m, found, same⟩ := Option.map_eq_some_iff.1 keyed
  simp only [Prod.mk.injEq] at same
  unfold rowStep
  simp only [at', found, same.1, same.2, set]

/-- Rows of a section with nothing but what is required in front of its `[select]`. -/
def headRows : List Str :=
  ["[section]".toList, "api=a".toList, "server=s".toList, "[from]".toList, "t".toList]

/-- The state behind them. -/
def headed (unset : DatasetPart) (c : SQLTextContainer) : Reading :=
  let r₁ := { begin unset c with start := false }.setPart .sectionTag
  let r₂ := (r₁.setSection { DatasetSection.blank with api := ['a'] }).mark .api
  let r₃ := ((r₂.setSection { DatasetSection.blank with api := ['a'], server := ['s'] }).mark .server).mark .sectionTag
  appendRow ['t'] .fromTag (r₃.setPart .fromTag)

theorem sample_literal : ∀ row ∈ ["x".toList, "t".toList], isLiteral row = true := by decide +kernel

theorem x_literal : isLiteral "x".toList = true := sample_literal _ List.mem_cons_self

theorem t_literal : isLiteral "t".toList = true := sample_literal _ (List.mem_cons_of_mem _ List.mem_cons_self)

theorem headRows_run (unset : DatasetPart) (c : SQLTextContainer) :
    readRows rt headRows (begin unset c) = .ok () (headed unset c) := by
  have api : isLiteral "api=a".toList = true ∧ keyVal "api=a".toList = some ("api".toList, ['a']) := by decide +kernel
  have server : isLiteral "server=s".toList = true ∧ keyVal "server=s".toList = some ("server".toList, ['s']) := by
    decide +kernel
  have first : readRow rt "[section]".toList (begin unset c) = .ok () ({ begin unset c with start := false }.setPart .sectionTag) := by
    rw [readRow_eq, isSectionTag_iff.1 section_tagged]
    rfl
  unfold headed
  generalize same : ({ begin unset c with start := false }.setPart .sectionTag : Reading) = r₁ at first
  have second : readRow rt "api=a".toList r₁ =
      .ok () ((r₁.setSection { DatasetSection.blank with api := ['a'] }).mark .api) := by
    subst same
    exact literal_run rt api.1 (keyVal_step rt api.2 rfl rfl)
  generalize same₂ : (r₁.setSection { DatasetSection.blank with api := ['a'] }).mark .api = r₂ at second
  have third : readRow rt "server=s".toList r₂ = .ok ()
      (((r₂.setSection { DatasetSection.blank with api := ['a'], server := ['s'] }).mark .server).mark .sectionTag) := by
    subst same₂
    subst same
    exact literal_run rt server.1 (keyVal_step rt server.2 rfl rfl)
  dsimp only
  rw [same₂]
  generalize ((r₂.setSection _).mark .server).mark .sectionTag = r₃ at third
  have opened : (r₃.setPart .fromTag).readingPart = .fromTag := rfl
  have last : readRow rt "t".toList (r₃.setPart .fromTag) = .ok () (appendRow ['t'] .fromTag (r₃.setPart .fromTag)) :=
    literal_run rt t_literal (rowStep_part rt opened (by decide) _)
  change (readRow rt _ >>= fun _ => readRow rt _ >>= fun _ => readRow rt _ >>= fun _ => readRow rt _ >>= fun _ =>
    readRow rt _ >>= fun _ => pure ()) _ = _
  rw [Proc.bind_ok first, Proc.bind_ok second, Proc.bind_ok third, Proc.bind_ok (opens_run rt from_opens r₃),
    Proc.bind_ok last]
  rfl

/-- The attributes of a `[select]` with the row `x`. -/
theorem x_attributes : ∃ as, attributesOf rt (rowText ['x']) = .ok as := by
  have items : recognised (rowText ['x']) = [Text.of .dataset ['x']] := by decide +kernel
  cases made : SQLAttribute.make (Text.of .dataset ['x']) 0 with
  | error fault =>
    have isOk : (SQLAttribute.make (Text.of .dataset ['x']) 0).isOk = true := by decide +kernel
    rw [made] at isOk
    cases isOk
  | ok attr =>
    have attrs : [attr].map Except.ok = (recognised (rowText ['x'])).mapIdx fun i x => SQLAttribute.make x i := by
      rw [items]
      simp [made]
    obtain ⟨left, load⟩ := AttributeList.loadAttributes_of rt.shape attrs
    have one : (insertAll rt.shape attrNameComp .leaf [attr]).toList = [attr] := by
      simp [insertAll, Stl.insert, attach, rt.shape.rebalance_toList, SearchTree.toList]
    refine ⟨insertAll rt.shape attrNameComp .leaf [attr], ?_⟩
    unfold attributesOf
    rw [load]
    simp only [one]
    rfl

/-- How a scan ends whose rows have been read. -/
theorem scan_end {rows : List Str} {r r' : Reading} (run : readRows rt rows r = .ok () r') (start : r'.start = false)
    (dataset : r'.dataset = []) : outcome (scan rt rows r) = match endOf rt r' with
      | .ok s => (.ok true, [s])
      | .error fault => (.error fault, []) := by
  change outcome ((readRows rt rows >>= fun _ => finish rt) r) = _
  obtain ⟨r₁, ended, stored⟩ := addNewSection_end rt r'
  have sections := ended.dataset
  rw [dataset] at sections
  rw [Proc.bind_ok run]
  unfold finish
  rw [Proc.get_bind, start, if_neg (by decide)]
  cases h : endOf rt r' with
  | ok s =>
    rw [h] at stored sections
    rw [Proc.bind_ok stored]
    exact congrArg (Except.ok true, ·) sections
  | error fault =>
    rw [h] at stored sections
    rw [Proc.bind_error stored]
    exact congrArg (Except.error fault, ·) sections

theorem ends_same {x y : Except Fault DatasetSection} (same : (match x with
      | .ok s => (Except.ok true, [s])
      | .error fault => (.error fault, []) : Except Fault Bool × List DatasetSection) = match y with
      | .ok s => (.ok true, [s])
      | .error fault => (.error fault, [])) : x = y := by
  cases x <;> cases y <;> simp_all

/-- With all marks the section is made of its parts. -/
theorem selectEnd_marked {r : Reading} (marks : ∀ part ∈ requirements, r.complete part = true) (s : DatasetSection) :
    selectEnd rt r s = (attributesOf rt r.attributeBuf).map fun as => { s with query := { s.query with select := as } } := by
  unfold selectEnd
  have all : [DatasetPart.sectionTag, .api, .server, .fromTag].all r.complete = true := by
    rw [List.all_eq_true]
    intro part mem
    exact marks part (by revert part; decide)
  rw [if_pos (marks .selectTag (by decide))]
  simp only [if_pos all]
  cases attributesOf rt r.attributeBuf <;> rfl

/-- The state behind a section that ends with a `[select]` of this text. -/
def selecting (t : Text) (vars : Vars) (c : SQLTextContainer) : Reading :=
  { extend .selectTag t ((headed .api c).setPart .selectTag) with vars }

/-- And of one with a `[where]` of this text behind a `[select]` of `x`. -/
def restricting (t : Text) (vars : Vars) (c : SQLTextContainer) : Reading :=
  { extend .whereTag t ((appendRow ['x'] .selectTag ((headed .api c).setPart .selectTag)).setPart .whereTag) with vars }

variable {rt}
variable {rows : List Str} {t : Text} {vars : Vars}

theorem selecting_run (taken : ∀ row ∈ rows, IsPartRow row) (run : rows.foldlM (takeRow rt) ([], .leaf) = .ok (t, vars))
    (c : SQLTextContainer) :
    readRows rt (headRows ++ "[select]".toList :: rows) (begin .api c) = .ok () (selecting t vars c) := by
  have opened : ((headed .api c).setPart .selectTag).readingPart = .selectTag := rfl
  obtain ⟨more, same, rest⟩ := partRows_run rt (.inr rfl) taken opened run
  obtain rfl : t = more := same
  rw [readRows_append, Proc.bind_ok (headRows_run rt .api c)]
  change (readRow rt _ >>= fun _ => readRows rt rows) _ = _
  rw [Proc.bind_ok (opens_run rt select_opens _)]
  exact rest

theorem restricting_run (taken : ∀ row ∈ rows, IsPartRow row) (run : rows.foldlM (takeRow rt) ([], .leaf) = .ok (t, vars))
    (c : SQLTextContainer) :
    readRows rt (headRows ++ "[select]".toList :: "x".toList :: "[where]".toList :: rows) (begin .api c) =
      .ok () (restricting t vars c) := by
  have select : ((headed .api c).setPart .selectTag).readingPart = .selectTag := rfl
  have x := literal_run rt x_literal (rowStep_part rt select (by decide) _)
  have wheres : ((appendRow ['x'] .selectTag ((headed .api c).setPart .selectTag)).setPart .whereTag).readingPart = .whereTag := rfl
  obtain ⟨more, same, rest⟩ := partRows_run rt (.inl rfl) taken wheres run
  obtain rfl : t = more := same
  rw [readRows_append, Proc.bind_ok (headRows_run rt .api c)]
  change (readRow rt _ >>= fun _ => readRow rt _ >>= fun _ => readRow rt _ >>= fun _ => readRows rt rows) _ = _
  rw [Proc.bind_ok (opens_run rt select_opens _), Proc.bind_ok x, Proc.bind_ok (opens_run rt where_opens _)]
  exact rest

theorem selecting_end (ne : t ≠ []) (c : SQLTextContainer) : endOf rt (selecting t vars c) =
    (attributesOf rt (c.attributeBuf ++ t)).map fun as =>
      { (headed .api c).newSection with query := { (headed .api c).newSection.query with select := as } } := by
  unfold selecting extend
  rw [if_neg ne]
  dsimp only
  generalize made : (Reading.mark _ _ : Reading) = r
  have marks : ∀ part ∈ requirements, r.complete part = true := by
    subst made
    intro part mem
    simp only [requirements, List.mem_cons, List.not_mem_nil, or_false] at mem
    rcases mem with rfl | rfl | rfl | rfl | rfl <;> rfl
  have ended := selectEnd_marked rt (r := { r with vars }) marks r.newSection
  subst made
  exact ended

theorem restricting_end (ne : t ≠ []) (c : SQLTextContainer) : endOf rt (restricting t vars c) =
    ((constraintsOf rt (c.whereBuf ++ t)).map (headed .api c).newSection.setWhere).bind fun s =>
      (attributesOf rt (c.attributeBuf ++ rowText ['x'])).map fun as =>
        { s with query := { s.query with select := as } } := by
  unfold restricting extend
  rw [if_neg ne]
  dsimp only
  generalize made : (Reading.mark _ _ : Reading) = r
  have marks : ∀ part ∈ requirements, r.complete part = true := by
    subst made
    intro part mem
    simp only [requirements, List.mem_cons, List.not_mem_nil, or_false] at mem
    rcases mem with rfl | rfl | rfl | rfl | rfl <;> rfl
  have ended := selectEnd_marked rt (r := { r with vars }) marks
  subst made
  exact congrArg _ (funext ended)

theorem map_injective {α β : Type} {f : α → β} (injective : ∀ a b, f a = f b → a = b) {x y : Except Fault α}
    (same : x.map f = y.map f) : x = y := by
  cases x with
  | error fault =>
    cases y with
    | error fault' =>
      cases same
      rfl
    | ok b => cases same
  | ok a =>
    cases y with
    | error fault => cases same
    | ok b => rw [injective a b (Except.ok.inj same)]

theorem selecting_frame (ne : t ≠ []) (c : SQLTextContainer) :
    (selecting t vars c).start = false ∧ (selecting t vars c).dataset = c.dataset := by
  unfold selecting extend
  rw [if_neg ne]
  exact ⟨rfl, rfl⟩

theorem restricting_frame (ne : t ≠ []) (c : SQLTextContainer) :
    (restricting t vars c).start = false ∧ (restricting t vars c).dataset = c.dataset := by
  unfold restricting extend
  rw [if_neg ne]
  exact ⟨rfl, rfl⟩

/-- No file tells a container with these texts in its buffers from a new one. -/
def Alike (rt : Runtime) (w a : Text) : Prop :=
  ∀ text : Str, outcome (scan rt (text.splitOn '\n') (begin .api ⟨w, a, []⟩)) =
    outcome (scan rt (text.splitOn '\n') (begin .api .fresh))

/-- The last section of a file is the same. -/
theorem Alike.section {w a : Text} (alike : Alike rt w a) {rows : List Str} (ne : rows ≠ []) (nl : ∀ row ∈ rows, '\n' ∉ row)
    {state : SQLTextContainer → Reading} (run : ∀ c, readRows rt rows (begin .api c) = .ok () (state c))
    (frame : ∀ c, (state c).start = false ∧ (state c).dataset = c.dataset) :
    endOf rt (state ⟨w, a, []⟩) = endOf rt (state .fresh) := by
  have same := alike (['\n'].intercalate rows)
  rw [List.splitOn_intercalate '\n' nl ne, scan_end rt (run _) (frame _).1 (frame _).2,
    scan_end rt (run _) (frame _).1 (frame _).2] at same
  exact ends_same same

theorem headRows_lines {rows : List Str} (tail : List Str) (heads : ∀ row ∈ tail, '\n' ∉ row) (taken : ∀ row ∈ rows, IsPartRow row) :
    ∀ row ∈ headRows ++ (tail ++ rows), '\n' ∉ row := by
  intro row mem
  rcases List.mem_append.1 mem with mem | mem
  · have lines : ∀ row ∈ headRows, '\n' ∉ row := by decide
    exact lines row mem
  · rcases List.mem_append.1 mem with mem | mem
    · exact heads row mem
    · exact (taken row mem).1

theorem Alike.attributes {w a : Text} (alike : Alike rt w a) {t : Text} {vars : Vars} (ne : t ≠ [])
    (h : PartText rt t vars) : attributesOf rt (a ++ t) = attributesOf rt t := by
  obtain ⟨rows, taken, run⟩ := h
  have ended := alike.section (by simp) (headRows_lines ["[select]".toList] (by decide) taken)
    (selecting_run taken run) (selecting_frame ne)
  rw [selecting_end ne, selecting_end ne] at ended
  refine map_injective ?_ ended
  intro as bs same
  exact congrArg (fun s : DatasetSection => s.query.select) same

theorem Alike.wheres {w a : Text} (alike : Alike rt w a) {t : Text} {vars : Vars} (ne : t ≠ [])
    (h : PartText rt t vars) : constraintsOf rt (w ++ t) = constraintsOf rt t := by
  have x : PartText rt (rowText ['x']) .leaf := by
    obtain ⟨kind, made⟩ := literal_data x_literal
    exact (PartText.nil rt).append (by decide) kind (made _)
  obtain ⟨as, made⟩ := x_attributes rt
  have same : attributesOf rt (a ++ rowText ['x']) = .ok as := (alike.attributes (append_row_ne [] ['x']) x).trans made
  obtain ⟨rows, taken, run⟩ := h
  have ended := alike.section (by simp)
    (headRows_lines ["[select]".toList, "x".toList, "[where]".toList] (by decide) taken)
    (restricting_run taken run) (restricting_frame ne)
  rw [restricting_end ne, restricting_end ne] at ended
  change (Except.map _ (constraintsOf rt (w ++ t))).bind (fun s => (attributesOf rt (a ++ rowText ['x'])).map _) =
    (Except.map _ (constraintsOf rt t)).bind (fun s => (attributesOf rt (rowText ['x'])).map _) at ended
  rw [same, made] at ended
  cases first : constraintsOf rt (w ++ t) with
  | error fault =>
    rw [first] at ended
    cases second : constraintsOf rt t with
    | error fault' =>
      rw [second] at ended
      cases ended
      rfl
    | ok cs =>
      rw [second] at ended
      cases ended
  | ok cs =>
    rw [first] at ended
    cases second : constraintsOf rt t with
    | error fault =>
      rw [second] at ended
      cases ended
    | ok cs' =>
      rw [second] at ended
      exact congrArg Except.ok (congrArg DatasetSection.whereSet (Except.ok.inj ended))

/-- **What no file notices is not noticed**: for each text of a part there is a file whose
scan tells whether it is read the same. -/
theorem unnoticed_of {w a : Text} (alike : Alike rt w a) : Unnoticed rt w a :=
  ⟨fun _ _ ne h => alike.wheres ne h, fun _ _ ne h => alike.attributes ne h⟩

/-! ## Calls of `setup` -/

/-- A container with its `_isReady`. -/
structure WithStatus extends SQLTextContainer where
  isReady : Bool

/-- `clear` -/
def clear : Proc WithStatus Unit := modify fun c => { c with dataset := [] }

variable (rt) in
/-- `setup`. `init` answers `true`; it and `reset` set the time and the cursor, which `read` does not use. -/
def setup (unset : DatasetPart) (file : Option Str) : Proc WithStatus Bool := do
  if !(← get).dataset.isEmpty then clear
  let isReady ← Proc.zoom (·.toSQLTextContainer) (fun c t => { c with toSQLTextContainer := t }) (read rt unset file)
  modify fun c => { c with isReady }
  return isReady

theorem setup_run (unset : DatasetPart) (file : Option Str) (c : WithStatus) : setup rt unset file c =
    match read rt unset file ⟨c.whereBuf, c.attributeBuf, []⟩ with
    | .ok b t => .ok b ⟨t, b⟩
    | .error fault t => .error fault ⟨t, c.isReady⟩ := by
  have empty : ∀ c : WithStatus, (do
      let isReady ← Proc.zoom (·.toSQLTextContainer) (fun c t => { c with toSQLTextContainer := t }) (read rt unset file)
      modify fun c => { c with isReady }
      return isReady : Proc WithStatus Bool) c = match read rt unset file c.toSQLTextContainer with
        | .ok b t => .ok b ⟨t, b⟩
        | .error fault t => .error fault ⟨t, c.isReady⟩ := by
    intro c
    cases run : read rt unset file c.toSQLTextContainer with
    | ok b t =>
      rw [Proc.bind_ok (Proc.zoom_ok run)]
      rfl
    | error fault t => rw [Proc.bind_error (Proc.zoom_error run)]
  unfold setup
  rw [Proc.get_bind]
  obtain ⟨⟨w, a, dataset⟩, ready⟩ := c
  cases dataset with
  | nil => exact empty ⟨⟨w, a, []⟩, ready⟩
  | cons s dataset => exact empty ⟨⟨w, a, []⟩, ready⟩

/-- What a call answers or throws, and the sections behind it. -/
def called : EStateM.Result Fault WithStatus Bool → Except Fault Bool × List DatasetSection
  | .ok b c => (.ok b, c.dataset)
  | .error fault c => (.error fault, c.dataset)

theorem called_setup (unset : DatasetPart) (text : Str) (c : WithStatus) : called (setup rt unset (some text) c) =
    outcome (scan rt (text.splitOn '\n') (begin unset ⟨c.whereBuf, c.attributeBuf, []⟩)) := by
  rw [setup_run, read_eq]
  cases scan rt (text.splitOn '\n') (begin unset ⟨c.whereBuf, c.attributeBuf, []⟩) <;> rfl

/-- A container that has not been set up. -/
def unready : WithStatus := ⟨.fresh, false⟩

variable (rt) in
/-- Every later call does what it does with a new container. -/
def Recovers (c : WithStatus) : Prop :=
  ∀ unset file, called (setup rt unset file c) = called (setup rt unset file unready)

/-- A container is as good as new if and only if its buffers hold nothing a later part would notice. -/
theorem recovers_iff (c : WithStatus) : Recovers rt c ↔ Forgotten c.whereBuf c.attributeBuf := by
  unfold Forgotten
  rw [← unnoticed_iff rt]
  constructor
  · intro recovers
    apply unnoticed_of
    intro text
    have same := recovers .api (some text)
    rwa [called_setup, called_setup] at same
  · intro unnoticed unset file
    cases file with
    | none =>
      rw [setup_run, setup_run]
      rfl
    | some text =>
      rw [called_setup, called_setup]
      have start : begin unset ⟨c.whereBuf, c.attributeBuf, []⟩ = behind c.whereBuf c.attributeBuf (begin unset .fresh) := by
        simp [begin, behind, SQLTextContainer.fresh]
      rw [start]
      have lines : ∀ row ∈ text.splitOn '\n', '\n' ∉ row := by
        intro row mem inside
        have := mem_part mem _ inside
        simp at this
      exact scan_along rt lines unnoticed (begin_unmixed rt unset [])

/-! ## What a failed call leaves -/

variable (rt) in
/-- The state before the row at which the rows fail, or behind them all if none fails. -/
def Reached (rows : List Str) (start : Reading) (fails : Option Str) (r : Reading) : Prop :=
  ∃ before rest, rows = before ++ rest ∧ readRows rt before start = .ok () r ∧ rest.head? = fails ∧
    ∀ row ∈ fails, ∃ fault r', readRow rt row r = .error fault r'

variable (rt) in
/-- There is such a state. -/
theorem reached (rows : List Str) (start : Reading) : ∃ fails r, Reached rt rows start fails r := by
  induction rows generalizing start with
  | nil => exact ⟨none, start, [], [], rfl, rfl, rfl, by simp⟩
  | cons row rows ih =>
    cases run : readRow rt row start with
    | error fault r =>
      refine ⟨some row, start, [], row :: rows, rfl, rfl, rfl, ?_⟩
      rintro _ ⟨⟩
      exact ⟨fault, r, run⟩
    | ok u r =>
      obtain ⟨fails, r', before, rest, rfl, path, head, failing⟩ := ih r
      refine ⟨fails, r', row :: before, rest, rfl, ?_, head, failing⟩
      change (readRow rt row >>= fun _ => readRows rt before) start = _
      rw [Proc.bind_ok run]
      exact path

theorem Reached.all {rows : List Str} {start r : Reading} (h : Reached rt rows start none r) :
    readRows rt rows start = .ok () r := by
  obtain ⟨before, rest, rfl, run, head, -⟩ := h
  rw [List.head?_eq_none_iff.1 head, List.append_nil]
  exact run

theorem Reached.failed {rows : List Str} {start r : Reading} {row : Str} (h : Reached rt rows start (some row) r) :
    ∃ fault r', readRow rt row r = .error fault r' ∧ readRows rt rows start = .error fault r' := by
  obtain ⟨before, rest, rfl, run, head, failing⟩ := h
  obtain ⟨fault, r', step⟩ := failing row rfl
  obtain ⟨rest, rfl⟩ : ∃ more, rest = row :: more := by
    cases rest with
    | nil => cases head
    | cons x more =>
      cases head
      exact ⟨more, rfl⟩
  refine ⟨fault, r', step, ?_⟩
  rw [readRows_append, Proc.bind_ok run]
  exact Proc.bind_error step

/-- What the failing step leaves in the buffers is not noticed. The end of a section, which is a
`[section]` row or the end of the file, loads what they hold; any other row leaves them. -/
def Forgets (fails : Option Str) (r : Reading) : Prop :=
  if r.start = false ∧ fails.all isSectionTag = true then EndForgets r else Forgotten r.whereBuf r.attributeBuf

variable (rt) in
/-- A failed call clears the container: it was not ready, or all rows are read and none holds `[section]`, so that
the answer is `false`; and what was in the buffers at the end is not noticed later. -/
def Clears (unset : DatasetPart) (file : Option Str) (c : WithStatus) : Prop :=
  (file = none ∧ c.isReady = false ∧ Forgotten c.whereBuf c.attributeBuf) ∨
    ∃ text fails r, file = some text ∧ Reached rt (text.splitOn '\n') (begin unset ⟨c.whereBuf, c.attributeBuf, []⟩) fails r ∧
      (c.isReady = false ∨ (fails = none ∧ ∀ row ∈ text.splitOn '\n', isSectionTag row = false)) ∧ Forgets fails r

/-- What a row that fails leaves. -/
theorem readRow_left {row : Str} {fault : Fault} {r r' : Reading} (run : readRow rt row r = .error fault r') :
    (r'.whereBuf, r'.attributeBuf) = if isSectionTag row then endLeft rt r else (r.whereBuf, r.attributeBuf) := by
  cases tagged : isSectionTag row with
  | true =>
    cases start : r.start with
    | true =>
      rw [readRow_eq, isSectionTag_iff.1 tagged] at run
      simp only [partTracking_run, start, if_true] at run
      cases run
    | false =>
      obtain ⟨r₁, ended, run'⟩ := readRow_ends rt tagged start
      rw [run] at run'
      cases stored : endOf rt r with
      | ok s =>
        rw [stored] at run'
        cases run'
      | error fault' =>
        rw [stored] at run'
        cases run'
        rw [if_pos rfl, ended.wheres, ended.attributes]
  | false =>
    rw [readRow_eq] at run
    unfold isSectionTag at tagged
    cases kind : rowKind row with
    | idle =>
      rw [kind] at run
      cases run
    | definition m =>
      simp only [kind, defineVariable_run] at run
      split at run
      · cases run
      · cases run
        rfl
    | tag text =>
      rw [kind] at tagged
      simp only [kind, partTracking_run] at run
      rw [if_neg (by simpa using tagged)] at run
      cases run
    | data =>
      simp only [kind, addRow_run] at run
      split at run
      · cases run
        rfl
      · split at run
        · cases run
        · cases run
          rfl

/-- A call that failed, and the container behind it. -/
inductive Failed : EStateM.Result Fault WithStatus Bool → WithStatus → Prop
  | answered (c : WithStatus) : Failed (.ok false c) c
  | thrown (fault : Fault) (c : WithStatus) : Failed (.error fault c) c

theorem start_iff {unset : DatasetPart} {c : SQLTextContainer} {rows : List Str} {r : Reading}
    (run : readRows rt rows (begin unset c) = .ok () r) : r.start = true ↔ ∀ row ∈ rows, isSectionTag row = false := by
  obtain ⟨-, stored, -, -, count⟩ := readRows_scanned (begin_scanned unset c) run
  have none : rows.countP isSectionTag = 0 ↔ ∀ row ∈ rows, isSectionTag row = false := by
    simp [List.countP_eq_zero]
  rw [← none]
  cases start : r.start with
  | true =>
    rw [start, if_pos rfl] at count
    simpa using count.1
  | false =>
    rw [start, if_neg (by decide)] at count
    simp only [Bool.false_eq_true, false_iff]
    omega

/-- What is left in the buffers, and the status. -/
theorem failed_reached {unset : DatasetPart} {text : Str} {c c₁ : WithStatus} (failed : Failed (setup rt unset (some text) c) c₁)
    {fails : Option Str} {r : Reading}
    (h : Reached rt (text.splitOn '\n') (begin unset ⟨c.whereBuf, c.attributeBuf, []⟩) fails r) :
    (c₁.isReady = false ↔ c.isReady = false ∨ (fails = none ∧ ∀ row ∈ text.splitOn '\n', isSectionTag row = false)) ∧
      (Forgotten c₁.whereBuf c₁.attributeBuf ↔ Forgets fails r) := by
  rw [setup_run, read_eq] at failed
  unfold Forgets
  cases fails with
  | some row =>
    obtain ⟨fault, r', step, run⟩ := h.failed
    have scanned : scan rt (text.splitOn '\n') (begin unset ⟨c.whereBuf, c.attributeBuf, []⟩) = .error fault r' :=
      Proc.bind_error run
    rw [scanned] at failed
    cases failed
    refine ⟨by simp, ?_⟩
    have buffers := readRow_left step
    rw [show (some row).all isSectionTag = isSectionTag row from rfl]
    split at buffers
    · rename_i tagged
      have wheres : r'.whereBuf = (endLeft rt r).1 := congrArg Prod.fst buffers
      have attributes : r'.attributeBuf = (endLeft rt r).2 := congrArg Prod.snd buffers
      have start : r.start = false := by
        cases start : r.start with
        | false => rfl
        | true =>
          rw [readRow_eq, isSectionTag_iff.1 tagged] at step
          simp only [partTracking_run, start, if_true] at step
          cases step
      rw [if_pos ⟨start, tagged⟩, ← endLeft_forgotten rt, ← wheres, ← attributes]
    · rename_i other
      obtain ⟨wheres, attributes⟩ := Prod.mk.inj buffers
      rw [if_neg (fun both => other both.2), ← wheres, ← attributes]
  | none =>
    have run := h.all
    have section' := start_iff run
    have scanned : scan rt (text.splitOn '\n') (begin unset ⟨c.whereBuf, c.attributeBuf, []⟩) = finish rt r :=
      Proc.bind_ok run
    rw [scanned] at failed
    unfold finish at failed
    rw [Proc.get_bind] at failed
    rw [show (none : Option Str).all isSectionTag = true from rfl]
    cases start : r.start with
    | true =>
      rw [start] at failed
      cases failed
      rw [if_neg (by simp)]
      exact ⟨⟨fun _ => .inr ⟨rfl, section'.1 start⟩, fun _ => rfl⟩, Iff.rfl⟩
    | false =>
      obtain ⟨r', ended, stored⟩ := addNewSection_end rt r
      rw [start, if_neg (by decide)] at failed
      cases h : endOf rt r with
      | ok s =>
        rw [h] at stored
        rw [Proc.bind_ok stored] at failed
        cases failed
      | error fault =>
        rw [h] at stored
        rw [Proc.bind_error stored] at failed
        cases failed
        rw [if_pos ⟨rfl, rfl⟩, ← endLeft_forgotten rt, ← ended.wheres, ← ended.attributes]
        have other : ¬ ∀ row ∈ text.splitOn '\n', isSectionTag row = false := fun none => by
          rw [section'.2 none] at start
          cases start
        exact ⟨by simp [other], Iff.rfl⟩

/-- **A failed call leaves nothing behind** if and only if it clears the container. What a later
call does is compared with a new container, over every file and every value of the part that
is not initialised; what the call leaves is told from the state before its failing step alone,
by the texts in the buffers. -/
theorem setup_failed_iff (rt : Runtime) {unset : DatasetPart} {file : Option Str} {c c₁ : WithStatus}
    (failed : Failed (setup rt unset file c) c₁) : (c₁.isReady = false ∧ Recovers rt c₁) ↔ Clears rt unset file c := by
  rw [recovers_iff]
  unfold Clears
  cases file with
  | none =>
    rw [setup_run] at failed
    cases failed
    simp [Forgotten]
  | some text =>
    constructor
    · intro cleared
      obtain ⟨fails, r, h⟩ := reached rt (text.splitOn '\n') (begin unset ⟨c.whereBuf, c.attributeBuf, []⟩)
      obtain ⟨status, buffers⟩ := failed_reached failed h
      exact .inr ⟨text, fails, r, rfl, h, status.1 cleared.1, buffers.1 cleared.2⟩
    · rintro (⟨none, -⟩ | ⟨text', fails, r, same, h, status', forgets⟩)
      · cases none
      · cases same
        obtain ⟨status, buffers⟩ := failed_reached failed h
        exact ⟨status.2 status', buffers.2 forgets⟩

/-- A row in `[section]` that is no parameter. -/
def malformed : Str := "[section]\nfoo".toList

theorem malformed_recovers : ∃ c₁, Failed (setup (.reuse 1) .api (some malformed) unready) c₁ ∧
    c₁.isReady = false ∧ Recovers (.reuse 1) c₁ := by
  let r : Reading := { begin .api .fresh with start := false }.setPart .sectionTag
  have other : isSectionTag "foo".toList = false := by decide +kernel
  have first : readRow (.reuse 1) "[section]".toList (begin .api .fresh) = .ok () r := by
    rw [readRow_eq, isSectionTag_iff.1 section_tagged]
    rfl
  have fails : ∃ fault r', readRow (.reuse 1) "foo".toList r = .error fault r' := by
    have literal : isLiteral "foo".toList = true := by decide +kernel
    have stopped : (rowStep (.reuse 1) "foo".toList r).isOk = false := by decide +kernel
    obtain ⟨kind, made⟩ := literal_data literal
    cases step : rowStep (.reuse 1) "foo".toList r with
    | ok r' =>
      rw [step] at stopped
      cases stopped
    | error fault =>
      refine ⟨fault, r, ?_⟩
      rw [readRow_eq, kind]
      simp only [addRow_run, made, step]
  have stops : Reached (.reuse 1) (malformed.splitOn '\n') (begin .api ⟨[], [], []⟩) (some "foo".toList) r := by
    refine ⟨["[section]".toList], ["foo".toList], by decide, ?_, rfl, ?_⟩
    · change (readRow (.reuse 1) "[section]".toList >>= fun _ => pure ()) (begin .api .fresh) = _
      rw [Proc.bind_ok first]
      rfl
    · rintro _ ⟨⟩
      exact fails
  -- neither buffer holds anything
  have nothing : Forgets (some "foo".toList) r := by
    unfold Forgets
    rw [if_neg fun both => Bool.false_ne_true (other.symm.trans both.2)]
    exact ⟨inert_nil, 0, [], rfl, List.forall_mem_nil _⟩
  have thrown : (called (setup (.reuse 1) .api (some malformed) unready)).1.toOption = none := by decide +kernel
  cases run : setup (.reuse 1) .api (some malformed) unready with
  | ok b c =>
    rw [run] at thrown
    cases thrown
  | error fault c =>
    have failed : Failed (setup (.reuse 1) .api (some malformed) unready) c := run ▸ .thrown fault c
    have recovered := (setup_failed_iff (.reuse 1) failed).2 (.inr ⟨malformed, _, r, rfl, stops, .inl rfl, nothing⟩)
    exact ⟨c, .thrown fault c, recovered⟩

/-- A variable that is not defined, in a `[select]` that has begun. -/
def broken : Str := "[section]\napi=a\nserver=s\n[select]\ny,\n$V$".toList

/-- How many attributes the sections name. -/
def selected (x : Except Fault Bool × List DatasetSection) : List Nat := x.2.map fun s => s.query.select.toList.length

/-- What `broken` leaves is read with the next file, and a container that was ready stays ready. -/
theorem broken_leaves :
    (∃ c₁, Failed (setup (.reuse 1) .api (some broken) unready) c₁ ∧
      called (setup (.reuse 1) .api (some sample) c₁) ≠ called (setup (.reuse 1) .api (some sample) unready)) ∧
    ∃ c c₁, setup (.reuse 1) .api (some sample) unready = .ok true c ∧
      Failed (setup (.reuse 1) .api (some broken) c) c₁ ∧ c₁.isReady = true := by
  have first : (match setup (.reuse 1) .api (some broken) unready with
      | .ok _ _ => []
      | .error _ c => selected (called (setup (.reuse 1) .api (some sample) c))) = [2] := by decide +kernel
  have second : (match setup (.reuse 1) .api (some sample) unready with
      | .ok true c => match setup (.reuse 1) .api (some broken) c with
        | .ok _ _ => false
        | .error _ c => c.isReady
      | _ => false) = true := by decide +kernel
  constructor
  · cases run : setup (.reuse 1) .api (some broken) unready with
    | ok b c =>
      rw [run] at first
      cases first
    | error fault c =>
      rw [run] at first
      refine ⟨c, .thrown fault c, ?_⟩
      intro same
      have one : selected (called (setup (.reuse 1) .api (some sample) unready)) = [1] := by decide +kernel
      rw [← same] at one
      cases first.symm.trans one
  · split at second
    · rename_i c run
      split at second
      · cases second
      · rename_i fault c₁ run'
        exact ⟨c, c₁, run, run' ▸ .thrown fault c₁, second⟩
    · cases second

end SQLTextContainer

end SqlHandler
