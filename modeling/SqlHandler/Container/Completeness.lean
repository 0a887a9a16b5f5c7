import SqlHandler.Container.Rows

/-!
# Every stored section is complete

`addNewSection` withdraws the bit of an empty `[select]` and then checks the bits; the
bits stand for non-empty fields of the section under construction (`Filled`), whatever
row set them. A section is stored for each `[section]` row behind the first and at the
end of the file, so there are as many as such rows (`Scanned`).
-/

namespace SqlHandler
open Posix Text Stl

namespace SQLTextContainer
variable (rt : Runtime)

/-- The section `addNewSection` stores of a state of the scan. -/
structure Stored (r : Reading) (s : DatasetSection) : Prop where
  whereLoaded : if r.complete .whereTag then ∃ t, SQLQuery.loadConstraints rt.shape r.whereBuf = .ok s.whereSet t
    else s.whereSet = r.newSection.whereSet
  selectLoaded : ∃ t, SQLQuery.loadAttributes rt.shape r.attributeBuf = .ok s.query.select t
  select_ne : s.query.select.toList ≠ []
  marks : ∀ part ∈ requirements, r.complete part = true
  others : s = { r.newSection with query := ⟨s.query.select, r.newSection.query.fromText, s.whereSet⟩ }

theorem putWhere_complete (cs : SQLConstraintSet) (r : Reading) {part : DatasetPart} (h : part ≠ .whereTag) :
    (putWhere cs r).complete part = r.complete part := by
  unfold putWhere
  split
  · simp [Completion.put, h, Reading.setSection]
  · rfl

theorem putWhere_section (cs : SQLConstraintSet) (r : Reading) :
    (putWhere cs r).newSection = r.newSection.setWhere cs ∧ (putWhere cs r).attributeBuf = r.attributeBuf ∧
      (putWhere cs r).dataset = r.dataset ∧ (putWhere cs r).start = r.start := by
  unfold putWhere
  split <;> exact ⟨rfl, rfl, rfl, rfl⟩

theorem putAttributes_section (as : SQLAttributeSetByName) (r : Reading) :
    (putAttributes as r).newSection = { r.newSection with query := { r.newSection.query with select := as } } ∧
      (putAttributes as r).dataset = r.dataset ∧ (putAttributes as r).start = r.start := by
  unfold putAttributes
  split <;> exact ⟨rfl, rfl, rfl⟩

variable {rt}

/-- What `addNewSection` did when it returned. -/
theorem addNewSection_ok {r r' : Reading} (h : addNewSection rt r = .ok () r') :
    ∃ s, Stored rt r s ∧ r'.dataset = r.dataset ++ [s] ∧ r'.start = r.start := by
  obtain ⟨⟨⟩, r₁, first, h⟩ := Proc.of_bind_ok h
  obtain ⟨⟨⟩, r₂, second, h⟩ := Proc.of_bind_ok h
  rw [Proc.get_bind] at h
  split at h
  case isFalse => cases h
  case isTrue marks =>
  cases h
  have marks : ∀ part ∈ requirements, r₂.complete part = true := List.all_eq_true.1 marks
  -- the where part, with the other bits and the rest of the section as they were
  have whereStep : (if r.complete .whereTag then
        ∃ t, SQLQuery.loadConstraints rt.shape r.whereBuf = .ok r₁.newSection.whereSet t
      else r₁.newSection.whereSet = r.newSection.whereSet) ∧
      (∀ part, part ≠ .whereTag → r₁.complete part = r.complete part) ∧
      r₁.newSection = r.newSection.setWhere r₁.newSection.whereSet ∧ r₁.attributeBuf = r.attributeBuf ∧
      r₁.dataset = r.dataset ∧ r₁.start = r.start := by
    rw [addWhere_run] at first
    split at first
    · rename_i bit
      rw [if_pos bit]
      cases run : SQLQuery.loadConstraints rt.shape r.whereBuf with
      | error fault t => rw [run] at first; cases first
      | ok cs t =>
        rw [run] at first
        cases first
        obtain ⟨eq, buf, dataset, start⟩ := putWhere_section cs r
        refine ⟨⟨t, by rw [eq]; rfl⟩, fun part ne => putWhere_complete cs r ne, ?_, buf, dataset, start⟩
        rw [eq]
        rfl
    · rename_i bit
      rw [if_neg bit]
      cases first
      exact ⟨rfl, fun _ _ => rfl, rfl, rfl, rfl, rfl⟩
  obtain ⟨whereLoaded, bits, section₁, buffer, dataset₁, start₁⟩ := whereStep
  rw [addSelect_run] at second
  cases bit : r₁.complete .selectTag with
  | false =>
    rw [bit] at second
    cases second
    have := marks .selectTag (by decide)
    rw [bit] at this
    cases this
  | true =>
    rw [bit, if_pos rfl] at second
    cases run : SQLQuery.loadAttributes rt.shape r₁.attributeBuf with
    | error fault t => rw [run] at second; cases second
    | ok as t =>
      rw [run] at second
      cases second
      obtain ⟨section₂, dataset₂, start₂⟩ := putAttributes_section as r₁
      have ne : as.toList ≠ [] := by
        intro empty
        have := marks .selectTag (by decide)
        simp [putAttributes, empty, Completion.put] at this
      refine ⟨(putAttributes as r₁).newSection, ⟨?_, ⟨t, ?_⟩, ?_, ?_, ?_⟩, by simp only [dataset₂, dataset₁],
        by simp only [start₂, start₁]⟩
      · rw [section₂]
        exact whereLoaded
      · rw [section₂, ← buffer]
        exact run
      · rw [section₂]
        exact ne
      · intro part mem
        have bit₂ := marks part mem
        have sel : (putAttributes as r₁).complete part = r₁.complete part := by
          unfold putAttributes
          rw [if_neg (by simpa using ne)]
          rfl
        rw [sel, bits part (by rintro rfl; exact absurd mem (by decide))] at bit₂
        exact bit₂
      · rw [section₂, section₁]
        rfl

/-! ## The bits stand for fields -/

/-- A section with everything that is required. -/
def IsComplete (s : DatasetSection) : Prop :=
  s.api ≠ [] ∧ s.server ≠ [] ∧ s.query.select.toList ≠ [] ∧ s.query.fromText ≠ []

/-- The fields whose bits are set are not empty. -/
structure Filled (r : Reading) : Prop where
  api : r.complete .api = true → r.newSection.api ≠ []
  server : r.complete .server = true → r.newSection.server ≠ []
  fromText : r.complete .fromTag = true → r.newSection.query.fromText ≠ []

theorem Stored.complete {r : Reading} {s : DatasetSection} (h : Stored rt r s) (filled : Filled r) : IsComplete s := by
  have api := filled.api (h.marks .api (by decide))
  have server := filled.server (h.marks .server (by decide))
  have fromText := filled.fromText (h.marks .fromTag (by decide))
  refine ⟨?_, ?_, h.select_ne, ?_⟩ <;>
  · rw [h.others]
    assumption

theorem appendRow_filled {r : Reading} (row : Str) (part : DatasetPart) (h : Filled r) : Filled (appendRow row part r) := by
  obtain ⟨api, server, fromText⟩ := h
  cases part <;>
    constructor <;> simp_all [appendRow, Reading.mark, Completion.put, Reading.setSection, rowText, of]

theorem setParameter_filled {r r' : Reading} {key val : Str} (ne : val ≠ []) (h : Filled r)
    (run : setParameter key val r = some r') : Filled r' ∧ r'.dataset = r.dataset ∧ r'.start = r.start := by
  obtain ⟨api, server, fromText⟩ := h
  unfold setParameter at run
  split at run
  · cases run
    refine ⟨⟨?_, ?_, ?_⟩, ?_, ?_⟩ <;>
      split <;> simp_all [Reading.mark, Completion.put, Reading.setSection]
  · split at run
    · cases run
      refine ⟨⟨?_, ?_, ?_⟩, ?_, ?_⟩ <;>
        split <;> simp_all [Reading.mark, Completion.put, Reading.setSection]
    · repeat' split at run
      all_goals cases run
      all_goals
        exact ⟨⟨by simpa [Reading.mark, Completion.put, Reading.setSection] using api,
          by simpa [Reading.mark, Completion.put, Reading.setSection] using server,
          by simpa [Reading.mark, Completion.put, Reading.setSection] using fromText⟩, rfl, rfl⟩

theorem rowStep_filled {r r' : Reading} {row : Str} (h : Filled r) (run : rowStep rt row r = .ok r') :
    Filled r' ∧ r'.dataset = r.dataset ∧ r'.start = r.start := by
  unfold rowStep at run
  cases part : r.readingPart with
  | sectionTag =>
    rw [part] at run
    simp only at run
    split at run
    · cases run
    · rename_i m found
      obtain ⟨k, v, group₁, group₂, ne⟩ := keyVal_found found
      rw [group₁, group₂] at run
      split at run
      · rename_i r'' set
        cases run
        exact setParameter_filled ne h set
      · cases run
  | otherTag =>
    rw [part] at run
    cases run
    unfold rowAction
    simp only
    split
    · obtain ⟨api, server, fromText⟩ := h
      exact ⟨⟨by simpa [Reading.mark, Completion.put, Reading.setSection] using api,
        by simpa [Reading.mark, Completion.put, Reading.setSection] using server,
        by simpa [Reading.mark, Completion.put, Reading.setSection] using fromText⟩, rfl, rfl⟩
    · exact ⟨h, rfl, rfl⟩
  | _ =>
    rw [part] at run
    cases run
    rw [rowAction_append rt (by decide)]
    exact ⟨appendRow_filled row _ h, rfl, rfl⟩

/-! ## The scan -/

/-- After `n` rows with `[section]`, with the sections stored since. -/
structure Scanned (before : List DatasetSection) (n : Nat) (r : Reading) : Prop where
  filled : Filled r
  stored : ∃ stored, r.dataset = before ++ stored ∧ (∀ s ∈ stored, IsComplete s) ∧
    if r.start then n = 0 ∧ stored = [] else stored.length + 1 = n

theorem blank_filled (r : Reading) (h : r.complete = .empty) : Filled r := by
  constructor <;> simp [h, Completion.empty]

theorem partTracking_scanned {before : List DatasetSection} {n : Nat} {r r' : Reading} {tag : Str}
    (h : Scanned before n r) (run : partTracking rt tag r = .ok () r') :
    Scanned before (n + if tag = "[section]".toList then 1 else 0) r' := by
  obtain ⟨filled, stored, dataset, complete, count⟩ := h
  rw [partTracking_run] at run
  split at run
  · rename_i tagged
    rw [if_pos tagged]
    cases start : r.start with
    | true =>
      rw [start] at run count
      cases run
      refine ⟨⟨filled.api, filled.server, filled.fromText⟩, stored, dataset, complete, ?_⟩
      obtain ⟨rfl, rfl⟩ := count
      simp [Reading.setPart]
    | false =>
      rw [start] at run count
      cases add : addNewSection rt r with
      | error fault r₂ => rw [add] at run; cases run
      | ok _ r₂ =>
      rw [add] at run
      cases run
      obtain ⟨s, section', dataset₂, start₂⟩ := addNewSection_ok add
      refine ⟨blank_filled _ rfl, stored ++ [s], ?_, ?_, ?_⟩
      · change r₂.dataset = _
        rw [dataset₂, dataset, List.append_assoc]
      · intro x mem
        rcases List.mem_append.1 mem with mem | mem
        · exact complete x mem
        · rw [List.mem_singleton.1 mem]
          exact section'.complete filled
      · have still : r₂.start = false := start₂.trans start
        simp only [Reading.setPart, still, List.length_append, List.length_singleton] at count ⊢
        simpa using count
  · rename_i tagged
    rw [if_neg tagged]
    cases run
    cases partOf tag with
    | none => exact ⟨filled, stored, dataset, complete, count⟩
    | some part => exact ⟨⟨filled.api, filled.server, filled.fromText⟩, stored, dataset, complete, count⟩

theorem readRow_scanned {before : List DatasetSection} {n : Nat} {r r' : Reading} {row : Str}
    (h : Scanned before n r) (run : readRow rt row r = .ok () r') :
    Scanned before (n + if isSectionTag row then 1 else 0) r' := by
  rw [readRow_eq] at run
  unfold isSectionTag
  cases kind : rowKind row with
  | idle =>
    rw [kind] at run
    cases run
    exact h
  | definition m =>
    rw [kind] at run
    simp only [defineVariable_run] at run
    split at run
    · cases run
      exact ⟨⟨h.filled.api, h.filled.server, h.filled.fromText⟩, h.stored⟩
    · cases run
  | tag text =>
    rw [kind] at run
    simp only [beq_iff_eq]
    exact partTracking_scanned h run
  | data =>
    rw [kind] at run
    simp only [addRow_run] at run
    split at run
    · cases run
    · split at run
      · rename_i step
        cases run
        obtain ⟨filled, dataset, start⟩ := rowStep_filled h.filled step
        exact ⟨filled, by rw [dataset, start]; exact h.stored⟩
      · cases run

theorem readRows_scanned {before : List DatasetSection} {n : Nat} {r r' : Reading} {rows : List Str}
    (h : Scanned before n r) (run : readRows rt rows r = .ok () r') :
    Scanned before (n + rows.countP isSectionTag) r' := by
  induction rows generalizing n r with
  | nil =>
    cases run
    exact h
  | cons row rows ih =>
    obtain ⟨⟨⟩, r₁, first, rest⟩ := Proc.of_bind_ok run
    have := ih (readRow_scanned h first) rest
    rw [List.countP_cons]
    rwa [Nat.add_assoc, Nat.add_comm (if isSectionTag row = true then 1 else 0)] at this

theorem begin_scanned (unset : DatasetPart) (c : SQLTextContainer) : Scanned c.dataset 0 (begin unset c) :=
  ⟨blank_filled _ rfl, [], by simp [begin], by simp, by simp [begin]⟩

/-- A scan that answered `true` stored a complete section for each `[section]` row. -/
theorem scan_stored {unset : DatasetPart} {c : SQLTextContainer} {rows : List Str} {r : Reading}
    (run : scan rt rows (begin unset c) = .ok true r) :
    ∃ stored, r.dataset = c.dataset ++ stored ∧ stored.length = rows.countP isSectionTag ∧
      ∀ s ∈ stored, IsComplete s := by
  obtain ⟨⟨⟩, r₁, first, rest⟩ := Proc.of_bind_ok run
  obtain ⟨filled, stored, dataset, complete, count⟩ := readRows_scanned (begin_scanned unset c) first
  rw [Proc.get_bind] at rest
  cases start : r₁.start with
  | true => rw [start] at rest; cases rest
  | false =>
    rw [start] at rest count
    obtain ⟨⟨⟩, r₂, add, last⟩ := Proc.of_bind_ok rest
    cases last
    obtain ⟨s, section', dataset₂, -⟩ := addNewSection_ok add
    refine ⟨stored ++ [s], by rw [dataset₂, dataset, List.append_assoc], by simpa using count, ?_⟩
    intro x mem
    rcases List.mem_append.1 mem with mem | mem
    · exact complete x mem
    · rw [List.mem_singleton.1 mem]
      exact section'.complete filled

theorem isSectionTag_iff {row : Str} : isSectionTag row = true ↔ rowKind row = .tag "[section]".toList := by
  unfold isSectionTag
  cases rowKind row with
  | tag text => simp only [beq_iff_eq, RowKind.tag.injEq]
  | _ => simp

/-- A scan up to a `[section]` row stores what the longer scan stores first. -/
theorem scan_prefix {unset : DatasetPart} {c : SQLTextContainer} {rows rest : List Str} {tag : Str} {r : Reading}
    (tagged : isSectionTag tag = true) (one : 0 < rows.countP isSectionTag)
    (run : scan rt (rows ++ tag :: rest) (begin unset c) = .ok true r) :
    ∃ r₁, scan rt rows (begin unset c) = .ok true r₁ ∧ ∃ later, r.dataset = r₁.dataset ++ later := by
  obtain ⟨⟨⟩, last, first, fin⟩ := Proc.of_bind_ok run
  rw [readRows_append] at first
  obtain ⟨⟨⟩, r₁, head, first⟩ := Proc.of_bind_ok first
  obtain ⟨⟨⟩, r₂, tagRow, tail⟩ := Proc.of_bind_ok first
  -- the row with `[section]` stores what the end of the shorter file stores
  have scanned := readRows_scanned (begin_scanned unset c) head
  have started : r₁.start = false := by
    obtain ⟨stored, -, -, count⟩ := scanned.stored
    cases start : r₁.start with
    | false => rfl
    | true => rw [start, if_pos rfl] at count; omega
  rw [readRow_eq, isSectionTag_iff.1 tagged] at tagRow
  simp only [partTracking_run, if_true, started, Bool.false_eq_true, if_false] at tagRow
  cases add : addNewSection rt r₁ with
  | error fault r₃ => rw [add] at tagRow; cases tagRow
  | ok _ r₃ =>
  rw [add] at tagRow
  cases tagRow
  obtain ⟨s, -, -, start₃⟩ := addNewSection_ok add
  refine ⟨r₃, ?_, ?_⟩
  · change (readRows rt rows >>= _) _ = _
    rw [Proc.bind_ok head, Proc.get_bind, started]
    change (addNewSection rt >>= _) r₁ = _
    rw [Proc.bind_ok add]
    rfl
  · have again : Scanned r₃.dataset 1
        (({ r₃ with complete := Completion.empty, newSection := DatasetSection.blank } : Reading).setPart .sectionTag) :=
      ⟨blank_filled _ rfl, [], by simp [Reading.setPart], by simp,
        by simp [Reading.setPart, start₃.trans started]⟩
    obtain ⟨-, stored, dataset, -, -⟩ := readRows_scanned again tail
    rw [Proc.get_bind] at fin
    cases start : last.start with
    | true => rw [start] at fin; cases fin
    | false =>
      rw [start] at fin
      obtain ⟨⟨⟩, r₄, add₄, done⟩ := Proc.of_bind_ok fin
      cases done
      obtain ⟨s₄, -, dataset₄, -⟩ := addNewSection_ok add₄
      exact ⟨stored ++ [s₄], by rw [dataset₄, dataset, List.append_assoc]⟩

theorem read_ok {unset : DatasetPart} {text : Str} {c c' : SQLTextContainer} {b : Bool}
    (h : read rt unset (some text) c = .ok b c') :
    ∃ r, scan rt (text.splitOn '\n') (begin unset c) = .ok b r ∧ c' = r.toSQLTextContainer := by
  unfold read at h
  simp only at h
  split at h
  · rename_i run
    cases h
    exact ⟨_, run, rfl⟩
  · cases h

/-- What `read` stores when it answers `true`: a complete section for each `[section]`
row, in the order of the file: up to a `[section]` row they are those of the rows in front of it read
alone. The container may hold sections and texts of earlier calls. -/
theorem read_complete {unset : DatasetPart} {text : Str} {c c' : SQLTextContainer}
    (h : read rt unset (some text) c = .ok true c') :
    ∃ stored, c'.dataset = c.dataset ++ stored ∧
      stored.length = (text.splitOn '\n').countP isSectionTag ∧
      (∀ s ∈ stored, s.api ≠ [] ∧ s.server ≠ [] ∧ s.query.select.toList ≠ [] ∧ s.query.fromText ≠ []) ∧
      ∀ text' tag rest, text.splitOn '\n' = text'.splitOn '\n' ++ tag :: rest → isSectionTag tag = true →
        0 < (text'.splitOn '\n').countP isSectionTag →
        ∃ c₁, read rt unset (some text') c = .ok true c₁ ∧
          c₁.dataset = c.dataset ++ stored.take ((text'.splitOn '\n').countP isSectionTag) := by
  obtain ⟨r, run, rfl⟩ := read_ok h
  obtain ⟨stored, dataset, length, complete⟩ := scan_stored run
  refine ⟨stored, dataset, length, complete, ?_⟩
  intro text' tag rest rows tagged one
  rw [rows] at run
  obtain ⟨r₁, run₁, later, grown⟩ := scan_prefix tagged one run
  obtain ⟨stored₁, dataset₁, length₁, -⟩ := scan_stored run₁
  refine ⟨r₁.toSQLTextContainer, by simp only [read, run₁], ?_⟩
  rw [dataset₁, dataset, List.append_assoc] at grown
  rw [dataset₁, List.append_cancel_left grown, ← length₁, List.take_left]

/-- A dataset of one section. -/
def sample : Str := "[section]\napi=a\nserver=s\n[select]\nx\n[from]\nt".toList

/-- A dataset of two sections. -/
def sampleTwice : Str := sample ++ '\n' :: sample

theorem section_tagged : isSectionTag "[section]".toList = true := by decide +kernel

theorem sampleTwice_reads : ∃ c, read (.reuse 1) .api (some sampleTwice) .fresh = .ok true c := by
  have answer : (match read (.reuse 1) .api (some sampleTwice) .fresh with
      | .ok b _ => b
      | .error _ _ => false) = true := by decide +kernel
  cases run : read (.reuse 1) .api (some sampleTwice) .fresh with
  | error fault c => rw [run] at answer; cases answer
  | ok b c =>
    rw [run] at answer
    exact ⟨c, by rw [show b = true from answer]⟩

/-- The first section of the two is read alone. -/
theorem sample_reads : ∃ c, read (.reuse 1) .api (some sample) .fresh = .ok true c := by
  obtain ⟨_, run⟩ := sampleTwice_reads
  obtain ⟨_, _, _, _, front⟩ := read_complete run
  have rows : sampleTwice.splitOn '\n' = sample.splitOn '\n' ++ "[section]".toList :: (sample.splitOn '\n').tail := by rfl
  have one : "[section]".toList ∈ sample.splitOn '\n' := List.mem_of_mem_head? rfl
  obtain ⟨c, read, -⟩ := front sample _ _ rows section_tagged (List.countP_pos_iff.2 ⟨_, one, section_tagged⟩)
  exact ⟨c, read⟩

theorem sample_complete : ∃ c stored, read (.reuse 1) .api (some sampleTwice) .fresh = .ok true c ∧ c.dataset = stored ∧
    stored.length = 2 ∧ (sampleTwice.splitOn '\n').countP isSectionTag = 2 := by
  obtain ⟨c, run⟩ := sampleTwice_reads
  obtain ⟨stored, dataset, length, -⟩ := read_complete run
  have two : (sampleTwice.splitOn '\n').countP isSectionTag = 2 := by decide +kernel
  exact ⟨c, stored, run, dataset, length.trans two, two⟩

end SQLTextContainer

end SqlHandler
