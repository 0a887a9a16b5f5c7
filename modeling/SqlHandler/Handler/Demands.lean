import SqlHandler.Handler.Alignment

/-!
# What the columns ask of the response

A column of a loop comes to an attribute that the response is asked to take, unless its type or its
description ends the loop. `Meets` says how a loop over such demands ends: with all of them met, or
with the first that is not. What `append_attr` takes is left to libdap.
-/

namespace SqlHandler
open Posix

/-- What a column of a loop comes to. -/
inductive Demand where
  /-- An attribute for the response. -/
  | entry (e : Entry)
  /-- `getColDesc` throws. -/
  | undescribed (fault : Fault)
  /-- `nextType` throws. -/
  | fatal
  deriving DecidableEq

namespace Job
variable {ρ α β : Type}

/-- The attribute of a place-holder. -/
def placeHolderEntry : Entry := ⟨defaultDasName, defaultDasType, defaultDasVal⟩

/-- Type and value of the attribute a described column adds to the DDS. -/
def ddsForm (typeName desc : Str) : Str × Str := (typeName, desc)

/-- Type and value of the attribute a described column adds to the DAS. -/
def dasForm (_typeName desc : Str) : Str × Str := ("String".toList, "\"".toList ++ desc ++ "\"".toList)

/-- What column `i` of a loop comes to on the cursor `c`. -/
def demand (form : Str → Str → Str × Str) (b : Backend) (i : Nat) (c : Cursor) : Demand :=
  match outcome b c with
  | .made typeName =>
    match b.getColDesc i with
    | .ok desc => .entry ⟨b.getColName c.columnPosition, (form typeName desc).1, (form typeName desc).2⟩
    | .error fault => .undescribed fault
  | .before => .entry placeHolderEntry
  | .after => .entry placeHolderEntry
  | .fatal => .fatal

/-- The response takes the attributes of these columns one after the other, and none of them ends the loop. -/
def Met (append : Append ρ) (ds : List Demand) (r r' : ρ) : Prop :=
  ∃ entries : List Entry, ds = entries.map .entry ∧ appendAll append entries r = .ok r'

/-- How a demand that the response `r` does not meet ends a loop. Only `nextType` closes the connector. -/
def EndsOn (append : Append ρ) (r : ρ) (fault : Fault) (closed closed' : Bool) : Demand → Prop
  | .entry e => append e.name e.type e.value r = .error fault ∧ closed' = closed
  | .undescribed thrown => fault = thrown ∧ closed' = closed
  | .fatal => Thrown fault → closed' = true

/-- How a loop over these demands ends: all are met, or the first that is not ends it. -/
inductive Meets (append : Append ρ) (ds : List Demand) (a : α) (j : Job ρ) : EStateM.Result Fault (Job ρ) α → Prop where
  | all {c : Cursor} {r : ρ} (met : Met append ds j.response r) : Meets append ds a j (.ok a ⟨c, j.closed, r⟩)
  | first {before behind : List Demand} {d : Demand} {r : ρ} {c : Cursor} {fault : Fault} {closed : Bool}
      (split : ds = before ++ d :: behind) (met : Met append before j.response r)
      (ends : EndsOn append r fault j.closed closed d) : Meets append ds a j (.error fault ⟨c, closed, r⟩)

/-! ## Demands one after the other -/

section Met
variable {append : Append ρ} {ds more : List Demand} {d : Demand} {r r₁ r' : ρ}

theorem Met.nil : Met append [] r r := ⟨[], rfl, rfl⟩

theorem met_cons : Met append (d :: ds) r r' ↔
    ∃ e r₁, d = .entry e ∧ append e.name e.type e.value r = .ok r₁ ∧ Met append ds r₁ r' := by
  constructor
  · rintro ⟨entries, same, run⟩
    cases entries with
    | nil => cases same
    | cons e entries =>
      obtain ⟨rfl, rfl⟩ := List.cons.inj same
      obtain ⟨r₁, first, rest⟩ := appendAll_cons.1 run
      exact ⟨e, r₁, rfl, first, entries, rfl, rest⟩
  · rintro ⟨e, r₁, rfl, first, entries, rfl, rest⟩
    exact ⟨e :: entries, rfl, appendAll_cons.2 ⟨r₁, first, rest⟩⟩

theorem Met.unique {r₂ : ρ} (h : Met append ds r r') (h' : Met append ds r r₂) : r' = r₂ := by
  obtain ⟨entries, rfl, run⟩ := h
  obtain ⟨entries', same, run'⟩ := h'
  obtain rfl := (List.map_inj_right fun _ _ e => Demand.entry.inj e).1 same
  exact Except.ok.inj (run.symm.trans run')

theorem met_append : Met append (ds ++ more) r r' ↔ ∃ r₁, Met append ds r r₁ ∧ Met append more r₁ r' := by
  induction ds generalizing r with
  | nil => exact ⟨fun met => ⟨r, .nil, met⟩, fun ⟨r₁, empty, met⟩ => by rwa [← Met.unique .nil empty] at met⟩
  | cons d ds ih =>
    rw [List.cons_append, met_cons]
    constructor
    · rintro ⟨e, r₁, same, first, rest⟩
      obtain ⟨r₂, those, these⟩ := ih.1 rest
      exact ⟨r₂, met_cons.2 ⟨e, r₁, same, first, those⟩, these⟩
    · rintro ⟨r₂, all, these⟩
      obtain ⟨e, r₁, same, first, those⟩ := met_cons.1 all
      exact ⟨e, r₁, same, first, ih.2 ⟨r₂, those, these⟩⟩

/-- A demand that ends a loop is not met. -/
theorem EndsOn.unmet {fault : Fault} {closed closed' : Bool} (ends : EndsOn append r fault closed closed' d) :
    ¬ Met append (d :: ds) r r' := by
  intro met
  obtain ⟨e, r₁, rfl, taken, -⟩ := met_cons.1 met
  cases taken.symm.trans ends.1

/-- Only one demand is the first that is not met. -/
theorem first_unmet {before before' behind behind' : List Demand} {d' : Demand}
    (split : before ++ d :: behind = before' ++ d' :: behind') (met : Met append before r r₁) (met' : Met append before' r r')
    (unmet : ∀ r₂, ¬ Met append [d] r₁ r₂) (unmet' : ∀ r₂, ¬ Met append [d'] r' r₂) : d = d' ∧ r₁ = r' := by
  have longer : ∀ {xs ys as bs : List Demand} {x y : Demand} {rx ry : ρ}, xs ++ x :: as = ys ++ y :: bs →
      Met append xs r rx → Met append ys r ry → (∀ r₂, ¬ Met append [y] ry r₂) → xs.length ≤ ys.length := by
    intro xs ys as bs x y rx ry split all those unmet
    by_contra more
    -- `y` is one of the demands that were met
    obtain ⟨t, rfl⟩ : ys <+: xs := List.prefix_of_prefix_length_le
      ⟨y :: bs, split.symm⟩ ⟨x :: as, rfl⟩ (by omega)
    rw [List.append_assoc] at split
    have same := List.append_cancel_left split
    cases t with
    | nil => simp at more
    | cons z t =>
      obtain ⟨rfl, -⟩ := List.cons.inj same
      obtain ⟨r₂, first, rest⟩ := met_append.1 all
      obtain rfl := first.unique those
      obtain ⟨e, r₃, same, taken, -⟩ := met_cons.1 rest
      exact unmet r₃ (met_cons.2 ⟨e, r₃, same, taken, .nil⟩)
  have lengths := Nat.le_antisymm (longer split met met' unmet') (longer split.symm met' met unmet)
  obtain ⟨rfl, rest⟩ := List.append_inj split lengths
  exact ⟨(List.cons.inj rest).1, met.unique met'⟩

/-- The first demand is not met. -/
theorem Meets.stop {a : α} {j : Job ρ} {c : Cursor} {fault : Fault} {closed : Bool} (rest : List Demand)
    (ends : EndsOn append j.response fault j.closed closed d) : Meets append (d :: rest) a j (.error fault ⟨c, closed, j.response⟩) :=
  .first (List.nil_append (d :: rest)).symm .nil ends

/-- A column met, and then the others. -/
theorem Meets.cons {x : Proc (Job ρ) β} {f : β → Proc (Job ρ) α} {a : α} {b : β} {next : Cursor} {j : Job ρ}
    (column : Meets append [d] b j (x j)) (moves : ∀ b' j', x j = .ok b' j' → j'.cursor = next)
    (rest : ∀ r, Meets append ds a ⟨next, j.closed, r⟩ (f b ⟨next, j.closed, r⟩)) :
    Meets append (d :: ds) a j ((x >>= f) j) := by
  generalize run : x j = res at column
  cases column with
  | @all c r met =>
    obtain rfl := moves _ _ run
    rw [Proc.bind_ok run]
    obtain ⟨e, r₁, rfl, taken, empty⟩ := met_cons.1 met
    obtain rfl := empty.unique .nil
    have later := rest r
    generalize f b ⟨c, j.closed, r⟩ = res at later
    cases later with
    | all met => exact .all (met_cons.2 ⟨e, r, rfl, taken, met⟩)
    | first split met ends =>
      exact .first (congrArg (List.cons _) split) (met_cons.2 ⟨e, r, rfl, taken, met⟩) ends
  | @first before behind d' r c fault closed split met ends =>
    rw [Proc.bind_error run]
    cases before with
    | nil =>
      obtain ⟨rfl, -⟩ := List.cons.inj split
      exact .first (List.nil_append _).symm met ends
    | cons z before => simp at split

/-- The cursor a loop starts on has no part in how it ends. -/
theorem Meets.from_cursor {a : α} {j : Job ρ} {c : Cursor} {res : EStateM.Result Fault (Job ρ) α}
    (h : Meets append ds a { j with cursor := c } res) : Meets append ds a j res := by
  cases h with
  | all met => exact .all met
  | first split met ends => exact .first split met ends

/-- What comes behind a loop whose demands are all met. -/
theorem Meets.bind_all {x : Proc (Job ρ) α} {a : α} {j : Job ρ} (loop : Meets append ds a j (x j))
    (met : Met append ds j.response r) (f : α → Proc (Job ρ) β) :
    ∃ c, (x >>= f) j = f a ⟨c, j.closed, r⟩ := by
  generalize run : x j = res at loop
  cases loop with
  | @all c r' met' =>
    obtain rfl := met.unique met'
    exact ⟨c, Proc.bind_ok run⟩
  | first split met' ends =>
    rw [split] at met
    obtain ⟨r₂, those, these⟩ := met_append.1 met
    obtain rfl := those.unique met'
    exact absurd these ends.unmet

end Met

/-! ## A column -/

section Column
variable {L : Libdap} {b : Backend} {i : Nat}

/-- An attribute for the response, in a loop that goes on. -/
theorem respond_meets (append : Append ρ) (e : Entry) (j : Job ρ) (a : α) :
    Meets append [.entry e] a j ((do respond (append e.name e.type e.value); return a : Proc (Job ρ) α) j) := by
  cases taken : append e.name e.type e.value j.response with
  | ok r =>
    have run : respond (append e.name e.type e.value) j = .ok () { j with response := r } := by
      unfold respond
      rw [taken]
    rw [Proc.bind_ok run]
    exact .all (met_cons.2 ⟨e, r, rfl, taken, .nil⟩)
  | error fault =>
    have run : respond (append e.name e.type e.value) j = .error fault j := by
      unfold respond
      rw [taken]
    rw [Proc.bind_error run]
    exact .stop [] ⟨taken, rfl⟩

theorem respond_moves {f : ρ → Except Fault ρ} {u : Unit} {j j' : Job ρ} (h : respond f j = .ok u j') :
    j'.cursor = j.cursor := by
  unfold respond at h
  split at h <;> cases h
  rfl

/-- A column whose type is made: its description and its attribute. -/
theorem described_meets (append : Append ρ) (entry : Str → Entry) (j : Job ρ) (a : α) :
    Meets append [match b.getColDesc i with | .ok desc => .entry (entry desc) | .error fault => .undescribed fault] a j
      ((do
        let desc ← answer (b.getColDesc i)
        respond (append (entry desc).name (entry desc).type (entry desc).value)
        return a : Proc (Job ρ) α) j) := by
  cases b.getColDesc i with
  | ok desc => exact respond_meets append (entry desc) j a
  | error fault => exact .stop [] ⟨rfl, rfl⟩

/-- `nextType` and what a column does with what it returned, on the cursor it left. -/
theorem typed_meets {append : Append ρ} {form : Str → Str → Str × Str} {f : Option BaseType → Proc (Job ρ) α} {a : α}
    {j : Job ρ}
    (made : ∀ typeName, outcome b j.cursor = .made typeName →
      Meets append [demand form b i j.cursor] a j.moved (f (some (b.newType j.cursor.columnPosition typeName)) j.moved))
    (before : outcome b j.cursor = .before → Meets append [.entry placeHolderEntry] a j (f none j))
    (after : outcome b j.cursor = .after → Meets append [.entry placeHolderEntry] a j.moved (f none j.moved)) :
    Meets append [demand form b i j.cursor] a j ((nextType b >>= f) j) := by
  have typed := nextType_eq b j
  cases out : outcome b j.cursor with
  | made typeName =>
    rw [out] at typed
    rw [Proc.bind_ok typed]
    exact (made typeName out).from_cursor
  | before =>
    rw [out] at typed
    have asks : demand form b i j.cursor = .entry placeHolderEntry := by
      unfold demand
      rw [out]
    rw [Proc.bind_ok typed, asks]
    exact before out
  | after =>
    rw [out] at typed
    have asks : demand form b i j.cursor = .entry placeHolderEntry := by
      unfold demand
      rw [out]
    rw [Proc.bind_ok typed, asks]
    exact (after out).from_cursor
  | fatal =>
    rw [out] at typed
    obtain ⟨fault, ⟨c, closed, r⟩, run, rfl, shut⟩ := typed
    have asks : demand form b i j.cursor = .fatal := by
      unfold demand
      rw [out]
    rw [Proc.bind_error run, asks]
    exact .stop [] shut

theorem demand_made {form : Str → Str → Str × Str} {c : Cursor} {typeName : Str} (out : outcome b c = .made typeName) :
    demand form b i c = match b.getColDesc i with
      | .ok desc => .entry ⟨b.getColName c.columnPosition, (form typeName desc).1, (form typeName desc).2⟩
      | .error fault => .undescribed fault := by
  unfold demand
  rw [out]

theorem nextType_moves {bt : Option BaseType} {j j' : Job ρ} (h : nextType b j = .ok bt j') :
    match outcome b j.cursor with
    | .made typeName => bt = some (b.newType j.cursor.columnPosition typeName) ∧ j' = j.moved
    | .before => bt = none ∧ j' = j
    | .after => bt = none ∧ j' = j.moved
    | .fatal => False := by
  have typed := nextType_eq b j
  cases out : outcome b j.cursor with
  | fatal =>
    rw [out] at typed
    obtain ⟨fault, j₁, run, -⟩ := typed
    cases run.symm.trans h
  | _ =>
    rw [out] at typed
    cases typed.symm.trans h
    exact ⟨rfl, rfl⟩

/-- A column of the DAS loop. -/
theorem dasColumn_meets (j : Job L.DAS) :
    Meets (L.appendDas b.server) [demand dasForm b i j.cursor] () j (BuilderCalls.dasColumn L (calls b) i j) := by
  unfold BuilderCalls.dasColumn
  refine typed_meets (fun typeName out => ?_) (fun _ => ?_) fun _ => ?_
  · have described := described_meets (b := b) (i := i) (L.appendDas b.server)
      (fun desc => ⟨b.getColName j.cursor.columnPosition, (dasForm typeName desc).1, (dasForm typeName desc).2⟩) j.moved ()
    rw [demand_made out]
    simp only [bind_pure_unit] at described
    exact described
  · have appended := respond_meets (L.appendDas b.server) placeHolderEntry j ()
    rwa [bind_pure_unit] at appended
  · have appended := respond_meets (L.appendDas b.server) placeHolderEntry j.moved ()
    rwa [bind_pure_unit] at appended

theorem dasColumn_moves {u : Unit} {j j' : Job L.DAS} (h : BuilderCalls.dasColumn L (calls b) i j = .ok u j') :
    j'.cursor = dasNext b j.cursor := by
  obtain ⟨bt, j₁, type, rest⟩ := Proc.of_bind_ok h
  have moved := nextType_moves type
  unfold dasNext
  cases out : outcome b j.cursor with
  | made typeName =>
    rw [out] at moved
    obtain ⟨rfl, rfl⟩ := moved
    obtain ⟨desc, j₂, told, rest⟩ := Proc.of_bind_ok rest
    obtain ⟨-, rfl⟩ := answer_ok told
    exact respond_moves rest
  | before =>
    rw [out] at moved
    obtain ⟨rfl, rfl⟩ := moved
    exact respond_moves rest
  | after =>
    rw [out] at moved
    obtain ⟨rfl, rfl⟩ := moved
    exact respond_moves rest
  | fatal =>
    rw [out] at moved
    exact moved.elim

/-- A call of `setNext()` moves the cursor where there are columns. -/
theorem setNext_run {j : Job ρ} (some : 0 < j.cursor.columns) : ∃ rows, setNext j = .ok rows j.moved := by
  obtain ⟨rows, c, step, -⟩ := Cursor.setNext_frame (k := 1) some
  refine ⟨rows, ?_⟩
  unfold setNext moved advance
  rw [step]

theorem advance_columns (c : Cursor) : (advance c).columns = c.columns := by
  unfold advance
  cases step : c.setNext 1 with
  | error fault => rfl
  | ok move =>
    obtain ⟨rows, next⟩ := move
    exact (Cursor.setNext_sized step).2

theorem ddsNext_columns (b : Backend) (c : Cursor) : (ddsNext b c).columns = c.columns := by
  unfold ddsNext
  split
  · rw [advance_columns, advance_columns]
  · exact advance_columns c

/-- The place-holder of the DDS and DATA loops, behind the second move. -/
theorem placeHolder_meets {dummy : Str} {seq : List SeqVar} {j : Job L.DDS} (some : 0 < j.cursor.columns) :
    Meets L.appendDds [.entry placeHolderEntry] (seq ++ [.placeHolder dummy]) j
      ((do
        let _ ← setNext
        respond (L.appendDds defaultDasName defaultDasType defaultDasVal)
        return seq ++ [.placeHolder dummy] : Proc (Job L.DDS) (List SeqVar)) j) := by
  obtain ⟨rows, moves⟩ := setNext_run some
  rw [Proc.bind_ok moves]
  exact (respond_meets L.appendDds placeHolderEntry j.moved _).from_cursor

/-- A column of the DDS and DATA loops. -/
theorem ddsColumn_meets {dummy : Str} {seq : List SeqVar} {j : Job L.DDS} (some : 0 < j.cursor.columns) :
    Meets L.appendDds [demand ddsForm b i j.cursor] (seq ++ [seqVar b dummy j.cursor]) j
      (BuilderCalls.ddsColumn L (calls b) dummy i seq j) := by
  unfold BuilderCalls.ddsColumn
  refine typed_meets (fun typeName out => ?_) (fun out => ?_) fun out => ?_
  · rw [demand_made out]
    unfold seqVar
    rw [out]
    exact described_meets (b := b) (i := i) L.appendDds
      (fun desc => ⟨b.getColName j.cursor.columnPosition, (ddsForm typeName desc).1, (ddsForm typeName desc).2⟩) j.moved _
  · unfold seqVar
    rw [out]
    exact placeHolder_meets some
  · unfold seqVar
    rw [out]
    exact placeHolder_meets (j := j.moved) (by
      show 0 < (advance j.cursor).columns
      rwa [advance_columns])

theorem ddsColumn_moves {dummy : Str} {seq seq' : List SeqVar} {j j' : Job L.DDS} (some : 0 < j.cursor.columns)
    (h : BuilderCalls.ddsColumn L (calls b) dummy i seq j = .ok seq' j') : j'.cursor = ddsNext b j.cursor := by
  obtain ⟨bt, j₁, type, rest⟩ := Proc.of_bind_ok h
  have moved := nextType_moves type
  unfold ddsNext
  cases out : outcome b j.cursor with
  | made typeName =>
    rw [out] at moved
    obtain ⟨rfl, rfl⟩ := moved
    obtain ⟨desc, j₂, told, rest⟩ := Proc.of_bind_ok rest
    obtain ⟨-, rfl⟩ := answer_ok told
    obtain ⟨u, j₃, appended, rest⟩ := Proc.of_bind_ok rest
    cases rest
    exact respond_moves appended
  | before =>
    rw [out] at moved
    obtain ⟨rfl, rfl⟩ := moved
    obtain ⟨rows, moves⟩ := setNext_run some
    obtain ⟨u, j₃, appended, rest⟩ := Proc.of_bind_ok ((Proc.bind_ok moves).symm.trans rest)
    cases rest
    exact respond_moves appended
  | after =>
    rw [out] at moved
    obtain ⟨rfl, rfl⟩ := moved
    obtain ⟨rows, moves⟩ := setNext_run (j := j.moved) (by
      show 0 < (advance j.cursor).columns
      rwa [advance_columns])
    obtain ⟨u, j₃, appended, rest⟩ := Proc.of_bind_ok ((Proc.bind_ok moves).symm.trans rest)
    cases rest
    exact respond_moves appended
  | fatal =>
    rw [out] at moved
    exact moved.elim

/-! ## The loops -/

/-- The DAS loop meets the demands of the cursors it visits. -/
theorem dasColumns_meets (left i : Nat) (j : Job L.DAS) :
    Meets (L.appendDas b.server) (along (dasNext b) (demand dasForm b) i left j.cursor) () j
      (BuilderCalls.dasColumns L (calls b) i left j) := by
  induction left generalizing i j with
  | zero => exact .all .nil
  | succ left ih =>
    exact (dasColumn_meets j).cons (fun _ _ => dasColumn_moves) fun r => ih (i + 1) ⟨dasNext b j.cursor, j.closed, r⟩

/-- The DDS and DATA loops meet theirs, and return a variable for each. -/
theorem ddsColumns_meets (dummy : Str) (left i : Nat) (seq : List SeqVar) (j : Job L.DDS)
    (some : 0 < left → 0 < j.cursor.columns) :
    Meets L.appendDds (along (ddsNext b) (demand ddsForm b) i left j.cursor)
      (seq ++ along (ddsNext b) (fun _ => seqVar b dummy) i left j.cursor) j
      (BuilderCalls.ddsColumns L (calls b) dummy i left seq j) := by
  induction left generalizing i seq j with
  | zero =>
    have empty : along (ddsNext b) (fun _ => seqVar b dummy) i 0 j.cursor = [] := rfl
    rw [empty, List.append_nil]
    exact .all .nil
  | succ left ih =>
    have here := some (Nat.succ_pos left)
    refine (ddsColumn_meets here).cons (fun _ _ => ddsColumn_moves here) fun r => ?_
    have later := ih (i + 1) (seq ++ [seqVar b dummy j.cursor]) ⟨ddsNext b j.cursor, j.closed, r⟩ fun _ => by
      show 0 < (ddsNext b j.cursor).columns
      rwa [ddsNext_columns]
    rw [List.append_assoc] at later
    exact later

end Column

/-! ## Whole builder calls -/

/-- A backend on which nothing stops a builder but the columns of the result set. -/
structure Sound (b : Backend) (rows columns : Nat) : Prop extends Starts b rows columns where
  closes : Passes b .onClose b.close
  described : ∀ i < columns, ∃ desc, b.getColDesc i = .ok desc

theorem answer_run (a : α) (j : Job ρ) : answer (.ok a) j = .ok a j := rfl

section Starts
variable {b : Backend} {rows columns : Nat}

theorem checked_run {at' : CheckPoint} {ret : Bool} (passes : Passes b at' ret) (message : Str) (j : Job ρ) :
    checked b at' ret message j = .ok () j := by
  unfold Passes at passes
  unfold checked
  cases factory : b.errorFactory with
  | some trigger =>
    rw [factory] at passes
    show (answer (trigger at' 0) : Proc (Job ρ) Unit) j = _
    rw [show trigger at' 0 = .ok () from passes]
    rfl
  | none =>
    rw [factory] at passes
    rw [if_pos passes]
    rfl

theorem connect_run (connects : ∃ ret, b.connect = .ok ret ∧ Passes b .onConnect ret) (j : Job ρ) :
    connect b j = .ok () { j with closed := false } := by
  obtain ⟨ret, answered, passes⟩ := connects
  refine catchFault_ok ?_
  rw [Proc.bind_ok (Proc.modify_run _ j), answered, Proc.bind_ok (answer_run ret _)]
  exact checked_run passes _ _

theorem query_run (queries : ∃ ret, b.query = .ok (ret, rows, columns) ∧ Passes b .onQuery ret) (j : Job ρ) :
    query b j = .ok () { j with cursor := start rows columns } := by
  obtain ⟨ret, answered, passes⟩ := queries
  refine catchFault_ok ?_
  rw [answered, Proc.bind_ok (answer_run (ret, rows, columns) j)]
  show ((modify _ >>= fun _ => checked b .onQuery ret _) : Proc (Job ρ) Unit) j = _
  rw [Proc.bind_ok (Proc.modify_run _ j)]
  exact checked_run passes _ _

theorem Starts.requireResponse_run (starts : Starts b rows columns) (misfit : Str) (j : Job ρ) :
    requireResponse b misfit j = .ok () j := by
  unfold requireResponse
  rw [if_pos starts.fits]
  rfl

theorem Sound.close_run (sound : Sound b rows columns) (j : Job ρ) :
    closeAction b j = .ok () { j with closed := true } := by
  refine catchFault_ok ?_
  unfold close
  rw [Proc.bind_ok (Proc.modify_run _ j)]
  exact checked_run sound.closes _ _

theorem Starts.sizes (starts : Starts b rows columns) : Sizes rows columns := by
  obtain ⟨ret, queried, -⟩ := starts.queries
  exact b.sizes ret rows columns queried

theorem Starts.unique {rows' columns' : Nat} (starts : Starts b rows columns) (starts' : Starts b rows' columns') :
    rows' = rows ∧ columns' = columns := by
  obtain ⟨ret, queried, -⟩ := starts.queries
  obtain ⟨ret', queried', -⟩ := starts'.queries
  rw [queried] at queried'
  cases queried'
  exact ⟨rfl, rfl⟩

section Runs
variable {L : Libdap}

/-- The response with the sequence of the server behind its variables. -/
def withSequence (L : Libdap) (b : Backend) (seq : List SeqVar) (r : L.DDS) : L.DDS :=
  L.setDatasetName (BuilderCalls.baseName b.realName) (L.addVar b.server seq r)

/-- What `sql_build_dds` and `sql_build_data` do behind their loop. -/
def endSequence (L : Libdap) (b : Backend) (seq : List SeqVar) : Proc (Job L.DDS) Bool := do
  reset
  respond fun dds => .ok (withSequence L b seq dds)
  return true

/-- The DDS and DATA builders come down to their loop. -/
theorem Starts.buildSequence_run (starts : Starts b rows columns) (misfit dummy : Str) (j : Job L.DDS) :
    BuilderCalls.buildSequence L misfit dummy (calls b) j =
      (BuilderCalls.ddsColumns L (calls b) dummy 0 columns [] >>= endSequence L b) ⟨start rows columns, false, j.response⟩ := by
  unfold BuilderCalls.buildSequence
  refine (Proc.bind_ok (connect_run starts.connects j)).trans ?_
  refine (Proc.bind_ok (query_run starts.queries _)).trans ?_
  exact Proc.bind_ok (starts.requireResponse_run misfit _)

/-- The DAS builder comes down to its loop. -/
theorem Starts.sqlBuildDas_run (starts : Starts b rows columns) (j : Job L.DAS) :
    BuilderCalls.sqlBuildDas L (calls b) j =
      (BuilderCalls.dasColumns L (calls b) 0 columns >>= fun _ => do closeAction b; return true)
        ⟨start rows columns, false, L.openTable b.server j.response⟩ := by
  unfold BuilderCalls.sqlBuildDas
  refine (Proc.bind_ok (starts.requireResponse_run _ j)).trans ?_
  refine (Proc.bind_ok (connect_run starts.connects j)).trans ?_
  exact Proc.bind_ok (query_run starts.queries _)

end Runs

end Starts

/-! ## The demands of a result set -/

/-- The demands of the DAS loop. -/
def dasDemands (b : Backend) (rows columns : Nat) : List Demand :=
  (List.range columns).map fun k => demand dasForm b k (cellAt rows columns (dasWalk b rows columns k))

/-- The demands of the DDS and DATA loops. -/
def ddsDemands (b : Backend) (rows columns : Nat) : List Demand :=
  (List.range columns).map fun k => demand ddsForm b k (cellAt rows columns (ddsWalk b rows columns k))

/-- The variables of the DDS and DATA loops. -/
def ddsVars (b : Backend) (dummy : Str) (rows columns : Nat) : List SeqVar :=
  (List.range columns).map fun k => seqVar b dummy (cellAt rows columns (ddsWalk b rows columns k))

section Loops
variable {L : Libdap} {b : Backend} {rows columns : Nat}

theorem dasLoop_meets (sizes : Sizes rows columns) (closed : Bool) (r : L.DAS) :
    Meets (L.appendDas b.server) (dasDemands b rows columns) () ⟨start rows columns, closed, r⟩
      (BuilderCalls.dasColumns L (calls b) 0 columns ⟨start rows columns, closed, r⟩) := by
  unfold dasDemands
  rw [← along_das sizes]
  exact dasColumns_meets columns 0 ⟨start rows columns, closed, r⟩

theorem ddsLoop_meets (sizes : Sizes rows columns) (dummy : Str) (closed : Bool) (r : L.DDS) :
    Meets L.appendDds (ddsDemands b rows columns) (ddsVars b dummy rows columns) ⟨start rows columns, closed, r⟩
      (BuilderCalls.ddsColumns L (calls b) dummy 0 columns [] ⟨start rows columns, closed, r⟩) := by
  have loop := ddsColumns_meets (b := b) dummy columns 0 [] ⟨start rows columns, closed, r⟩ fun some => some
  rw [List.nil_append] at loop
  unfold ddsDemands ddsVars
  rw [← along_dds sizes, ← along_dds sizes]
  exact loop

/-! ## Whole builders -/

/-- How a builder ends once it has come to its columns: the loop ends it, or `close` of the DAS builder
does, or it returns. -/
inductive Built (append : Append ρ) (ds : List Demand) (finish : ρ → ρ) (r₀ : ρ) :
    EStateM.Result Fault (Job ρ) Bool → Prop where
  | all {r : ρ} {j' : Job ρ} (met : Met append ds r₀ r) (response : j'.response = finish r) :
      Built append ds finish r₀ (.ok true j')
  | first {before behind : List Demand} {d : Demand} {fault : Fault} {j' : Job ρ} (split : ds = before ++ d :: behind)
      (met : Met append before r₀ j'.response) (ends : EndsOn append j'.response fault false j'.closed d) :
      Built append ds finish r₀ (.error fault j')
  | unclosed {fault : Fault} {j' : Job ρ} (met : Met append ds r₀ j'.response) : Built append ds finish r₀ (.error fault j')

theorem closeAction_keeps (b : Backend) (j : Job ρ) :
    match closeAction b j with
    | .ok _ j' => j'.response = j.response
    | .error _ j' => j'.response = j.response := by
  have shut : (close : Proc (Job ρ) Unit) j = .ok () { j with closed := true } := rfl
  unfold closeAction catchFault
  rw [Proc.bind_ok shut]
  unfold checked
  cases b.errorFactory with
  | some trigger =>
    dsimp only
    cases trigger .onClose 0 with
    | ok u => rfl
    | error fault => cases fault <;> rfl
  | none => cases b.close <;> rfl

theorem sqlBuildDas_built (starts : Starts b rows columns) (j : Job L.DAS) :
    Built (L.appendDas b.server) (dasDemands b rows columns) id (L.openTable b.server j.response)
      (BuilderCalls.sqlBuildDas L (calls b) j) := by
  have loop := dasLoop_meets (L := L) (b := b) starts.sizes false (L.openTable b.server j.response)
  rw [starts.sqlBuildDas_run]
  generalize run : BuilderCalls.dasColumns L (calls b) 0 columns
    ⟨start rows columns, false, L.openTable b.server j.response⟩ = res at loop
  cases loop with
  | @all c r met =>
    rw [Proc.bind_ok run]
    have kept := closeAction_keeps b (⟨c, false, r⟩ : Job L.DAS)
    cases shut : closeAction b (⟨c, false, r⟩ : Job L.DAS) with
    | ok u j' =>
      rw [shut] at kept
      rw [Proc.bind_ok shut]
      exact .all met kept
    | error fault j' =>
      rw [shut] at kept
      rw [Proc.bind_error shut]
      exact .unclosed (by rw [show j'.response = r from kept]; exact met)
  | first split met ends =>
    rw [Proc.bind_error run]
    exact .first split met ends

theorem buildSequence_built (starts : Starts b rows columns) (misfit dummy : Str) (j : Job L.DDS) :
    Built L.appendDds (ddsDemands b rows columns) (withSequence L b (ddsVars b dummy rows columns)) j.response
      (BuilderCalls.buildSequence L misfit dummy (calls b) j) := by
  have loop := ddsLoop_meets (L := L) (b := b) starts.sizes dummy false j.response
  rw [starts.buildSequence_run]
  generalize run : BuilderCalls.ddsColumns L (calls b) dummy 0 columns [] ⟨start rows columns, false, j.response⟩ =
    res at loop
  cases loop with
  | all met =>
    rw [Proc.bind_ok run]
    exact .all met rfl
  | first split met ends =>
    rw [Proc.bind_error run]
    exact .first split met ends

end Loops

end Job

end SqlHandler
