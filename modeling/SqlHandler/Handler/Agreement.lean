import SqlHandler.Handler.Demands

/-!
# Columns and the three responses

When do the DAS, the DDS and the DATA of one query speak of the same columns? A type
action that fails before the cursor moved leaves the DAS loop on the failing column; one
that fails behind the move sends the DDS and DATA loops a cell too far. The first goes unseen while
the names behind it are those of place-holders, the second while every later column fails as well.
-/

namespace SqlHandler
open Posix

namespace Job
variable {ρ : Type}

/-! ## Failing columns -/

/-- A type action that fails and lets the builder go on. -/
def Outcome.Fails : Outcome → Prop
  | .before => True
  | .after => True
  | _ => False

/-- The type action of the cell `q` fails and lets the builder go on. -/
def FailsAt (b : Backend) (rows columns q : Nat) : Prop := (outcome b (cellAt rows columns q)).Fails

/-- No loop gets a column that another one does not. Behind a column that fails after the move the columns
fail, and so do the cells the DDS and DATA loops ask for in their place; behind one that fails before it the
columns go by the name of a place-holder. -/
structure Steady (b : Backend) (rows columns : Nat) : Prop where
  ahead : ∀ p k, p < k → k < columns → outcome b (cellAt rows columns p) = .after →
    FailsAt b rows columns k ∧ FailsAt b rows columns (ddsWalk b rows columns k)
  held : ∀ p k, p < k → k < columns → outcome b (cellAt rows columns p) = .before →
    dasName b (cellAt rows columns k) = defaultDasName

theorem FailsAt.of_before {b : Backend} {rows columns q : Nat} (out : outcome b (cellAt rows columns q) = .before) :
    FailsAt b rows columns q := by
  unfold FailsAt
  rw [out]
  exact trivial

theorem FailsAt.of_after {b : Backend} {rows columns q : Nat} (out : outcome b (cellAt rows columns q) = .after) :
    FailsAt b rows columns q := by
  unfold FailsAt
  rw [out]
  exact trivial

/-- A type action that neither fails nor ends the builder makes a variable. -/
theorem made_of_not_fails {b : Backend} {rows columns q : Nat} (good : ¬ FailsAt b rows columns q)
    (goes : outcome b (cellAt rows columns q) ≠ .fatal) :
    ∃ t, outcome b (cellAt rows columns q) = .made t := by
  cases out : outcome b (cellAt rows columns q) with
  | made t => exact ⟨t, rfl⟩
  | fatal => exact absurd out goes
  | before => exact absurd (.of_before out) good
  | after => exact absurd (.of_after out) good

theorem Outcome.Fails.ne_fatal {out : Outcome} (fails : out.Fails) : out ≠ .fatal := by
  rintro rfl
  exact fails

theorem Outcome.Fails.ne_made {out : Outcome} (fails : out.Fails) (typeName : Str) : out ≠ .made typeName := by
  rintro rfl
  exact fails

theorem FailsAt.seqVar {b : Backend} {rows columns q : Nat} (fails : FailsAt b rows columns q) (dummy : Str) :
    seqVar b dummy (cellAt rows columns q) = .placeHolder dummy := by
  unfold FailsAt at fails
  unfold Job.seqVar
  cases out : outcome b (cellAt rows columns q) with
  | made typeName => exact absurd out (fails.ne_made typeName)
  | before => rfl
  | after => rfl
  | fatal => rfl

theorem FailsAt.dasName {b : Backend} {rows columns q : Nat} (fails : FailsAt b rows columns q) :
    dasName b (cellAt rows columns q) = defaultDasName := by
  unfold FailsAt at fails
  unfold Job.dasName
  cases out : outcome b (cellAt rows columns q) with
  | made typeName => exact absurd out (fails.ne_made typeName)
  | before => rfl
  | after => rfl
  | fatal => rfl

section Walk
variable {b : Backend} {rows columns : Nat}

/-- While no column fails after the move, the DDS and DATA loops are on the column they count. -/
theorem ddsWalk_eq {k : Nat} (none : ∀ p < k, outcome b (cellAt rows columns p) ≠ .after) :
    ddsWalk b rows columns k = k := by
  induction k with
  | zero => rfl
  | succ k ih =>
    have here := ih fun p lt => none p (by omega)
    have step : ddsStep b rows columns k = 1 := by
      have := none k (by omega)
      unfold ddsStep
      split
      · contradiction
      · rfl
    rw [ddsWalk, here, step]

/-- While no column fails before the move, the DAS loop is on the column it counts. -/
theorem dasWalk_eq {k : Nat} (none : ∀ p < k, outcome b (cellAt rows columns p) ≠ .before) :
    dasWalk b rows columns k = k := by
  induction k with
  | zero => rfl
  | succ k ih =>
    have here := ih fun p lt => none p (by omega)
    have step : dasStep b rows columns k = 1 := by
      have := none k (by omega)
      unfold dasStep
      split
      · contradiction
      · rfl
    rw [dasWalk, here, step]

/-- A column that fails before the move holds the DAS loop. -/
theorem dasWalk_stuck {p k : Nat} (here : dasWalk b rows columns p = p)
    (before : outcome b (cellAt rows columns p) = .before) (le : p ≤ k) : dasWalk b rows columns k = p := by
  induction k, le using Nat.le_induction with
  | base => exact here
  | succ k le ih =>
    rw [dasWalk, ih, dasStep, before]
    rfl

/-- Behind a column that failed after the move the DDS and DATA loops are ahead of their count. -/
theorem ddsWalk_ahead {p k : Nat} (after : outcome b (cellAt rows columns p) = .after)
    (here : ddsWalk b rows columns p = p) (lt : p < k) : k < ddsWalk b rows columns k := by
  induction k, lt using Nat.le_induction with
  | base =>
    rw [ddsWalk, here, ddsStep, after]
    show p.succ < p + 2
    omega
  | succ k lt ih =>
    have step := ddsStep_bounds b rows columns (ddsWalk b rows columns k)
    rw [ddsWalk]
    omega

/-- The first column that comes out so, at or before one that does. -/
theorem first_outcome {out : Outcome} {p : Nat} (some : outcome b (cellAt rows columns p) = out) :
    ∃ q ≤ p, outcome b (cellAt rows columns q) = out ∧ ∀ r < q, outcome b (cellAt rows columns r) ≠ out := by
  classical
  have found : ∃ q, outcome b (cellAt rows columns q) = out := ⟨p, some⟩
  exact ⟨Nat.find found, Nat.find_min' found some, Nat.find_spec found, fun r lt => Nat.find_min found lt⟩

end Walk

/-! ## What the columns come to -/

/-- The variables of the columns: that of column `i`, or a place-holder where it failed. -/
def columnVars (b : Backend) (dummy : Str) (rows columns : Nat) : List SeqVar :=
  (List.range columns).map fun i => seqVar b dummy (cellAt rows columns i)

/-- The names of these variables. -/
def columnNames (b : Backend) (rows columns : Nat) : List Str :=
  (List.range columns).map fun i => dasName b (cellAt rows columns i)

/-- The attributes of the columns in the DDS. -/
def columnDemands (b : Backend) (rows columns : Nat) : List Demand :=
  (List.range columns).map fun i => demand ddsForm b i (cellAt rows columns i)

/-- The attributes of the columns in the DAS, a place-holder behind a column that fails before the move. -/
def heldDemands (b : Backend) (rows columns : Nat) : List Demand :=
  (List.range columns).map fun i =>
    if ∃ p < i, outcome b (cellAt rows columns p) = .before then .entry placeHolderEntry
    else demand dasForm b i (cellAt rows columns i)

/-- libdap takes the attributes of the columns one after the other, in the DDS and in the table of the DAS. -/
structure Taken (L : Libdap) (b : Backend) (rows columns : Nat) (das₀ : L.DAS) (dds₀ : L.DDS) : Prop where
  dds : ∃ r, Met L.appendDds (columnDemands b rows columns) dds₀ r
  das : ∃ r, Met (L.appendDas b.server) (heldDemands b rows columns) (L.openTable b.server das₀) r

/-- String attributes of these names and values. -/
def stringEntries (names values : List Str) : List Entry :=
  List.zipWith (fun name value => ⟨name, "String".toList, value⟩) names values

/-- The three builders return: the DDS and the DATA with the variables of the columns behind their others,
the DAS with `append_attr` called for each of their names in turn. -/
structure Aligned (L : Libdap) (b : Backend) (rows columns : Nat) (das₀ : L.DAS) (dds₀ : L.DDS) : Prop where
  dds : ∀ j : Job L.DDS, j.response = dds₀ → ∃ j', BuilderCalls.sqlBuildDds L (calls b) j = .ok true j' ∧
    L.vars j'.response = L.vars dds₀ ++ [(b.server, columnVars b defaultDasVal rows columns)]
  data : ∀ j : Job L.DDS, j.response = dds₀ → ∃ j', BuilderCalls.sqlBuildData L (calls b) j = .ok true j' ∧
    L.vars j'.response = L.vars dds₀ ++ [(b.server, columnVars b defaultDasName rows columns)]
  das : ∀ j : Job L.DAS, j.response = das₀ → ∃ j' values, BuilderCalls.sqlBuildDas L (calls b) j = .ok true j' ∧
    values.length = columns ∧ appendAll (L.appendDas b.server) (stringEntries (columnNames b rows columns) values)
      (L.openTable b.server das₀) = .ok j'.response

section Agreement
variable {L : Libdap} {b : Backend} {rows columns : Nat} {das₀ : L.DAS} {dds₀ : L.DDS}

theorem FailsAt.demand {q i : Nat} (fails : FailsAt b rows columns q) (form : Str → Str → Str × Str) :
    demand form b i (cellAt rows columns q) = .entry placeHolderEntry := by
  unfold FailsAt at fails
  unfold Job.demand
  cases out : outcome b (cellAt rows columns q) with
  | made typeName => exact absurd out (fails.ne_made typeName)
  | before => rfl
  | after => rfl
  | fatal => exact absurd out fails.ne_fatal

/-- An attribute bears the name the column adds to the DAS. -/
theorem demand_name {form : Str → Str → Str × Str} {i : Nat} {c : Cursor} {e : Entry}
    (asks : demand form b i c = .entry e) : e.name = dasName b c := by
  unfold demand at asks
  unfold dasName
  cases out : outcome b c with
  | made typeName =>
    rw [out] at asks
    dsimp only at asks
    split at asks <;> cases asks
    rfl
  | before =>
    rw [out] at asks
    cases asks
    rfl
  | after =>
    rw [out] at asks
    cases asks
    rfl
  | fatal =>
    rw [out] at asks
    cases asks

theorem demand_das_type {i : Nat} {c : Cursor} {e : Entry} (asks : demand dasForm b i c = .entry e) :
    e.type = "String".toList := by
  unfold demand at asks
  split at asks
  · split at asks <;> cases asks
    rfl
  · cases asks
    rfl
  · cases asks
    rfl
  · cases asks

/-- The DAS loop comes to a place-holder behind a column that holds it, and to its own column before. -/
theorem dasDemands_eq : dasDemands b rows columns = heldDemands b rows columns := by
  refine List.map_congr_left fun k _ => ?_
  split
  · rename_i held
    obtain ⟨p, lt, before⟩ := held
    obtain ⟨q, le, first, none⟩ := first_outcome before
    have fails : FailsAt b rows columns q := .of_before first
    rw [dasWalk_stuck (dasWalk_eq none) first (by omega), fails.demand]
  · rename_i free
    rw [dasWalk_eq fun p lt before => free ⟨p, lt, before⟩]

theorem Steady.ddsDemands_eq (steady : Steady b rows columns) :
    ddsDemands b rows columns = columnDemands b rows columns := by
  refine List.map_congr_left fun k mem => ?_
  by_cases some : ∃ p < k, outcome b (cellAt rows columns p) = .after
  · obtain ⟨p, lt, after⟩ := some
    obtain ⟨here, there⟩ := steady.ahead p k lt (List.mem_range.1 mem) after
    rw [here.demand, there.demand]
  · rw [ddsWalk_eq fun p lt after => some ⟨p, lt, after⟩]

theorem Steady.ddsVars_eq (steady : Steady b rows columns) (dummy : Str) :
    ddsVars b dummy rows columns = columnVars b dummy rows columns := by
  refine List.map_congr_left fun k mem => ?_
  by_cases some : ∃ p < k, outcome b (cellAt rows columns p) = .after
  · obtain ⟨p, lt, after⟩ := some
    obtain ⟨here, there⟩ := steady.ahead p k lt (List.mem_range.1 mem) after
    rw [here.seqVar, there.seqVar]
  · rw [ddsWalk_eq fun p lt after => some ⟨p, lt, after⟩]

theorem Steady.dasName_eq (steady : Steady b rows columns) {k : Nat} (lt : k < columns) :
    dasName b (cellAt rows columns (dasWalk b rows columns k)) = dasName b (cellAt rows columns k) := by
  by_cases some : ∃ p < k, outcome b (cellAt rows columns p) = .before
  · obtain ⟨p, less, before⟩ := some
    obtain ⟨q, le, first, none⟩ := first_outcome before
    have fails : FailsAt b rows columns q := .of_before first
    rw [steady.held p k less lt before, dasWalk_stuck (dasWalk_eq none) first (by omega), fails.dasName]
  · rw [dasWalk_eq fun p lt before => some ⟨p, lt, before⟩]

/-! ### Builders that return -/

theorem Sound.buildSequence_returns (sound : Sound b rows columns) (misfit dummy : Str) {j : Job L.DDS} {r : L.DDS}
    (met : Met L.appendDds (ddsDemands b rows columns) j.response r) :
    ∃ j', BuilderCalls.buildSequence L misfit dummy (calls b) j = .ok true j' ∧
      j'.response = withSequence L b (ddsVars b dummy rows columns) r := by
  rw [sound.toStarts.buildSequence_run]
  have loop := ddsLoop_meets (L := L) (b := b) sound.toStarts.sizes dummy false j.response
  obtain ⟨c, run⟩ := loop.bind_all met (endSequence L b)
  rw [run]
  exact ⟨_, rfl, rfl⟩

theorem Sound.sqlBuildDas_returns (sound : Sound b rows columns) {j : Job L.DAS} {r : L.DAS}
    (met : Met (L.appendDas b.server) (dasDemands b rows columns) (L.openTable b.server j.response) r) :
    ∃ j', BuilderCalls.sqlBuildDas L (calls b) j = .ok true j' ∧ j'.response = r := by
  rw [sound.toStarts.sqlBuildDas_run]
  have loop := dasLoop_meets (L := L) (b := b) sound.toStarts.sizes false (L.openTable b.server j.response)
  obtain ⟨c, run⟩ := loop.bind_all met fun _ => (do closeAction b; return true : Proc (Job L.DAS) Bool)
  rw [run, Proc.bind_ok (sound.close_run _)]
  exact ⟨_, rfl, rfl⟩

/-- What a builder that returned has written. -/
theorem Built.returned {append : Append ρ} {ds : List Demand} {finish : ρ → ρ} {r₀ : ρ} {ret : Bool} {j' : Job ρ}
    (built : Built append ds finish r₀ (.ok ret j')) : ∃ r, Met append ds r₀ r ∧ j'.response = finish r := by
  cases built with
  | all met response => exact ⟨_, met, response⟩

theorem vars_withSequence (seq : List SeqVar) (r : L.DDS) : L.vars (withSequence L b seq r) = L.vars r ++ [(b.server, seq)] := by
  unfold withSequence
  rw [L.vars_name, L.vars_add]

/-- A demand that was met did not end the builder. -/
theorem Met.not_fatal {append : Append ρ} {ds : List Demand} {r r' : ρ} (met : Met append ds r r') {form : Str → Str → Str × Str}
    {i : Nat} {c : Cursor} (mem : demand form b i c ∈ ds) : outcome b c ≠ .fatal := by
  intro out
  obtain ⟨entries, rfl, -⟩ := met
  obtain ⟨e, -, same⟩ := List.mem_map.1 mem
  unfold demand at same
  rw [out] at same
  cases same

/-- Behind a column that failed after the move the DDS and DATA loops are on no column they count. -/
theorem ddsWalk_other {p k : Nat} (after : outcome b (cellAt rows columns p) = .after)
    (here : ddsWalk b rows columns p = p) (lt : p < k) (inside : k < columns) :
    (cellAt rows columns (ddsWalk b rows columns k)).columnPosition ≠ k := by
  have ahead := ddsWalk_ahead after here lt
  have bound := (ddsWalk_bounds b rows columns k).2
  unfold cellAt
  split
  · intro column
    simp only at column
    rcases Nat.lt_or_ge (ddsWalk b rows columns k) columns with small | large
    · rw [Nat.mod_eq_of_lt small] at column
      omega
    · rw [Nat.mod_eq_sub_mod large, Nat.mod_eq_of_lt (by omega)] at column
      omega
  · intro column
    simp only at column
    omega

theorem Aligned.met_dds (aligned : Aligned L b rows columns das₀ dds₀) (sound : Sound b rows columns) :
    (∃ r, Met L.appendDds (ddsDemands b rows columns) dds₀ r) ∧
      ddsVars b defaultDasVal rows columns = columnVars b defaultDasVal rows columns := by
  obtain ⟨j', run, vars⟩ := aligned.dds ⟨start rows columns, true, dds₀⟩ rfl
  have built := buildSequence_built sound.toStarts "SQLBuildDDS: Unable to get DDSResponse object".toList defaultDasVal
    (⟨start rows columns, true, dds₀⟩ : Job L.DDS)
  rw [show BuilderCalls.buildSequence L _ defaultDasVal (calls b) _ = _ from run] at built
  obtain ⟨r, met, response⟩ := built.returned
  refine ⟨⟨r, met⟩, ?_⟩
  obtain ⟨entries, -, appended⟩ := met
  rw [response, vars_withSequence, Libdap.vars_appendAll appended] at vars
  exact congrArg Prod.snd (List.cons.inj (List.append_cancel_left vars)).1

/-- Aligned variables leave no good column behind one that fails after the move. -/
theorem Aligned.ahead (aligned : Aligned L b rows columns das₀ dds₀) (sound : Sound b rows columns)
    (goes : ∀ i < columns, outcome b (cellAt rows columns i) ≠ .fatal) {p k : Nat} (behind : p < k) (lt : k < columns)
    (after : outcome b (cellAt rows columns p) = .after) :
    FailsAt b rows columns k ∧ FailsAt b rows columns (ddsWalk b rows columns k) := by
  obtain ⟨⟨r, met⟩, vars⟩ := aligned.met_dds sound
  have same : seqVar b defaultDasVal (cellAt rows columns (ddsWalk b rows columns k)) =
      seqVar b defaultDasVal (cellAt rows columns k) :=
    List.map_inj_left.1 vars k (List.mem_range.2 lt)
  have visits : outcome b (cellAt rows columns (ddsWalk b rows columns k)) ≠ .fatal :=
    met.not_fatal (List.mem_map_of_mem (List.mem_range.2 lt))
  obtain ⟨q, le, first, none⟩ := first_outcome after
  have other := ddsWalk_other first (ddsWalk_eq none) (by omega : q < k) lt
  have fails : FailsAt b rows columns k := by
    by_contra good
    obtain ⟨t, made⟩ := made_of_not_fails good (goes k lt)
    have expected : seqVar b defaultDasVal (cellAt rows columns k) = .column (b.newType k t) := by
      unfold Job.seqVar
      rw [made, cellAt_first lt]
    rw [expected] at same
    unfold Job.seqVar at same
    split at same
    · exact other (congrArg BaseType.column (SeqVar.column.inj same))
    · cases same
  refine ⟨fails, ?_⟩
  by_contra good
  obtain ⟨t, made⟩ := made_of_not_fails good visits
  rw [fails.seqVar] at same
  unfold Job.seqVar at same
  rw [made] at same
  cases same

/-- What holds of fewer elements and of as many holds of the same. -/
theorem forall_of_countP_eq {α : Type} {p q : α → Bool} {l : List α} (sub : ∀ x ∈ l, p x = true → q x = true)
    (same : l.countP q = l.countP p) : ∀ x ∈ l, q x = true → p x = true := by
  induction l with
  | nil => exact fun x mem => absurd mem List.not_mem_nil
  | cons a l ih =>
    obtain ⟨first, rest⟩ := List.forall_mem_cons.1 sub
    have le := List.countP_mono_left rest
    rw [List.countP_cons, List.countP_cons] at same
    refine List.forall_mem_cons.2 ⟨fun holds => ?_, ih rest ?_⟩
    · by_contra fails
      rw [if_pos holds, if_neg fails] at same
      omega
    · have more : (if p a = true then 1 else 0) ≤ (if q a = true then 1 else 0) := by
        split
        · rw [if_pos (first ‹_›)]
        · exact Nat.zero_le _
      omega

/-- The names of the attributes that some columns come to. -/
theorem names_of_demands {form : Str → Str → Str × Str} {cursor : Nat → Cursor} {l : List Nat} {entries : List Entry}
    (same : (l.map fun k => demand form b k (cursor k)) = entries.map .entry) :
    entries.map Entry.name = l.map fun k => dasName b (cursor k) := by
  induction l generalizing entries with
  | nil =>
    cases entries with
    | nil => rfl
    | cons e entries => cases same
  | cons k l ih =>
    cases entries with
    | nil => cases same
    | cons e entries =>
      obtain ⟨first, rest⟩ := List.cons.inj same
      rw [List.map_cons, List.map_cons, ih rest, demand_name first]

theorem stringEntries_names {names values : List Str} (length : values.length = names.length) :
    (stringEntries names values).map Entry.name = names := by
  induction names generalizing values with
  | nil => rfl
  | cons name names ih =>
    cases values with
    | nil => cases length
    | cons value values => exact congrArg (List.cons name) (ih (Nat.succ.inj length))

theorem Aligned.met_das (aligned : Aligned L b rows columns das₀ dds₀) (sound : Sound b rows columns) :
    ∃ r values, Met (L.appendDas b.server) (dasDemands b rows columns) (L.openTable b.server das₀) r ∧
      values.length = columns ∧
      appendAll (L.appendDas b.server) (stringEntries (columnNames b rows columns) values) (L.openTable b.server das₀) = .ok r := by
  obtain ⟨j', values, run, length, appended⟩ := aligned.das ⟨start rows columns, true, das₀⟩ rfl
  have built := sqlBuildDas_built sound.toStarts (⟨start rows columns, true, das₀⟩ : Job L.DAS)
  rw [run] at built
  obtain ⟨r, met, response⟩ := built.returned
  exact ⟨r, values, met, length, by rw [appended, response]; rfl⟩

/-- Aligned names are those of place-holders behind a column that fails before the move. -/
theorem Aligned.held (aligned : Aligned L b rows columns das₀ dds₀) (sound : Sound b rows columns) {p k : Nat}
    (behind : p < k) (lt : k < columns) (before : outcome b (cellAt rows columns p) = .before) :
    dasName b (cellAt rows columns k) = defaultDasName := by
  obtain ⟨r, values, ⟨entries, asked, appended⟩, length, named⟩ := aligned.met_das sound
  obtain ⟨q, le, first, none⟩ := first_outcome before
  have fails : FailsAt b rows columns q := .of_before first
  have stuck : ∀ i, q ≤ i → dasName b (cellAt rows columns (dasWalk b rows columns i)) = defaultDasName := fun i from' => by
    rw [dasWalk_stuck (dasWalk_eq none) first from', fails.dasName]
  -- both calls of `append_attr` count as many values of a place-holder's name
  have counts := (Libdap.num_appendAll_das appended defaultDasName b.server).symm.trans
    (Libdap.num_appendAll_das named defaultDasName b.server)
  rw [if_pos rfl, if_pos rfl, names_of_demands asked,
    stringEntries_names (by rw [length, columnNames, List.length_map, List.length_range])] at counts
  have same := Nat.add_left_cancel counts
  unfold columnNames at same
  rw [List.count_eq_countP, List.count_eq_countP, List.countP_map, List.countP_map] at same
  have back := forall_of_countP_eq (fun i _ holds => ?_) same k (List.mem_range.2 lt)
  · exact eq_of_beq (back (beq_iff_eq.2 (stuck k (by omega))))
  · by_cases small : i < q
    · rw [Function.comp_apply, dasWalk_eq fun r less => none r (by omega)]
      exact holds
    · exact beq_iff_eq.2 (stuck i (by omega))

/-- The values of the entries the DAS loop comes to. -/
theorem Steady.das_entries (steady : Steady b rows columns) {entries : List Entry}
    (asked : dasDemands b rows columns = entries.map .entry) :
    entries = stringEntries (columnNames b rows columns) (entries.map Entry.value) := by
  have names : entries.map Entry.name = columnNames b rows columns := by
    rw [names_of_demands asked]
    exact List.map_congr_left fun k mem => steady.dasName_eq (List.mem_range.1 mem)
  have types : ∀ e ∈ entries, e.type = "String".toList := fun e mem => by
    have asks : Demand.entry e ∈ dasDemands b rows columns := by
      rw [asked]
      exact List.mem_map_of_mem mem
    obtain ⟨k, -, same⟩ := List.mem_map.1 asks
    exact demand_das_type same
  rw [← names]
  clear asked names
  induction entries with
  | nil => rfl
  | cons e entries ih =>
    obtain ⟨first, rest⟩ := List.forall_mem_cons.1 types
    refine congrArg₂ List.cons ?_ (ih rest)
    rw [← first]

/-- On a backend that answers every call, with no column that ends the builder, the three responses agree
with the columns exactly when no loop is shown a column another one is not and libdap takes the attributes. -/
theorem aligned_iff (L : Libdap) (sound : Sound b rows columns)
    (goes : ∀ i < columns, outcome b (cellAt rows columns i) ≠ .fatal) (das₀ : L.DAS) (dds₀ : L.DDS) :
    Aligned L b rows columns das₀ dds₀ ↔ Steady b rows columns ∧ Taken L b rows columns das₀ dds₀ := by
  constructor
  · intro aligned
    have steady : Steady b rows columns :=
      ⟨fun p k behind lt => aligned.ahead sound goes behind lt, fun p k behind lt => aligned.held sound behind lt⟩
    refine ⟨steady, ?_, ?_⟩
    · rw [← steady.ddsDemands_eq]
      exact (aligned.met_dds sound).1
    · obtain ⟨r, values, met, -⟩ := aligned.met_das sound
      rw [← dasDemands_eq]
      exact ⟨r, met⟩
  · rintro ⟨steady, taken⟩
    obtain ⟨r, met⟩ := taken.dds
    rw [← steady.ddsDemands_eq] at met
    have sequence : ∀ (misfit dummy : Str) (j : Job L.DDS), j.response = dds₀ →
        ∃ j', BuilderCalls.buildSequence L misfit dummy (calls b) j = .ok true j' ∧
          L.vars j'.response = L.vars dds₀ ++ [(b.server, columnVars b dummy rows columns)] := by
      rintro misfit dummy j rfl
      obtain ⟨j', run, response⟩ := sound.buildSequence_returns misfit dummy met
      obtain ⟨entries, -, appended⟩ := met
      exact ⟨j', run, by rw [response, vars_withSequence, Libdap.vars_appendAll appended, steady.ddsVars_eq]⟩
    refine ⟨sequence _ _, sequence _ _, ?_⟩
    rintro j rfl
    obtain ⟨r, met⟩ := taken.das
    rw [← dasDemands_eq] at met
    obtain ⟨j', run, rfl⟩ := sound.sqlBuildDas_returns met
    obtain ⟨entries, asked, appended⟩ := met
    refine ⟨j', entries.map Entry.value, run, ?_, by rwa [← steady.das_entries asked]⟩
    have lengths := congrArg List.length asked
    rw [dasDemands, List.length_map, List.length_map, List.length_range] at lengths
    rw [List.length_map, lengths]

end Agreement

/-- Two rows of three columns; the type action of one column throws a `BESInternalError`. -/
def threeColumns (failing : Nat) : Backend where
  server := "db".toList
  realName := "/data/test.sql".toList
  connect := .ok true
  query := .ok (true, 2, 3)
  types column :=
    if column = failing then [.ok ⟨.ok [.error (.error ⟨.besInternalError, "no such type".toList⟩)], true⟩]
    else [.ok ⟨.ok [.ok (some "Int32".toList)], true⟩]
  getColName column := List.replicate (column + 1) 'c'
  getColDesc _ := .ok "a column".toList
  close := true
  errorFactory := none
  besErrorIsException := true
  responseFits := true
  sizes _ _ _ answered := by
    cases answered
    exact ⟨by decide, by decide⟩

theorem threeColumns_sound (failing : Nat) : Sound (threeColumns failing) 2 3 :=
  ⟨⟨rfl, ⟨true, rfl, rfl⟩, ⟨true, rfl, rfl⟩⟩, rfl, fun _ _ => ⟨_, rfl⟩⟩

/-- The last column may fail. -/
theorem last_column_aligned : Aligned Lists.libdap (threeColumns 2) 2 3 (fun _ => none) (⟨[], [], []⟩ : Lists.DDS) := by
  have goes : ∀ i < 3, outcome (threeColumns 2) (cellAt 2 3 i) ≠ .fatal := by decide
  have good : ∀ p < 2, outcome (threeColumns 2) (cellAt 2 3 p) = .made "Int32".toList := by decide
  refine (aligned_iff Lists.libdap (threeColumns_sound 2) goes _ _).2 ⟨⟨?_, ?_⟩, ?_, ?_⟩
  · intro p k behind lt after
    cases (good p (by omega)).symm.trans after
  · intro p k behind lt before
    cases (good p (by omega)).symm.trans before
  · exact ⟨_, [⟨"c".toList, "Int32".toList, "a column".toList⟩, ⟨"cc".toList, "Int32".toList, "a column".toList⟩,
      placeHolderEntry], by decide +kernel, rfl⟩
  · exact ⟨_, [⟨"c".toList, "String".toList, "\"a column\"".toList⟩, ⟨"cc".toList, "String".toList, "\"a column\"".toList⟩,
      placeHolderEntry], by decide +kernel, rfl⟩

/-- A middle column that fails takes the column behind it along. -/
theorem middle_column_misaligned :
    Sound (threeColumns 1) 2 3 ∧ (∀ i < 3, outcome (threeColumns 1) (cellAt 2 3 i) ≠ .fatal) ∧
      ¬ Aligned Lists.libdap (threeColumns 1) 2 3 (fun _ => none) (⟨[], [], []⟩ : Lists.DDS) := by
  have goes : ∀ i < 3, outcome (threeColumns 1) (cellAt 2 3 i) ≠ .fatal := by decide
  refine ⟨threeColumns_sound 1, goes, fun aligned => ?_⟩
  have behind := aligned.ahead (threeColumns_sound 1) goes (p := 1) (k := 2) (by decide) (by decide) rfl
  exact behind.1

end Job

end SqlHandler
