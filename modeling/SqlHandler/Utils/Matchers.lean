import SqlHandler.Utils.StringMatch
import Mathlib.Data.List.Range
import Mathlib.Logic.Function.Basic

/-!
# The two overloads of `StringMatch::match`

The overload with a bitset as it is written: `get_next` walks over the bits, a first loop
collects the groups that are set in a bitset of their own, and a second one fills the array of
a `matched` in the order of its bits. An entry read back by its bitset is what the overload
with vectors stores of the same match (`matchers_agree`).
-/

namespace SqlHandler
open Posix Text

/-! ## Loops over bits -/

/-- `std::bitset` -/
abbrev Bits := Nat → Bool

/-- `set(i, true)` -/
def Bits.set (bs : Bits) (i : Nat) : Bits := fun j => j == i || bs j

/-- The bits that are set, of `sz` bits. -/
def Bits.elements (sz : Nat) (bs : Bits) : List Nat := (List.range sz).filter bs

namespace StringMatch

/-- The `while` loop of `get_next` with `n` bits to go. -/
def nextBit (bs : Bits) : Nat → Nat → Nat
  | 0, i => i
  | n + 1, i => if bs i then i else nextBit bs n (i + 1)

/-- `get_next` -/
def getNext (sz : Nat) (bs : Bits) (i : Nat) : Nat := nextBit bs (sz - i) i

/-- `for (i = get_next(bs, 0); i < sz; i = get_next(bs, ++i))`, in at most `n` rounds from `i` on. -/
def forBits {σ : Type} (sz : Nat) (bs : Bits) (body : Nat → σ → Except Fault σ) : Nat → Nat → σ → Except Fault σ
  | 0, _, s => .ok s
  | n + 1, i, s =>
    if i < sz then do
      let s ← body i s
      forBits sz bs body n (getNext sz bs (i + 1)) s
    else .ok s

/-- The whole loop. -/
def eachBit {σ : Type} (sz : Nat) (bs : Bits) (body : Nat → σ → Except Fault σ) (s : σ) : Except Fault σ :=
  forBits sz bs body sz (getNext sz bs 0) s

/-- The bits set from `i` on. -/
def bitsFrom (bs : Bits) (sz i : Nat) : List Nat := (List.range' i (sz - i)).filter bs

theorem bitsFrom_stop (bs : Bits) {sz i : Nat} (h : sz ≤ i) : bitsFrom bs sz i = [] := by
  rw [bitsFrom, Nat.sub_eq_zero_of_le h]
  rfl

theorem bitsFrom_step (bs : Bits) {sz i : Nat} (h : i < sz) :
    bitsFrom bs sz i = if bs i then i :: bitsFrom bs sz (i + 1) else bitsFrom bs sz (i + 1) := by
  have more : sz - i = (sz - (i + 1)) + 1 := by omega
  rw [bitsFrom, more, List.range'_succ, List.filter_cons, bitsFrom]

/-- The next bit is the first that is set, or `sz`. -/
theorem getNext_bits (bs : Bits) {sz i : Nat} (h : i ≤ sz) :
    (getNext sz bs i = sz ∧ bitsFrom bs sz i = []) ∨
      (getNext sz bs i < sz ∧ i ≤ getNext sz bs i ∧ bs (getNext sz bs i) = true ∧
        bitsFrom bs sz i = getNext sz bs i :: bitsFrom bs sz (getNext sz bs i + 1)) := by
  unfold getNext
  obtain ⟨n, size⟩ : ∃ n, sz - i = n := ⟨_, rfl⟩
  rw [size]
  induction n generalizing i with
  | zero =>
    have e : i = sz := by omega
    exact .inl ⟨e, bitsFrom_stop bs (by omega)⟩
  | succ n ih =>
    have lt : i < sz := by omega
    rw [nextBit, bitsFrom_step bs lt]
    split
    · rename_i set
      exact .inr ⟨lt, le_rfl, set, rfl⟩
    · rcases ih (i := i + 1) (by omega) (by omega) with stop | ⟨inside, after, set, bits⟩
      · exact .inl stop
      · exact .inr ⟨inside, by omega, set, bits⟩

theorem forBits_eq {σ : Type} (bs : Bits) (body : Nat → σ → Except Fault σ) {sz n i : Nat} (h : i ≤ sz) (enough : sz ≤ i + n)
    (s : σ) : forBits sz bs body n (getNext sz bs i) s = (bitsFrom bs sz i).foldlM (fun s i => body i s) s := by
  induction n generalizing i s with
  | zero =>
    rw [bitsFrom_stop bs (by omega)]
    rfl
  | succ n ih =>
    rcases getNext_bits bs h with ⟨stop, none⟩ | ⟨inside, after, -, bits⟩
    · rw [forBits, stop, if_neg (lt_irrefl sz), none]
      rfl
    · rw [forBits, if_pos inside, bits, List.foldlM_cons]
      congr 1
      funext s
      exact ih (by omega) (by omega) s

/-- A loop runs over the bits that are set, in their order. -/
theorem eachBit_eq {σ : Type} (sz : Nat) (bs : Bits) (body : Nat → σ → Except Fault σ) (s : σ) :
    eachBit sz bs body s = (bs.elements sz).foldlM (fun s i => body i s) s := by
  rw [eachBit, forBits_eq bs body (Nat.zero_le sz) (by omega), bitsFrom, Bits.elements, List.range_eq_range']
  rfl

end StringMatch

/-! ## `matched` -/

/-- `matched<sz>`: the groups found and their texts, one after the other. -/
structure MatchedBits where
  map : Bits
  texts : List Text

namespace MatchedBits

/-- The constructor: an empty text for each bit. -/
def make (sz : Nat) (map : Bits) : MatchedBits := ⟨map, List.replicate (map.elements sz).length []⟩

/-- `sizeOn` -/
def sizeOn (m : MatchedBits) : Nat := m.texts.length

/-- `setMatch` -/
def setMatch (m : MatchedBits) (i : Nat) (t : Text) : Except Fault MatchedBits :=
  if i < m.sizeOn then .ok { m with texts := m.texts.set i t }
  else .error (.error ⟨.besInternalFatalError, "Index out of bounds".toList⟩)

/-- `getMatch` -/
def getMatch (m : MatchedBits) (i : Nat) : Except Fault Text :=
  match m.texts[i]? with
  | some t => .ok t
  | none => .error (.error ⟨.besInternalFatalError, "Index out of bounds".toList⟩)

/-- The text of a group read back: as many texts stand before it as bits, an unset group is empty. -/
def read (m : MatchedBits) (g : Nat) : Text :=
  if m.map g then m.texts.getD (m.map.elements g).length [] else []

/-- An entry read back by its bits. -/
def decode (m : MatchedBits) (groups : List Nat) : List Text := groups.map m.read

/-- An entry as the list of its groups, each with its text. -/
def toMatched (sz : Nat) (m : MatchedBits) : Matched := ⟨(m.map.elements sz).zip m.texts⟩

end MatchedBits

namespace StringMatch
variable (regexec : Str → Option Match) (sz : Nat) (groups : Bits)

/-- The bits of the groups found. -/
def foundBits (m : Match) : Except Fault Bits :=
  eachBit sz groups (fun i gr => .ok (if (indexes m i).isSome then gr.set i else gr)) fun _ => false

/-- The texts of the groups found put into the array. -/
def fillMatched (m : Match) (row : Text) (gr : Bits) : Except Fault (MatchedBits × Nat) :=
  eachBit sz gr (fun i filled => do
    let entry ← filled.1.setMatch filled.2 (row.substr ((indexes m i).getD ⟨0, 0⟩))
    return (entry, filled.2 + 1)) (.make sz gr, 0)

/-- What a round stores. -/
def storeBits (m : Match) (row : Text) : Except Fault (List MatchedBits) := do
  let gr ← foundBits sz groups m
  if (gr.elements sz).isEmpty then return []
  else do
    let filled ← fillMatched sz m row gr
    return [filled.1]

/-- The `while` loop of the overload with a bitset. -/
def roundsBits : Nat → Proc Text (List MatchedBits)
  | 0 => throw .endless
  | fuel + 1 => do
    let row ← get
    match regexec row.cStr with
    | none => return []
    | some m =>
      match storeBits sz groups m row with
      | .error fault => throw fault
      | .ok found => do
        set (row.erase m.so m.len)
        return found ++ (← roundsBits fuel)

/-- `StringMatch::match`, the overload with a bitset. -/
def matchBits : Proc Text (List MatchedBits) := fun row => roundsBits regexec sz groups (row.length + 1) row

/-! ## What an entry holds -/

variable {regexec sz groups} {m : Match} {row : Text}

/-- The groups selected that the match has. -/
def groupsOf (sz : Nat) (groups : Bits) (m : Match) : Bits := fun i => decide (i < sz) && groups i && (indexes m i).isSome

theorem mem_elements {bs : Bits} {i : Nat} : i ∈ bs.elements sz ↔ i < sz ∧ bs i = true := by
  rw [Bits.elements, List.mem_filter, List.mem_range]

theorem foundBits_run (sz : Nat) (groups : Bits) (m : Match) : foundBits sz groups m = .ok (groupsOf sz groups m) := by
  have fold : ∀ (l : List Nat) (gr : Bits),
      l.foldlM (fun gr i => (.ok (if (indexes m i).isSome then gr.set i else gr) : Except Fault Bits)) gr =
        .ok fun j => gr j || (decide (j ∈ l) && (indexes m j).isSome) := by
    intro l
    induction l with
    | nil =>
      intro gr
      simp [pure, Except.pure]
    | cons i l ih =>
      intro gr
      rw [List.foldlM_cons]
      refine (ih (if (indexes m i).isSome then gr.set i else gr)).trans (congrArg Except.ok ?_)
      funext j
      by_cases here : j = i
      · subst here
        cases set : (indexes m j).isSome <;> simp [Bits.set]
      · have other : (j == i) = false := beq_false_of_ne here
        cases set : (indexes m i).isSome <;> simp [Bits.set, here, other]
  rw [foundBits, eachBit_eq, fold]
  refine congrArg Except.ok ?_
  funext j
  simp [groupsOf, mem_elements]

/-- What is stored of a match. -/
def entryOf (sz : Nat) (groups : Bits) (m : Match) (row : Text) : MatchedBits where
  map := groupsOf sz groups m
  texts := ((groupsOf sz groups m).elements sz).map fun i => row.substr ((indexes m i).getD ⟨0, 0⟩)

theorem fillMatched_run (sz : Nat) (m : Match) (row : Text) (gr : Bits) : fillMatched sz m row gr =
    .ok (⟨gr, (gr.elements sz).map fun i => row.substr ((indexes m i).getD ⟨0, 0⟩)⟩, (gr.elements sz).length) := by
  have fold : ∀ (l : List Nat) (done : List Text),
      l.foldlM (fun (filled : MatchedBits × Nat) i => (do
        let entry ← filled.1.setMatch filled.2 (row.substr ((indexes m i).getD ⟨0, 0⟩))
        return (entry, filled.2 + 1) : Except Fault (MatchedBits × Nat))) (⟨gr, done ++ List.replicate l.length []⟩, done.length) =
        .ok (⟨gr, done ++ l.map fun i => row.substr ((indexes m i).getD ⟨0, 0⟩)⟩, done.length + l.length) := by
    intro l
    induction l with
    | nil =>
      intro done
      simp [pure, Except.pure]
    | cons i l ih =>
      intro done
      have put : MatchedBits.setMatch ⟨gr, done ++ List.replicate (i :: l).length []⟩ done.length
          (row.substr ((indexes m i).getD ⟨0, 0⟩)) =
          .ok ⟨gr, (done ++ [row.substr ((indexes m i).getD ⟨0, 0⟩)]) ++ List.replicate l.length []⟩ := by
        rw [MatchedBits.setMatch, MatchedBits.sizeOn, if_pos (by simp)]
        simp [List.replicate_succ]
      rw [List.foldlM_cons]
      dsimp only
      rw [put]
      have rest := ih (done ++ [row.substr ((indexes m i).getD ⟨0, 0⟩)])
      rw [List.length_append, List.length_singleton] at rest
      refine rest.trans ?_
      simp [Nat.add_right_comm _ 1, Nat.add_assoc]
  have whole := fold (gr.elements sz) []
  rw [fillMatched, eachBit_eq]
  simpa [MatchedBits.make] using whole

/-- The entry of a match, if it has a group. -/
def kept (sz : Nat) (groups : Bits) (m : Match) (row : Text) : List MatchedBits :=
  if ((groupsOf sz groups m).elements sz).isEmpty then [] else [entryOf sz groups m row]

theorem storeBits_run (sz : Nat) (groups : Bits) (m : Match) (row : Text) :
    storeBits sz groups m row = .ok (kept sz groups m row) := by
  unfold storeBits kept
  rw [foundBits_run]
  change (if ((groupsOf sz groups m).elements sz).isEmpty then (return []) else do
    let filled ← fillMatched sz m row (groupsOf sz groups m)
    return [filled.1] : Except Fault (List MatchedBits)) = _
  split
  · rfl
  · exact congrArg (fun filled : Except Fault (MatchedBits × Nat) => filled >>= fun x => pure [x.1])
      (fillMatched_run sz m row _)

theorem roundsBits_eq (fuel : Nat) : roundsBits regexec sz groups fuel = loop regexec (kept sz groups) fuel := by
  induction fuel with
  | zero => rfl
  | succ fuel ih =>
    funext row
    rw [roundsBits, loop, Proc.get_bind, Proc.get_bind, ih]
    cases regexec row.cStr with
    | none => rfl
    | some m => simp only [storeBits_run]

/-- As many bits stand before a bit as texts before its text. -/
theorem elements_at {bs : Bits} {g : Nat} (lt : g < sz) (set : bs g = true) :
    (bs.elements sz)[(bs.elements g).length]? = some g := by
  have split : List.range sz = List.range g ++ g :: (List.range (sz - g - 1)).map fun k => g + 1 + k := by
    have parts : sz = g + 1 + (sz - g - 1) := by omega
    conv_lhs => rw [parts, List.range_add, List.range_succ]
    simp
  rw [Bits.elements, split, List.filter_append, List.filter_cons, if_pos set, ← Bits.elements]
  simp

/-- A group read back is the group of the match. -/
theorem read_entry {g : Nat} (lt : g < sz) (selected : groups g = true) : (entryOf sz groups m row).read g =
    match indexes m g with
    | some p => row.substr p
    | none => [] := by
  cases here : indexes m g with
  | none =>
    have unset : groupsOf sz groups m g = false := by simp [groupsOf, here]
    rw [MatchedBits.read, if_neg (by simp [entryOf, unset])]
  | some p =>
    have set : groupsOf sz groups m g = true := by simp [groupsOf, lt, selected, here]
    rw [MatchedBits.read, if_pos (show (entryOf sz groups m row).map g = true from set), List.getD_eq_getElem?_getD]
    change (((groupsOf sz groups m).elements sz).map fun i => row.substr ((indexes m i).getD ⟨0, 0⟩))[
      ((groupsOf sz groups m).elements g).length]?.getD [] = _
    rw [List.getElem?_map, elements_at lt set]
    simp [here]

/-- The bits of a selection of groups. -/
def selection (groups : List Nat) : Bits := fun g => decide (g ∈ groups)

theorem decode_entry {groups : List Nat} (inside : ∀ g ∈ groups, g < sz) :
    (entryOf sz (selection groups) m row).decode groups = extract groups m row :=
  List.map_congr_left fun g mem => read_entry (inside g mem) (by simp [selection, mem])

/-- Some group selected is set in the match. -/
def anyGroup (groups : List Nat) (m : Match) : Bool := groups.any fun g => (indexes m g).isSome

theorem kept_decode {groups : List Nat} (inside : ∀ g ∈ groups, g < sz) :
    (kept sz (selection groups) m row).map (fun e => e.decode groups) = if anyGroup groups m then [extract groups m row] else [] := by
  have some' : ((groupsOf sz (selection groups) m).elements sz).isEmpty = !anyGroup groups m := by
    rw [Bool.eq_iff_iff, List.isEmpty_iff, List.eq_nil_iff_forall_not_mem, Bool.not_eq_true', anyGroup, List.any_eq_false]
    constructor
    · intro none g mem set
      exact none g (mem_elements.2 ⟨inside g mem, by simp [groupsOf, selection, inside g mem, mem, set]⟩)
    · intro none g mem
      obtain ⟨-, set⟩ := mem_elements.1 mem
      simp only [groupsOf, selection, Bool.and_eq_true, decide_eq_true_eq] at set
      exact none g set.1.2 set.2
  rw [kept, some']
  cases anyGroup groups m with
  | false => rfl
  | true => simp [decode_entry inside]

/-- Both overloads cut out the same matches, in the same number of rounds. What the one with a bitset
stores, read back by its bits, is what the one with vectors stores, less the matches without a group. -/
theorem matchers_agree (cutting : Cutting regexec) {groups : List Nat} (inside : ∀ g ∈ groups, g < sz) (row : Text) :
    ∃ (cuts : List (Text × Match)) (left : Text) (entries : List MatchedBits),
      matchVector regexec groups row = .ok (cuts.map fun c => extract groups c.2 c.1) left ∧
      matchBits regexec sz (selection groups) row = .ok entries left ∧
      entries.map (fun e => e.decode groups) =
        (cuts.filter fun c => anyGroup groups c.2).map (fun c => extract groups c.2 c.1) ∧
      (∀ fuel, (∃ found left, rounds regexec groups fuel row = .ok found left) ↔ cuts.length < fuel) ∧
      ∀ fuel, (∃ found left, roundsBits regexec sz (selection groups) fuel row = .ok found left) ↔ cuts.length < fuel := by
  obtain ⟨cuts, left, path⟩ := cuts_exist cutting row
  have ends : ∀ {β : Type} (store : Match → Text → List β) fuel,
      (∃ found left, loop regexec store fuel row = .ok found left) ↔ cuts.length < fuel := by
    intro β store fuel
    constructor
    · rintro ⟨found, left', run⟩
      obtain ⟨cuts', path', lt, -⟩ := loop_iff.1 run
      rw [(path.unique path').1]
      exact lt
    · exact fun lt => ⟨_, left, loop_iff.2 ⟨cuts, path, lt, rfl⟩⟩
  have decoded : ∀ l : List (Text × Match), (l.flatMap fun c => kept sz (selection groups) c.2 c.1).map (fun e => e.decode groups) =
      (l.filter fun c => anyGroup groups c.2).map (fun c => extract groups c.2 c.1) := by
    intro l
    induction l with
    | nil => rfl
    | cons c l ih =>
      rw [List.flatMap_cons, List.map_append, ih, kept_decode inside, List.filter_cons]
      split <;> rfl
  refine ⟨cuts, left, cuts.flatMap fun c => kept sz (selection groups) c.2 c.1, (matchVector_iff cutting).2 ⟨cuts, path, rfl⟩,
    ?_, decoded cuts, ?_, ?_⟩
  · rw [matchBits, roundsBits_eq]
    exact (loop_all_iff cutting).2 ⟨cuts, path, rfl⟩
  · intro fuel
    rw [rounds_eq]
    exact ends _ fuel
  · intro fuel
    rw [roundsBits_eq]
    exact ends _ fuel

/-! ## Entries as lists of groups -/

/-- The bits of an ascending list are its elements. -/
theorem elements_selection {groups : List Nat} (ascending : groups.Pairwise (· < ·)) (inside : ∀ g ∈ groups, g < sz) :
    (selection groups).elements sz = groups := by
  refine @List.Perm.eq_of_pairwise _ (· < ·) _ _ (fun a b _ _ less more => absurd less (Nat.lt_asymm more)) ?_ ascending ?_
  · exact List.pairwise_lt_range.filter _
  · refine (List.perm_ext_iff_of_nodup (List.nodup_range.filter _) (ascending.imp Nat.ne_of_lt)).2 fun g => ?_
    rw [List.mem_filter, List.mem_range]
    exact ⟨fun both => of_decide_eq_true both.2, fun mem => ⟨inside g mem, decide_eq_true mem⟩⟩

/-- The groups selected that the match has, in their order. -/
theorem groupsOf_elements (sz : Nat) (groups : Bits) (m : Match) :
    (groupsOf sz groups m).elements sz = (groups.elements sz).filter fun g => (indexes m g).isSome := by
  rw [Bits.elements, Bits.elements, List.filter_filter]
  refine List.filter_congr fun g mem => ?_
  rw [groupsOf, decide_eq_true (List.mem_range.1 mem), Bool.true_and, Bool.and_comm]

theorem entryOf_toMatched (sz : Nat) (groups : Bits) (m : Match) (row : Text) :
    (entryOf sz groups m row).toMatched sz = extractSet (groups.elements sz) m row := by
  change Matched.mk (((groupsOf sz groups m).elements sz).zip
    (((groupsOf sz groups m).elements sz).map fun i => row.substr ((indexes m i).getD ⟨0, 0⟩))) = _
  rw [groupsOf_elements, extractSet]
  refine congrArg Matched.mk ?_
  induction groups.elements sz with
  | nil => rfl
  | cons g l ih =>
    rw [List.filter_cons, List.filterMap_cons]
    cases here : indexes m g with
    | none => exact ih
    | some p =>
      simp only [Option.isSome_some, if_true, List.map_cons, List.zip_cons_cons, here, Option.getD_some, Option.map_some]
      rw [ih]

/-- What both models of the overload store of a match. -/
theorem kept_toMatched (sz : Nat) (groups : Bits) (m : Match) (row : Text) :
    (kept sz groups m row).map (·.toMatched sz) = stored (groups.elements sz) m row := by
  have same := entryOf_toMatched sz groups m row
  have none : ((groupsOf sz groups m).elements sz).isEmpty = (extractSet (groups.elements sz) m row).found.isEmpty := by
    rw [← same, Bool.eq_iff_iff, List.isEmpty_iff, List.isEmpty_iff]
    change _ ↔ ((groupsOf sz groups m).elements sz).zip (((groupsOf sz groups m).elements sz).map _) = []
    cases (groupsOf sz groups m).elements sz <;> simp
  rw [kept, stored, none]
  split
  · rfl
  · rw [List.map_singleton, same]

theorem loop_map {β γ : Type} (f : β → γ) {store : Match → Text → List β} {store' : Match → Text → List γ}
    (same : ∀ m row, (store m row).map f = store' m row) (fuel : Nat) :
    loop regexec store' fuel = (do return (← loop regexec store fuel).map f) := by
  induction fuel with
  | zero => rfl
  | succ fuel ih =>
    funext row
    rw [loop, loop, bind_assoc, Proc.get_bind, Proc.get_bind, ih]
    cases regexec row.cStr with
    | none => rfl
    | some m =>
      simp only [bind_assoc, pure_bind, List.map_append, same]

/-- The loop over a list of groups is the loop over their bits, its entries read as lists: with the groups
in ascending order, as `get_next` comes to them, and below the size of the bitset. -/
theorem matchSet_eq (regexec : Str → Option Match) {groups : List Nat} (ascending : groups.Pairwise (· < ·))
    (inside : ∀ g ∈ groups, g < sz) (row : Text) :
    matchSet regexec groups row = (do return (← matchBits regexec sz (selection groups)).map (·.toMatched sz) :
      Proc Text (List Matched)) row := by
  have stores : ∀ m row, (kept sz (selection groups) m row).map (·.toMatched sz) = stored groups m row := by
    intro m row
    rw [kept_toMatched, elements_selection ascending inside]
  rw [matchSet, roundsSet_eq, loop_map _ stores]
  refine Proc.bind_congr ?_
  rw [matchBits, roundsBits_eq]

/-- An engine that finds the first letter of any text, with one group that is set and one that is not. -/
def firstLetter (s : Str) : Option Match := if s = [] then none else some ⟨0, 1, [(1, ⟨0, 1⟩)]⟩

theorem firstLetter_cutting : Cutting firstLetter := by
  intro s m found
  unfold firstLetter at found
  split at found
  · cases found
  · rename_i ne
    cases found
    exact ⟨Nat.one_pos, List.length_pos_iff.2 ne⟩

theorem firstLetter_agree : ∃ (cuts : List (Text × Match)) (left : Text) (entries : List MatchedBits),
    matchVector firstLetter [2, 1] (of .client "ab".toList) = .ok (cuts.map fun c => extract [2, 1] c.2 c.1) left ∧
    matchBits firstLetter 3 (selection [2, 1]) (of .client "ab".toList) = .ok entries left ∧
    entries.map (fun e => e.decode [2, 1]) =
      (cuts.filter fun c => anyGroup [2, 1] c.2).map (fun c => extract [2, 1] c.2 c.1) := by
  have inside : ∀ g ∈ [2, 1], g < 3 := by simp
  obtain ⟨cuts, left, entries, vector, bits, decoded, -⟩ := matchers_agree firstLetter_cutting inside (of .client "ab".toList)
  exact ⟨cuts, left, entries, vector, bits, decoded⟩

end StringMatch

end SqlHandler
