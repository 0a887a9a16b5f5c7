import SqlHandler.Outcome

/-!
# Texts and `StringMatch`

A `Text` is a string whose letters carry where they come from. No function of the
program looks at the origin: a comparison, a search or a test is on `str`, the bare
string. `StringMatch::match` takes its row by reference and cuts each match out of it;
here the row is the state. The two overloads differ in how they store the groups.
-/

namespace SqlHandler
open Posix

/-- What a letter of a statement comes from: the dataset, the constraint of the
request, or a literal of the handler. -/
inductive Origin where
  | dataset
  | client
  | literal
  deriving DecidableEq, Repr

structure Letter where
  char : Char
  origin : Origin
  deriving DecidableEq, Repr

abbrev Text := List Letter

namespace Text

/-- The bare string. -/
def str (t : Text) : Str := t.map Letter.char

/-- A string with one origin. -/
def of (origin : Origin) (s : Str) : Text := s.map (⟨·, origin⟩)

/-- A literal of the handler. -/
def lit (s : String) : Text := of .literal s.toList

/-- `substr(so, eo - so)` -/
def substr (t : Text) (p : Span) : Text := (t.drop p.so).take (p.eo - p.so)

/-- `erase(so, len)` -/
def erase (t : Text) (so len : Nat) : Text := t.take so ++ t.drop (so + len)

/-- What `regexec` reads of `c_str()`. -/
def cStr (t : Text) : Str := t.str.takeWhile (· ≠ Char.ofNat 0)

@[simp] theorem str_nil : str [] = [] := rfl

@[simp] theorem str_append (a b : Text) : str (a ++ b) = str a ++ str b := List.map_append

@[simp] theorem str_of (o : Origin) (s : Str) : str (of o s) = s := by
  simp [str, of, Function.comp_def]

@[simp] theorem str_substr (t : Text) (p : Span) : str (substr t p) = p.text (str t) := by
  simp [str, substr, Span.text, List.map_take, List.map_drop]

theorem str_erase (t : Text) (so len : Nat) : str (erase t so len) = (str t).take so ++ (str t).drop (so + len) := by
  simp [str, erase, List.map_take, List.map_drop]

@[simp] theorem str_length (t : Text) : (str t).length = t.length := List.length_map ..

@[simp] theorem str_eq_nil {t : Text} : str t = [] ↔ t = [] := List.map_eq_nil_iff

@[simp] theorem of_nil (o : Origin) : of o [] = [] := rfl

theorem of_append (o : Origin) (a b : Str) : of o (a ++ b) = of o a ++ of o b := List.map_append

theorem cStr_length_le (t : Text) : t.cStr.length ≤ t.length := by
  rw [← str_length t]
  exact (List.takeWhile_sublist _).length_le

/-- Cutting out a match of the row leaves fewer letters. -/
theorem erase_length {t : Text} {m : Match} (h : 0 < m.len ∧ m.so + m.len ≤ t.cStr.length) :
    (t.erase m.so m.len).length < t.length := by
  have le := cStr_length_le t
  simp only [erase, List.length_append, List.length_take, List.length_drop]
  omega

theorem mem_substr {t : Text} {p : Span} {x : Letter} (h : x ∈ substr t p) : x ∈ t :=
  List.mem_of_mem_drop (List.mem_of_mem_take h)

theorem mem_erase {t : Text} {so len : Nat} {x : Letter} (h : x ∈ erase t so len) : x ∈ t := by
  rcases List.mem_append.1 h with h | h
  · exact List.mem_of_mem_take h
  · exact List.mem_of_mem_drop h

theorem origin_of {o : Origin} {s : Str} {x : Letter} (h : x ∈ of o s) : x.origin = o := by
  obtain ⟨c, -, rfl⟩ := List.mem_map.1 h
  rfl

end Text

open Text

/-- `regmatch_t[]` of a match, `none` for `rm_so == -1`. -/
def indexes (m : Match) (g : Nat) : Option Span :=
  if g = 0 then some ⟨m.so, m.so + m.len⟩ else m.group g

/-- One entry of the bitset overload: the groups set in `map`, each with its text. -/
structure Matched where
  found : List (Nat × Text)

namespace Matched

/-- `getMap().test(g)` -/
def test (m : Matched) (g : Nat) : Bool := m.found.any (·.1 == g)

def sizeOn (m : Matched) : Nat := m.found.length

def getMatch {σ : Type} (m : Matched) (i : Nat) : Proc σ Text :=
  match m.found[i]? with
  | some x => return x.2
  | none => Proc.raise .besInternalFatalError "Index out of bounds".toList

end Matched

namespace StringMatch

/-- The loop over the groups asked for, an unset group giving the empty string. -/
def extract (groups : List Nat) (m : Match) (row : Text) : List Text :=
  groups.map fun g => match indexes m g with
    | some p => row.substr p
    | none => []

/-- The loop over the bits of `groups`, with the groups that are set. -/
def extractSet (groups : List Nat) (m : Match) (row : Text) : Matched :=
  ⟨groups.filterMap fun g => (indexes m g).map fun p => (g, row.substr p)⟩

variable (regexec : Str → Option Match) (groups : List Nat)

/-- The `while` loop of the vector overload. -/
def rounds : Nat → Proc Text (List (List Text))
  | 0 => throw .endless
  | fuel + 1 => do
    let row ← get
    match regexec row.cStr with
    | none => return []
    | some m => do
      let found := extract groups m row
      set (row.erase m.so m.len)
      return found :: (← rounds fuel)

/-- `StringMatch::match`, the overload with vectors. A round that cuts nothing finds the
same match again, so there are at most as many others as letters. -/
def matchVector : Proc Text (List (List Text)) := fun row =>
  rounds regexec groups (row.length + 1) row

/-- The `while` loop of the bitset overload. -/
def roundsSet : Nat → Proc Text (List Matched)
  | 0 => throw .endless
  | fuel + 1 => do
    let row ← get
    match regexec row.cStr with
    | none => return []
    | some m => do
      let found := extractSet groups m row
      set (row.erase m.so m.len)
      let rest ← roundsSet fuel
      return if found.found.isEmpty then rest else found :: rest

/-- `StringMatch::match`, the overload with a bitset. -/
def matchSet : Proc Text (List Matched) := fun row =>
  roundsSet regexec groups (row.length + 1) row

/-! ## The matches cut out one after the other -/

/-- The rows searched and what was cut out of each, up to the row without a match. -/
inductive Cuts : Text → List (Text × Match) → Text → Prop where
  | stop {row} (none : regexec row.cStr = none) : Cuts row [] row
  | cut {row m cuts left} (found : regexec row.cStr = some m)
      (rest : Cuts (row.erase m.so m.len) cuts left) : Cuts row ((row, m) :: cuts) left

/-- A match is a non-empty part of its subject. -/
def Cutting : Prop := ∀ s m, regexec s = some m → 0 < m.len ∧ m.so + m.len ≤ s.length

/-- A loop that stores something of each match. -/
def loop {β : Type} (store : Match → Text → List β) : Nat → Proc Text (List β)
  | 0 => throw .endless
  | fuel + 1 => do
    let row ← get
    match regexec row.cStr with
    | none => return []
    | some m => do
      set (row.erase m.so m.len)
      return store m row ++ (← loop store fuel)

variable {regexec groups}

theorem loop_iff {β : Type} {store : Match → Text → List β} {fuel : Nat} {row left : Text} {found : List β} :
    loop regexec store fuel row = .ok found left ↔
      ∃ cuts, Cuts regexec row cuts left ∧ cuts.length < fuel ∧ found = cuts.flatMap fun c => store c.2 c.1 := by
  induction fuel generalizing row found with
  | zero =>
    constructor
    · intro h
      cases h
    · rintro ⟨cuts, -, lt, -⟩
      omega
  | succ fuel ih =>
    cases e : regexec row.cStr with
    | none =>
      have run : loop regexec store (fuel + 1) row = .ok [] row := by
        rw [loop, Proc.get_bind]
        simp only [e]
        rfl
      rw [run]
      constructor
      · intro h
        cases h
        exact ⟨[], .stop e, by simp, rfl⟩
      · rintro ⟨cuts, path, -, rfl⟩
        cases path with
        | stop => rfl
        | cut found => rw [e] at found; cases found
    | some m =>
      have run : loop regexec store (fuel + 1) row =
          (loop regexec store fuel >>= fun rest => pure (store m row ++ rest)) (row.erase m.so m.len) := by
        rw [loop, Proc.get_bind]
        simp only [e]
        rfl
      rw [run]
      constructor
      · intro h
        obtain ⟨rest, t, first, last⟩ := Proc.of_bind_ok h
        cases last
        obtain ⟨cuts, path, lt, rfl⟩ := ih.1 first
        exact ⟨(row, m) :: cuts, .cut e path, by simpa using lt, rfl⟩
      · rintro ⟨cuts, path, lt, rfl⟩
        cases path with
        | stop none => rw [e] at none; cases none
        | cut found rest =>
          rw [e] at found
          cases found
          rw [Proc.bind_ok (ih.2 ⟨_, rest, by simpa using lt, rfl⟩)]
          rfl

theorem rounds_eq (fuel : Nat) :
    rounds regexec groups fuel = loop regexec (fun m row => [extract groups m row]) fuel := by
  induction fuel with
  | zero => rfl
  | succ fuel ih => rw [rounds, loop, ih]; rfl

/-- What the bitset overload stores of a match. -/
def stored (groups : List Nat) (m : Match) (row : Text) : List Matched :=
  if (extractSet groups m row).found.isEmpty then [] else [extractSet groups m row]

theorem roundsSet_eq (fuel : Nat) :
    roundsSet regexec groups fuel = loop regexec (stored groups) fuel := by
  induction fuel with
  | zero => rfl
  | succ fuel ih =>
    rw [roundsSet, loop, ih]
    funext row
    rw [Proc.get_bind, Proc.get_bind]
    cases regexec row.cStr with
    | none => rfl
    | some m =>
      simp only [stored]
      split <;> rfl

theorem Cuts.length_le (cutting : Cutting regexec) {row left : Text} {cuts : List (Text × Match)}
    (path : Cuts regexec row cuts left) : cuts.length ≤ row.length := by
  induction path with
  | stop => simp
  | @cut row m cuts left found rest ih =>
    have shrinks := erase_length (cutting _ _ found)
    simp only [List.length_cons]
    omega

/-- Where matches are never empty, a loop answers with all of them. -/
theorem loop_all_iff {β : Type} (cutting : Cutting regexec) {store : Match → Text → List β} {row left : Text}
    {found : List β} : loop regexec store (row.length + 1) row = .ok found left ↔
      ∃ cuts, Cuts regexec row cuts left ∧ found = cuts.flatMap fun c => store c.2 c.1 := by
  rw [loop_iff]
  constructor
  · rintro ⟨cuts, path, -, e⟩
    exact ⟨cuts, path, e⟩
  · rintro ⟨cuts, path, e⟩
    exact ⟨cuts, path, Nat.lt_succ_of_le (path.length_le cutting), e⟩

theorem matchVector_iff (cutting : Cutting regexec) {row left : Text} {found : List (List Text)} :
    matchVector regexec groups row = .ok found left ↔
      ∃ cuts, Cuts regexec row cuts left ∧ found = cuts.map fun c => extract groups c.2 c.1 := by
  have single : ∀ cuts : List (Text × Match), (cuts.flatMap fun c => [extract groups c.2 c.1]) =
      cuts.map fun c => extract groups c.2 c.1 := fun cuts => by
    induction cuts with
    | nil => rfl
    | cons c cuts ih => rw [List.flatMap_cons, ih]; rfl
  rw [matchVector, rounds_eq, loop_all_iff cutting]
  simp only [single]

theorem matchSet_iff (cutting : Cutting regexec) {row left : Text} {found : List Matched} :
    matchSet regexec groups row = .ok found left ↔
      ∃ cuts, Cuts regexec row cuts left ∧ found = cuts.flatMap fun c => stored groups c.2 c.1 := by
  rw [matchSet, roundsSet_eq, loop_all_iff cutting]

theorem cuts_exist (cutting : Cutting regexec) (row : Text) : ∃ cuts left, Cuts regexec row cuts left := by
  induction h : row.length using Nat.strongRecOn generalizing row with
  | _ n ih =>
    cases e : regexec row.cStr with
    | none => exact ⟨[], row, .stop e⟩
    | some m =>
      have shrinks := erase_length (cutting _ _ e)
      obtain ⟨cuts, left, path⟩ := ih _ (by omega) (row.erase m.so m.len) rfl
      exact ⟨_, left, .cut e path⟩

theorem Cuts.unique {row left left' : Text} {cuts cuts' : List (Text × Match)}
    (path : Cuts regexec row cuts left) (path' : Cuts regexec row cuts' left') :
    cuts = cuts' ∧ left = left' := by
  induction path generalizing cuts' with
  | stop none =>
    cases path' with
    | stop => exact ⟨rfl, rfl⟩
    | cut found => rw [none] at found; cases found
  | cut found rest ih =>
    cases path' with
    | stop none => rw [none] at found; cases found
    | cut found' rest' =>
      rw [found] at found'
      cases found'
      obtain ⟨rfl, rfl⟩ := ih rest'
      exact ⟨rfl, rfl⟩

/-- The letters searched and left over are letters of the row. -/
theorem Cuts.letters {row left : Text} {cuts : List (Text × Match)} (path : Cuts regexec row cuts left) :
    (∀ c ∈ cuts, ∀ x ∈ c.1, x ∈ row) ∧ ∀ x ∈ left, x ∈ row := by
  induction path with
  | stop => exact ⟨by simp, fun _ h => h⟩
  | cut found rest ih =>
    refine ⟨?_, fun x h => mem_erase (ih.2 x h)⟩
    intro c mem x h
    rcases List.mem_cons.1 mem with rfl | mem
    · exact h
    · exact mem_erase (ih.1 c mem x h)

/-- Every row searched had its match. -/
theorem Cuts.found {row left : Text} {cuts : List (Text × Match)} (path : Cuts regexec row cuts left) :
    ∀ c ∈ cuts, regexec c.1.cStr = some c.2 := by
  induction path with
  | stop => simp
  | cut found rest ih =>
    intro c mem
    rcases List.mem_cons.1 mem with rfl | mem
    · exact found
    · exact ih c mem

/-- The letters of an extracted group are letters of the row. -/
theorem mem_extract {m : Match} {row t : Text} {x : Letter} (ht : t ∈ extract groups m row) (hx : x ∈ t) :
    x ∈ row := by
  obtain ⟨g, -, rfl⟩ := List.mem_map.1 ht
  split at hx
  · exact mem_substr hx
  · cases hx

end StringMatch

end SqlHandler
