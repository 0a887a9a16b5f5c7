import SqlHandler.Handler.Actions

/-!
# The builders

`sql_build_das`, `sql_build_dds` and `sql_build_data`, on any connector: `BuilderCalls` are the
calls they make of it. The three loops walk the columns with `nextType`, which moves the cursor
itself; for a NULL type the DDS and DATA loops move it once more and the DAS loop does not.
-/

namespace SqlHandler
open Posix

/-- The calls of a builder on its connector, on the actions over it and on its response `ρ`. -/
structure BuilderCalls (σ ρ : Type) where
  server : Str
  realName : Str
  /-- The cast of the response object to the class the builder writes. -/
  requireResponse : Str → Proc σ Unit
  connect : Proc σ Unit
  query : Proc σ Unit
  reset : Proc σ Unit
  getCols : σ → Nat
  nextType : Proc σ (Option BaseType)
  getColDesc : Nat → Proc σ Str
  setNext : Proc σ Nat
  close : Proc σ Unit
  /-- A call on the response object. -/
  respond : (ρ → Except Fault ρ) → Proc σ Unit

namespace BuilderCalls
variable {σ : Type} (L : Libdap)

/-! ## DAS -/

section Das
variable (c : BuilderCalls σ L.DAS)

/-- The body of the loop of `sql_build_das`. -/
def dasColumn (i : Nat) : Proc σ Unit := do
  match ← c.nextType with
  | some bt =>
    let desc ← c.getColDesc i
    c.respond (L.appendDas c.server bt.name "String".toList ("\"".toList ++ desc ++ "\"".toList))
  | none => c.respond (L.appendDas c.server defaultDasName defaultDasType defaultDasVal)

/-- `for (size_t i = 0; i < connector.getCols(); i++)`, `left` columns to go. -/
def dasColumns : Nat → Nat → Proc σ Unit
  | _, 0 => pure ()
  | i, left + 1 => do
    dasColumn L c i
    dasColumns (i + 1) left

/-- `SQLBuildDAS::sql_build_das` -/
def sqlBuildDas : Proc σ Bool := do
  c.requireResponse "Unable to get DASResponse object".toList
  c.connect
  c.query
  c.respond fun das => .ok (L.openTable c.server das)
  c.reset
  dasColumns L c 0 (c.getCols (← get))
  c.close
  return true

end Das

/-! ## DDS and DATA -/

section Dds
variable (c : BuilderCalls σ L.DDS)

/-- The body of the loops of `sql_build_dds` and `sql_build_data`, on the variables of the sequence. -/
def ddsColumn (dummy : Str) (i : Nat) (seq : List SeqVar) : Proc σ (List SeqVar) := do
  match ← c.nextType with
  | some bt =>
    let desc ← c.getColDesc i
    c.respond (L.appendDds bt.name bt.typeName desc)
    return seq ++ [.column bt]
  | none =>
    let _ ← c.setNext
    c.respond (L.appendDds defaultDasName defaultDasType defaultDasVal)
    return seq ++ [.placeHolder dummy]

def ddsColumns (dummy : Str) : Nat → Nat → List SeqVar → Proc σ (List SeqVar)
  | _, 0, seq => return seq
  | i, left + 1, seq => do
    let seq' ← ddsColumn L c dummy i seq
    ddsColumns dummy (i + 1) left seq'

end Dds

/-- `name.substr(name.find_last_of('/') + 1)` -/
def baseName (name : Str) : Str := (name.reverse.takeWhile (· != '/')).reverse

/-- `sql_build_dds` and `sql_build_data`, but for their messages and what a place-holder reads. -/
def buildSequence (misfit dummy : Str) (c : BuilderCalls σ L.DDS) : Proc σ Bool := do
  c.connect
  c.query
  c.requireResponse misfit
  c.reset
  let seq ← ddsColumns L c dummy 0 (c.getCols (← get)) []
  c.reset
  c.respond fun dds => .ok (L.setDatasetName (baseName c.realName) (L.addVar c.server seq dds))
  return true

/-- `SQLBuildDDS::sql_build_dds` -/
def sqlBuildDds : BuilderCalls σ L.DDS → Proc σ Bool :=
  buildSequence L "SQLBuildDDS: Unable to get DDSResponse object".toList defaultDasVal

/-- `SQLBuildDATA::sql_build_data` -/
def sqlBuildData : BuilderCalls σ L.DDS → Proc σ Bool :=
  buildSequence L "SQLBuildDATA: Unable to get DataDDSResponse object".toList defaultDasName

end BuilderCalls

/-- The commands with a builder: `get.das`, `get.dds` and `get.dods`. -/
inductive Command where
  | das
  | dds
  | data
  deriving DecidableEq, Repr

namespace Command

/-- The response object a command fills. -/
def Response (L : Libdap) : Command → Type
  | das => L.DAS
  | dds => L.DDS
  | data => L.DDS

/-- The builder of a command. -/
def sqlBuild {σ : Type} (L : Libdap) : (command : Command) → BuilderCalls σ (command.Response L) → Proc σ Bool
  | das, c => BuilderCalls.sqlBuildDas L c
  | dds, c => BuilderCalls.sqlBuildDds L c
  | data, c => BuilderCalls.sqlBuildData L c

end Command

/-! ## On a backend -/

namespace Job
variable {ρ : Type}

def respond (f : ρ → Except Fault ρ) : Proc (Job ρ) Unit := fun j =>
  match f j.response with
  | .ok response => .ok () { j with response }
  | .error fault => .error fault j

def requireResponse (b : Backend) (misfit : Str) : Proc (Job ρ) Unit :=
  if b.responseFits then return () else Proc.raise .besInternalFatalError misfit

/-- A builder's calls on a backend. -/
def calls (b : Backend) : BuilderCalls (Job ρ) ρ where
  server := b.server
  realName := b.realName
  requireResponse := requireResponse b
  connect := connect b
  query := query b
  reset := reset
  getCols j := j.cursor.columns
  nextType := nextType b
  getColDesc i := answer (b.getColDesc i)
  setNext := setNext
  close := closeAction b
  respond := respond

/-! ## The type of one column -/

/-- What a type action does with the cursor it is called on. -/
inductive Outcome where
  /-- A variable of this type is made and the cursor moves on. -/
  | made (typeName : Str)
  /-- NULL, and the cursor stays. -/
  | before
  /-- NULL, and the cursor moves on. -/
  | after
  /-- An error that ends the builder. -/
  | fatal
  deriving DecidableEq, Repr

/-- An error of the handler's own that `nextType` answers with NULL. -/
def absorbed : Fault → Bool
  | .error ⟨.sqlInternalError, _⟩ => true
  | _ => false

/-- A fault that is an exception. -/
def Thrown : Fault → Prop
  | .error _ => True
  | .foreign _ => True
  | _ => False

/-- The error checks of `nextType` on the cursor `c`. -/
def checks (b : Backend) (c : Cursor) (rows : Nat) (next : Cursor) : Except Fault Unit :=
  match b.errorFactory with
  | some trigger => nextTypeChecks trigger c.columnPosition rows next.notEnd
  | none => .ok ()

/-- What `nextType` does on the cursor `c`. -/
def outcome (b : Backend) (c : Cursor) : Outcome :=
  match SQLTypeManager.doActions (b.types c.columnPosition), c.setNext 1 with
  | .error fault, _ => if absorbed fault then .before else .fatal
  | .ok _, .error _ => .fatal
  | .ok bt, .ok (rows, next) =>
    match checks b c rows next, bt with
    | .error fault, _ => if absorbed fault then .after else .fatal
    | .ok _, some typeName => .made typeName
    | .ok _, none => .after

/-- The cursor after `setNext()`, the same if the call does not return. -/
def advance (c : Cursor) : Cursor :=
  match c.setNext 1 with
  | .ok (_, next) => next
  | .error _ => c

def moved (j : Job ρ) : Job ρ := { j with cursor := advance j.cursor }

theorem catchFault_ok {α : Type} {x : Proc (Job ρ) α} {handle : Fault → Proc (Job ρ) α} {j j' : Job ρ} {a : α}
    (h : x j = .ok a j') : catchFault x handle j = .ok a j' := by
  unfold catchFault
  rw [h]

/-- The catch clauses turn an error of the handler's own into NULL and end on every other, the connector closed. -/
theorem nextType_error {b : Backend} {j j' : Job ρ} {fault : Fault} (h : nextTypeTry b j = .error fault j') :
    if absorbed fault then nextType b j = .ok none j'
    else ∃ fault' j'', nextType b j = .error fault' j'' ∧ j''.response = j'.response ∧
      (Thrown fault' → j''.closed = true) := by
  unfold nextType catchFault
  rw [h]
  cases fault with
  | error e =>
    obtain ⟨kind, message⟩ := e
    cases kind <;> first | exact rfl | exact ⟨_, _, rfl, rfl, fun _ => rfl⟩
  | foreign what => exact ⟨_, _, rfl, rfl, fun _ => rfl⟩
  | undefined => exact ⟨_, _, rfl, rfl, False.elim⟩
  | endless => exact ⟨_, _, rfl, rfl, False.elim⟩
  | terminated => exact ⟨_, _, rfl, rfl, False.elim⟩

/-- The `try` block, step by step. -/
theorem nextTypeTry_eq (b : Backend) (j : Job ρ) :
    nextTypeTry b j = match SQLTypeManager.doActions (b.types j.cursor.columnPosition), j.cursor.setNext 1 with
      | .error fault, _ => .error fault j
      | .ok _, .error fault => .error fault j
      | .ok bt, .ok (rows, next) =>
        match checks b j.cursor rows next with
        | .error fault => .error fault { j with cursor := next }
        | .ok _ => .ok (bt.map (b.newType j.cursor.columnPosition)) { j with cursor := next } := by
  unfold nextTypeTry checks
  rw [Proc.bind_ok (rfl : (get : Proc (Job ρ) _) j = .ok j j)]
  cases types : SQLTypeManager.doActions (b.types j.cursor.columnPosition) with
  | error fault => rfl
  | ok bt =>
    have first : (answer (.ok bt) : Proc (Job ρ) _) j = .ok bt j := rfl
    rw [Proc.bind_ok first]
    cases step : j.cursor.setNext 1 with
    | error fault =>
      have second : (setNext : Proc (Job ρ) Nat) j = .error fault j := by
        unfold setNext
        rw [step]
      rw [Proc.bind_error second]
    | ok move =>
      obtain ⟨rows, next⟩ := move
      have second : (setNext : Proc (Job ρ) Nat) j = .ok rows { j with cursor := next } := by
        unfold setNext
        rw [step]
      rw [Proc.bind_ok second]
      cases b.errorFactory with
      | none => rfl
      | some trigger =>
        change ((answer (nextTypeChecks trigger j.cursor.columnPosition rows next.notEnd) >>= fun _ =>
          pure (bt.map (b.newType j.cursor.columnPosition))) : Proc (Job ρ) _) { j with cursor := next } = _
        cases check : nextTypeChecks trigger j.cursor.columnPosition rows next.notEnd with
        | error fault =>
          simp only [check]
          rfl
        | ok u =>
          simp only [check]
          rfl

/-- `nextType` returns what its outcome says, on the cursor the outcome leaves. -/
theorem nextType_eq (b : Backend) (j : Job ρ) :
    match outcome b j.cursor with
    | .made typeName => nextType b j = .ok (some (b.newType j.cursor.columnPosition typeName)) j.moved
    | .before => nextType b j = .ok none j
    | .after => nextType b j = .ok none j.moved
    | .fatal => ∃ fault j', nextType b j = .error fault j' ∧ j'.response = j.response ∧
        (Thrown fault → j'.closed = true) := by
  have tried := nextTypeTry_eq b j
  unfold outcome moved advance
  cases types : SQLTypeManager.doActions (b.types j.cursor.columnPosition) with
  | error fault =>
    rw [types] at tried
    have caught := nextType_error tried
    cases a : absorbed fault with
    | true => simpa [a] using caught
    | false => simpa [a] using caught
  | ok bt =>
    cases step : j.cursor.setNext 1 with
    | error fault =>
      rw [types, step] at tried
      have caught := nextType_error tried
      obtain rfl := Cursor.setNext_error step
      exact caught
    | ok move =>
      obtain ⟨rows, next⟩ := move
      simp only [types, step] at tried
      cases check : checks b j.cursor rows next with
      | error fault =>
        rw [check] at tried
        have caught := nextType_error tried
        cases a : absorbed fault with
        | true => simpa [a, check] using caught
        | false => simpa [a, check] using caught
      | ok u =>
        rw [check] at tried
        have done : nextType b j = .ok (bt.map (b.newType j.cursor.columnPosition)) { j with cursor := next } :=
          catchFault_ok tried
        cases bt with
        | none => simpa [check] using done
        | some typeName => simpa [check] using done

/-! ## One column -/

/-- The variable a column adds to the sequence. -/
def seqVar (b : Backend) (dummy : Str) (c : Cursor) : SeqVar :=
  match outcome b c with
  | .made typeName => .column (b.newType c.columnPosition typeName)
  | _ => .placeHolder dummy

/-- The name a column adds to the DAS. -/
def dasName (b : Backend) (c : Cursor) : Str :=
  match outcome b c with
  | .made _ => b.getColName c.columnPosition
  | _ => defaultDasName

/-- The cursor the DDS and DATA loops leave behind a column. -/
def ddsNext (b : Backend) (c : Cursor) : Cursor :=
  match outcome b c with
  | .after => advance (advance c)
  | _ => advance c

/-- The cursor the DAS loop leaves behind a column. -/
def dasNext (b : Backend) (c : Cursor) : Cursor :=
  match outcome b c with
  | .before => c
  | _ => advance c

end Job

end SqlHandler
