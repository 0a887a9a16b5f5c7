import SqlHandler.Container.Builder

/-!
# Reading a dataset

`SQLTextContainer::read` and the functions it calls. The scan runs over the rows of the
file; its state holds the members of the container and the local variables of `read`.
`reading_part` is not initialised, so the value it starts with is a parameter.
-/

namespace SqlHandler
open Posix Text Stl

/-- `_SQLH_DATASET_PARTS` -/
inductive DatasetPart where
  | sectionTag | api | server | port | dbname | user | pass | selectTag | fromTag | whereTag | otherTag
  deriving DecidableEq, Repr

/-- `std::bitset<_SQLH_DATASET_PARTS_NUM>` -/
abbrev Completion := DatasetPart → Bool

def Completion.empty : Completion := fun _ => false

/-- `set(part, b)` -/
def Completion.put (c : Completion) (part : DatasetPart) (b : Bool) : Completion :=
  fun p => if p = part then b else c p

/-- `std::map<string, string>` with the definitions of variables. -/
abbrev Vars := SearchTree (Str × Str)

/-- The members of the container that a scan uses. -/
structure SQLTextContainer where
  whereBuf : Text
  attributeBuf : Text
  dataset : List DatasetSection

/-- A container that has read nothing. -/
def SQLTextContainer.fresh : SQLTextContainer := ⟨[], [], []⟩

/-- `SQLH_DATASET_SECTION()` -/
def DatasetSection.blank : DatasetSection :=
  ⟨[], [], [], [], [], [], ⟨.leaf, [], .leaf⟩, .leaf⟩

/-- The container and the local variables of `read`. -/
structure Reading extends SQLTextContainer where
  start : Bool
  newSection : DatasetSection
  complete : Completion
  readingPart : DatasetPart
  vars : Vars

/-- What `regexec` reads of `row.c_str()`. -/
def rowStr (row : Str) : Str := row.takeWhile (· ≠ Char.ofNat 0)

namespace Reading

def setPart (r : Reading) (part : DatasetPart) : Reading := { r with readingPart := part }

def mark (r : Reading) (part : DatasetPart) : Reading := { r with complete := r.complete.put part true }

def setSection (r : Reading) (s : DatasetSection) : Reading := { r with newSection := s }

def putSelect (r : Reading) (select : SQLAttributeSetByName) : Reading :=
  r.setSection { r.newSection with query := { r.newSection.query with select } }

end Reading

/-- A row appended to a part: `" " + row`. -/
def rowText (row : Str) : Text := of .dataset (' ' :: row)

/-- `requirements` -/
def requirements : List DatasetPart := [.sectionTag, .api, .server, .selectTag, .fromTag]

namespace SQLTextContainer
variable (rt : Runtime)

/-! ## Sections -/

/-- The `where` part of `addNewSection`. -/
def addWhere : Proc Reading Unit := do
  if (← get).complete .whereTag then do
    let cs ← Proc.zoom (fun r => r.whereBuf) (fun r t => { r with whereBuf := t }) (SQLQuery.loadConstraints rt.shape)
    modify fun r => { r.setSection (r.newSection.setWhere cs) with whereBuf := [] }
    if (← get).newSection.whereSet.toList.isEmpty then
      modify fun r => { r with complete := r.complete.put .whereTag false }

/-- The `select` part of `addNewSection`. -/
def addSelect : Proc Reading Unit := do
  if (← get).complete .selectTag then do
    let as ← Proc.zoom (fun r => r.attributeBuf) (fun r t => { r with attributeBuf := t }) (SQLQuery.loadAttributes rt.shape)
    modify fun r => { r.putSelect as with attributeBuf := [] }
    if (← get).newSection.query.select.toList.isEmpty then
      modify fun r => { r with complete := r.complete.put .selectTag false }

/-- `addNewSection` -/
def addNewSection : Proc Reading Unit := do
  addWhere rt
  addSelect rt
  if requirements.all (← get).complete then
    modify fun r => { r with dataset := r.dataset ++ [r.newSection] }
  else Proc.raise .besError "SQL Handler: Unable to complete dataset scan. Section has missing elements.".toList

/-- `partTracking` -/
def partTracking (tag : Str) : Proc Reading Unit := do
  if tag = "[section]".toList then do
    if (← get).start then modify fun r => { r with start := false }
    else do
      addNewSection rt
      modify fun r => { r with complete := .empty, newSection := .blank }
    modify fun r => r.setPart .sectionTag
  else if tag = "[select]".toList then modify fun r => r.setPart .selectTag
  else if tag = "[from]".toList then modify fun r => r.setPart .fromTag
  else if tag = "[where]".toList then modify fun r => r.setPart .whereTag
  else if tag = "[other]".toList then modify fun r => r.setPart .otherTag
  else return ()

/-! ## Variables -/

/-- `defineVariable` -/
def defineVariable (row : Str) (m : Match) : Proc Reading Unit :=
  match m.group 1, m.group 2 with
  | some key, some val => do
    let var := key.text row
    let value := val.text row
    if var = value then
      Proc.raise .besError ("SQL Handler: Unable to define variable with its declaration: ".toList ++ row)
    else modify fun r => { r with vars := insert rt.shape (byKey Prod.fst) (var, value) r.vars }
  | _, _ => Proc.raise .besInternalError ("SQLTextContainer: row doesn't contain a valid variable definition: ".toList ++ row)

/-- `variableSubstitution` -/
def variableSubstitution (vars : Vars) (row : Str) (m : Match) : Except Fault Str :=
  match m.group 1 with
  | none => .error (.error ⟨.besInternalError, "SQLTextContainer: row doesn't match->".toList ++ row⟩)
  | some key =>
    match find (byKey Prod.fst) (key.text row, []) vars with
    | some (_, value) => .ok (row.take key.so ++ value ++ (row.drop key.eo).take (key.eo - key.so))
    | none => .error (.error ⟨.besInternalError, "SQLTextContainer: Variable not defined: ".toList ++ key.text row⟩)

/-- The `while` loop over the variables of a row. -/
def substituteAll (vars : Vars) : Nat → Str → Except Fault Str
  | 0, _ => .error .endless
  | fuel + 1, row =>
    match regexec regVar (rowStr row) with
    | none => .ok row
    | some m => do substituteAll vars fuel (← variableSubstitution vars row m)

/-- The loop has a round for each `$` at most, as no value holds one. -/
def substituteRow (vars : Vars) (row : Str) : Except Fault Str :=
  substituteAll vars (row.count '$' + 1) row

/-! ## Rows -/

/-- A row appended to the part being read, `[select]`, `[from]` or `[where]`. -/
def appendRow (row : Str) (part : DatasetPart) (r : Reading) : Reading :=
  match part with
  | .selectTag => { r with attributeBuf := r.attributeBuf ++ rowText row }.mark .selectTag
  | .fromTag =>
    (r.setSection { r.newSection with query := { r.newSection.query with
      fromText := r.newSection.query.fromText ++ rowText row } }).mark .fromTag
  | .whereTag => { r with whereBuf := r.whereBuf ++ rowText row }.mark .whereTag
  | _ => r

/-- The error of a free form row in the `[section]` part. -/
def freeFormFault (row : Str) : Fault := .error ⟨.besError,
  "SQLTextContainer: free form lines in section part are not permitted. Error on row: ".toList ++ row⟩

/-- The error of a key that is not reserved. -/
def reservedFault (row : Str) : Fault := .error ⟨.besError,
  "SQL Handler: Only reserved keywords are allowed in the 'section' part of the dataset file. \n".toList ++
    ("The line where the error occurred: ".toList ++ row)⟩

/-- `addFreeForm` -/
def addFreeForm (row : Str) : Proc Reading Unit := do
  match (← get).readingPart with
  | .otherTag => return ()
  | .sectionTag => throw (freeFormFault row)
  | part => modify (appendRow row part)

/-- The `[section]` branch of `addKeyValue`. -/
def addParameter (row key val : Str) : Proc Reading Unit := do
  let s := (← get).newSection
  if key = "api".toList then do
    modify fun r => (r.setSection { s with api := val }).mark .api
    if (← get).complete .server then modify fun r => r.mark .sectionTag
  else if key = "server".toList then do
    modify fun r => (r.setSection { s with server := val }).mark .server
    if (← get).complete .api then modify fun r => r.mark .sectionTag
  else if key = "port".toList then modify fun r => (r.setSection { s with port := val }).mark .port
  else if key = "dbname".toList then modify fun r => (r.setSection { s with dbname := val }).mark .dbname
  else if key = "user".toList then modify fun r => (r.setSection { s with user := val }).mark .user
  else if key = "pass".toList then modify fun r => (r.setSection { s with pass := val }).mark .pass
  else throw (reservedFault row)

/-- `addKeyValue` -/
def addKeyValue (row : Str) (m : Match) : Proc Reading Unit :=
  match m.group 1, m.group 2 with
  | some k, some v => do
    let key := k.text row
    let val := v.text row
    match (← get).readingPart with
    | .sectionTag => addParameter row key val
    | .otherTag => modify fun r => (r.setSection { r.newSection with
        other := insert rt.shape (byKey Prod.fst) (key, val) r.newSection.other }).mark .otherTag
    | part => modify (appendRow row part)
  | _, _ => Proc.raise .besInternalError ("SQLTextContainer: row doesn't match->".toList ++ row)

/-- A row without a comment, a definition or a tag. -/
def addRow (row : Str) : Proc Reading Unit := do
  let row ← Proc.lift (substituteRow (← get).vars row)
  match regexec regKeyVal (rowStr row) with
  | some m => addKeyValue rt row m
  | none => addFreeForm row

/-- One round of the loop over the rows. -/
def readRow (row : Str) : Proc Reading Unit :=
  if row = [] then return ()
  else match regexec regComments (rowStr row) with
    | some _ => return ()
    | none => match regexec regDefVar (rowStr row) with
      | some m => defineVariable rt row m
      | none => match regexec regTags (rowStr row) with
        | some m => partTracking rt (((m.group 1).getD ⟨0, 0⟩).text row)
        | none => addRow rt row

/-- The loop over the rows. -/
def readRows : List Str → Proc Reading Unit
  | [] => return ()
  | row :: rows => do
    readRow rt row
    readRows rows

/-- The scan of the rows and what follows it. -/
def scan (rows : List Str) : Proc Reading Bool := do
  readRows rt rows
  if (← get).start then return false
  else do
    addNewSection rt
    return true

/-- The state in which a scan starts. -/
def begin (unset : DatasetPart) (c : SQLTextContainer) : Reading :=
  { c with start := true, newSection := .blank, complete := .empty, readingPart := unset, vars := .leaf }

/-- `read`, on the content of the file if it can be opened. -/
def read (unset : DatasetPart) (file : Option Str) : Proc SQLTextContainer Bool := fun c =>
  match file with
  | none => .error (.error ⟨.besInternalError, "Cannot open accessed file!".toList⟩) c
  | some text =>
    match scan rt (text.splitOn '\n') (begin unset c) with
    | .ok b r => .ok b r.toSQLTextContainer
    | .error fault r => .error fault r.toSQLTextContainer

end SQLTextContainer

end SqlHandler
