import SqlHandler.Outcome
import Mathlib.Algebra.Order.Group.Unbundled.Int

/-!
# Cached containers

`SQLContainer`, its volatile storage and `SQLContainerFactory::getContainer`. A request
runs while others write the files: before each access to a file, what has landed since is
a `Tick` of the schedule. `inSetup` holds the ticks between the `read()` and the `stat()`
of a `setup()`, `schedule` those before every other access.
-/

namespace SqlHandler
open Posix

/-! ## Files -/

/-- A state of a file. -/
structure Version where
  content : Str
  mtime : Int
  deriving DecidableEq, Repr

/-- The versions of each file, the current one first; none for a file that is not there. -/
abbrev Disk := Str → List Version

/-- A modification: a new content with a larger modification time. -/
structure Edit where
  name : Str
  version : Version

namespace Disk

/-- A version no newer than the current one is no modification. -/
def modify (disk : Disk) (e : Edit) : Disk := fun name =>
  if name = e.name then
    match disk name with
    | [] => [e.version]
    | current :: old => if current.mtime < e.version.mtime then e.version :: current :: old else current :: old
  else disk name

/-- Modifications one after the other. -/
def modifyAll (disk : Disk) (edits : List Edit) : Disk := edits.foldl modify disk

end Disk

/-- What happens before an access: modifications, and the local time meanwhile. -/
structure Tick where
  edits : List Edit
  clock : Int

/-! ## Containers -/

/-- `SQLContainer`, over the sections of the implementing class. -/
structure SQLContainer (σ : Type) where
  symbolicName : Str
  realName : Str
  containerType : Str
  attributes : Str
  constraint : Str
  sections : List σ
  time : Int
  isReady : Bool

/-- What the containers of a server live in. -/
structure World (σ : Type) where
  disk : Disk
  /-- The containers of `BESContainerStorageVolatile`. -/
  store : List (SQLContainer σ)
  schedule : List Tick
  inSetup : List Tick
  clock : Int

namespace World
variable {σ : Type}

/-- A tick passes. -/
def pass (w : World σ) (tick : Tick) : World σ :=
  { w with disk := w.disk.modifyAll tick.edits, clock := tick.clock }

/-- The world at the next access to a file. -/
def next (w : World σ) : World σ :=
  match w.schedule with
  | [] => w
  | tick :: later => { w with schedule := later }.pass tick

/-- Time passes before an access to a file. -/
def wait : Proc (World σ) Unit := modify next

/-- Time passes between the `read()` and the `stat()` of a `setup()`. -/
def waitInSetup : Proc (World σ) Unit := modify fun w =>
  match w.inSetup with
  | [] => w
  | tick :: later => { w with inSetup := later }.pass tick

/-- `stat`: the modification time of a file that is there. -/
def stat (name : Str) : Proc (World σ) (Option Int) := do
  return ((← get).disk name).head?.map Version.mtime

/-! ### The storage -/

/-- `BESContainerStorageVolatile::add_container` -/
def addContainer (c : SQLContainer σ) : Proc (World σ) Unit :=
  modify fun w => { w with store := c :: w.store }

/-- `BESContainerStorageVolatile::del_container` -/
def delContainer (name : Str) : Proc (World σ) Bool := do
  let w ← get
  set { w with store := w.store.filter fun c => c.symbolicName ≠ name }
  return w.store.any fun c => c.symbolicName = name

end World

/-- `_SQLH_CONT_TIME_DIF`, in seconds. -/
def contTimeDif : Int := 10

/-- `throw(BESError)` -/
def anyBESError (_kind : ErrorKind) : Bool := true

/-- `throw(BESInternalError)`; of the other classes none derives from `BESInternalError`. -/
def besInternalErrorOnly (kind : ErrorKind) : Bool := kind == .besInternalError

/-- What the implementing class and the libraries bring. -/
structure ContainerClass (σ : Type) where
  /-- The body of `read()` on the content of the file: the sections, `none` for the answer `false`. -/
  read : Str → Except Fault (Option (List σ))
  /-- `BESError` derives from `std::exception`; then this is its `what()`. -/
  besErrorWhat : Option (BESError → Str)

namespace SQLContainer
variable {σ : Type} (cls : ContainerClass σ)
open World

/-- `SQLContainer::init` -/
def init (c : SQLContainer σ) : Proc (World σ) (SQLContainer σ) := do
  match ← stat c.realName with
  | some mtime => return { c with time := mtime }
  | none => return { c with time := (← get).clock }

/-- `SQLContainer::isUpToDate` -/
def isUpToDate (c : SQLContainer σ) : Proc (World σ) Bool := do
  wait
  match ← stat c.realName with
  | some mtime => return |c.time - mtime| < contTimeDif
  | none => return false

/-- `SQLContainer::setup`, its answer being the status of the container. -/
def setup (c : SQLContainer σ) : Proc (World σ) (SQLContainer σ) := do
  wait
  match ((← get).disk c.realName).head? with
  | none => Proc.raise .besInternalError "Cannot open accessed file!".toList
  | some current =>
    match cls.read current.content with
    | .error fault => throw (fault.specified anyBESError)
    | .ok none => return { c with sections := [], isReady := false }
    | .ok (some sections) => do
      waitInSetup
      let c ← init { c with sections }
      return { c with isReady := true }

/-- The copy constructor, by `ptr_duplicate`. -/
def ptrDuplicate (c : SQLContainer σ) : Proc (World σ) (SQLContainer σ) := do
  if c.isReady then
    return { c with isReady := ← isUpToDate c }
  else return c

end SQLContainer

namespace SQLContainerStorageVolatile
variable {σ : Type} (cls : ContainerClass σ)
open World SQLContainer

/-- `BESContainerStorageVolatile::look_for` -/
def besLookFor (name : Str) : Proc (World σ) (Option (SQLContainer σ)) := do
  match (← get).store.find? fun c => c.symbolicName = name with
  | some c => return some (← ptrDuplicate c)
  | none => return none

/-- `SQLContainerStorageVolatile::update` -/
def update (c : SQLContainer σ) : Proc (World σ) Bool := do
  let ret ← delContainer c.symbolicName
  addContainer c
  return ret

/-- `SQLContainerStorageVolatile::look_for` -/
def lookFor (name : Str) : Proc (World σ) (Option (SQLContainer σ)) := do
  match ← besLookFor name with
  | none => return none
  | some c =>
    if c.isReady then return some c
    else do
      let c ← setup cls c
      if c.isReady then do
        let copy ← ptrDuplicate c
        let _ ← update copy
        return some c
      else Proc.raise .besInternalError "SQLContainerStorage: Failed to rebuild sql dataset".toList

end SQLContainerStorageVolatile

/-- `dhi.container`: a container of the server, or one of this handler, which the factory
named by its real name. -/
inductive BESContainer (σ : Type) where
  | plain (symbolicName realName containerType attributes constraint : Str)
  | sql (c : SQLContainer σ) (named : c.symbolicName = c.realName)

namespace SQLContainerFactory
variable {σ : Type} (cls : ContainerClass σ)
open World SQLContainer SQLContainerStorageVolatile

/-- `SQLContainerFactory::getName` -/
def getName (_name realName _type : Str) : Str := realName

/-- `selectContainer`: the constructor of the implementing class, which runs `setup()`. -/
def selectContainer (name realName type : Str) : Proc (World σ) (SQLContainer σ) := do
  let c ← setup cls ⟨name, realName, type, [], [], [], 0, false⟩
  if c.isReady then return c
  else Proc.raise .besInternalError "SQLTextContainer: Failed to setup sql dataset".toList

/-- `SQLContainerFactory::buildContainer` -/
def buildContainer (symbolicName realName containerType attributes constraint : Str) :
    Proc (World σ) (SQLContainer σ) := Proc.throwOnly besInternalErrorOnly do
  let c ← selectContainer cls (getName symbolicName realName containerType) realName containerType
  let c := { c with attributes, constraint }
  if c.isReady then return c
  else do
    let c ← setup cls c
    if c.isReady then return c
    else Proc.raise .besInternalError "SQLContainerFactory: Failed to setup sql dataset".toList

/-- `catch (std::exception &e)` -/
def caught (fault : Fault) : Fault :=
  match fault, cls.besErrorWhat with
  | .foreign (some what), _ => .error ⟨.besInternalError, what⟩
  | .error e, some what => .error ⟨.besInternalError, what e⟩
  | fault, _ => fault

/-- The `try` block of `getContainer`. -/
def addBuilt (symbolicName realName containerType attributes constraint : Str) :
    Proc (World σ) (SQLContainer σ) := fun w =>
  match (do
    let c ← buildContainer cls symbolicName realName containerType attributes constraint
    let copy ← ptrDuplicate c
    addContainer copy
    return c : Proc (World σ) (SQLContainer σ)) w with
  | .ok c w' => .ok c w'
  | .error fault w' => .error (caught cls fault) w'

/-- `SQLContainerFactory::getContainer`, with persistence set. -/
def getContainer : Option (BESContainer σ) → Proc (World σ) (Option (SQLContainer σ))
  | none => return none
  | some (.sql c _) =>
    if c.isReady then return some c
    else do
      let c ← setup cls c
      if c.isReady then do
        let copy ← ptrDuplicate c
        let _ ← update copy
        return some c
      else Proc.raise .besInternalError "SQLContainerFactory: Failed to rebuild sql dataset".toList
  | some (.plain symbolicName realName containerType attributes constraint) => do
    match ← lookFor cls (getName symbolicName realName containerType) with
    | some c => return some { c with attributes, constraint }
    | none => return some (← addBuilt cls symbolicName realName containerType attributes constraint)

end SQLContainerFactory

end SqlHandler
