import SqlHandler.Container.Definitions
import SqlHandler.Utils.StringMatch
import SqlHandler.Stl.Set
import Mathlib.Data.Char
import Mathlib.Data.List.Lex

/-!
# Attributes, constraints and `SQLQuery`

`SQLAttribute.h`, `SQLConstraint.h` and `SQLQuery.cc`. Strings are compared letter by
letter as `std::string::compare` does. A function that takes a string by reference runs
on it as its state, which keeps what the matches left of it.
-/

namespace SqlHandler
open Posix Text Stl

/-- A computation that neither reads nor changes the object. -/
def Proc.lift {σ α : Type} : Except Fault α → Proc σ α
  | .ok a => return a
  | .error fault => throw fault

/-- A call on a local variable: its answer, and what the variable holds then. -/
def Proc.onLocal {σ τ α : Type} (x : Proc τ α) (t : τ) : Proc σ (α × τ) :=
  match x t with
  | .ok a t' => return (a, t')
  | .error fault _ => throw fault

/-! ## `SQLAttribute` -/

/-- `attr` is the member `attribute`. -/
structure SQLAttribute where
  attr : Text
  fullName : Text
  name : Text
  position : Nat
  deriving DecidableEq

namespace SQLAttribute

/-- The groups set in the bitset of `loadAttribute`. -/
def attrGroups : List Nat := [1, 3, 4, 8, 9]

/-- The full name and the name of the one entry found. -/
def parts {σ : Type} (m : Matched) : Proc σ (Text × Text) := do
  let (fullName, i) ←
    if m.test 1 then do pure (← m.getMatch 0, 1)
    else if m.test 4 then do pure (← m.getMatch 0, 1)
    else pure ([], 0)
  if m.test 3 then return (fullName, ← m.getMatch i)
  else if m.test 8 then return (fullName, ← m.getMatch i)
  else if m.test 9 then return (fullName, ← m.getMatch i)
  else Proc.raise .besInternalError "Unable to match required attribute name.".toList

/-- `loadAttribute`, on a copy of its argument. -/
def loadAttribute : Proc Text (Text × Text) := do
  match ← StringMatch.matchSet (regexec regAttr) attrGroups with
  | [m] => parts m
  | _ => Proc.raise .besInternalError "Unable to match the SQLAttributes parts".toList

/-- The constructor. -/
def make (attr : Text) (position : Nat) : Except Fault SQLAttribute :=
  match loadAttribute attr with
  | .ok (fullName, name) _ => .ok { attr, fullName, name, position }
  | .error fault _ => .error fault

/-- The key of `SQLAttrNameComp`. -/
def nameKey (a : SQLAttribute) : Str := a.name.str

end SQLAttribute

/-- `SQL_ATTRIBUTE_SET_BYNAME` -/
abbrev SQLAttributeSetByName := SearchTree SQLAttribute

/-- `SQL_ATTRIBUTE_SET_BYPOS` -/
abbrev SQLAttributeSetByPos := SearchTree SQLAttribute

/-- `SQLAttrNameComp` -/
def attrNameComp : SQLAttribute → SQLAttribute → Bool := byKey SQLAttribute.nameKey

/-- `SQLAttrPosComp` -/
def attrPosComp : SQLAttribute → SQLAttribute → Bool := byKey SQLAttribute.position

/-! ## `SQLConstraint` -/

/-- `attr` is the member `attribute`. -/
structure SQLConstraint where
  attr : SQLAttribute
  comparator : Text
  substitute : Text
  value : Text
  deriving DecidableEq

namespace SQLConstraint

/-- `operator<` -/
def less (a c : SQLConstraint) : Bool :=
  if c.attr.attr.str < a.attr.attr.str ∧ c.comparator.str < a.comparator.str ∧
    c.value.str < a.value.str then false
  else true

/-- What stands for the comparator in a statement. -/
def operator (c : SQLConstraint) : Text := if c.substitute ≠ [] then c.substitute else c.comparator

/-- `toString` -/
def toText (c : SQLConstraint) : Text := c.attr.attr ++ c.operator ++ c.value

/-- The constructor. -/
def make (attr comp val : Text) : Except Fault SQLConstraint := do
  let attr ← SQLAttribute.make attr 0
  return { attr, comparator := comp, substitute := [], value := val }

end SQLConstraint

/-- `SQL_CONSTRAINT_SET` -/
abbrev SQLConstraintSet := SearchTree SQLConstraint

/-! ## `SQLQuery` -/

structure SQLQuery where
  select : SQLAttributeSetByName
  fromText : Text
  whereSet : SQLConstraintSet

namespace SQLQuery
variable (shape : Shape)

/-- The attributes matched, each made at its position and inserted. -/
def insertAttributes : Nat → SQLAttributeSetByName → List (List Text) → Except Fault SQLAttributeSetByName
  | _, ret, [] => .ok ret
  | i, ret, groups :: found => do
    let attr ← SQLAttribute.make (groups.headD []) i
    insertAttributes (i + 1) (insert shape attrNameComp attr ret) found

/-- `loadAttributes` -/
def loadAttributes : Proc Text SQLAttributeSetByName := do
  let found ← StringMatch.matchVector (regexec contRegAttr) [contRegAttrGroup]
  Proc.lift (insertAttributes shape 0 .leaf found)

/-- The constraints matched, each made and inserted. -/
def insertConstraints : SQLConstraintSet → List (List Text) → Except Fault SQLConstraintSet
  | ret, [] => .ok ret
  | ret, groups :: found => do
    let constraint ← SQLConstraint.make (groups.getD 0 []) (groups.getD 1 []) (groups.getD 2 [])
    insertConstraints (insert shape SQLConstraint.less constraint ret) found

/-- `loadConstraints` -/
def loadConstraints : Proc Text SQLConstraintSet := do
  let found ← StringMatch.matchVector (regexec contRegConstrBase)
    [constrAttrGroup, constrComparatorGroup, constrValGroup]
  Proc.lift (insertConstraints shape .leaf found)

/-- The attributes asked for, in the order of their names: the copy of the dataset, or
with `all` the name that was asked for. -/
def select? (all : Bool) (datasetAttr : SQLAttributeSetByName) :
    SQLAttributeSetByPos → List SQLAttribute → Except Fault SQLAttributeSetByPos
  | attr, [] => .ok attr
  | attr, a :: onTheFly => do
    if all then
      let a ← SQLAttribute.make a.name a.position
      select? all datasetAttr (insert shape attrPosComp a attr) onTheFly
    else
      match find attrNameComp a datasetAttr with
      | some i => select? all datasetAttr (insert shape attrPosComp i attr) onTheFly
      | none => select? all datasetAttr attr onTheFly

/-- The attribute `*` looked for in the dataset. -/
def everything : Except Fault SQLAttribute := SQLAttribute.make (lit "*") 0

/-- `attrToSelect` -/
def attrToSelect (select : SQLAttributeSetByName) : Proc Text SQLAttributeSetByPos := do
  let onTheFly ← loadAttributes shape
  let star ← Proc.lift everything
  let all := (find attrNameComp star select).isSome
  let attr ← Proc.lift (select? shape all select .leaf onTheFly.toList)
  if attr.toList.isEmpty then return insertAll shape attrPosComp .leaf select.toList
  else return attr

end SQLQuery

end SqlHandler
