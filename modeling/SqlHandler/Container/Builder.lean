import SqlHandler.Container.Query

/-!
# The statements of a section

`SQLTextContainer::comparatorSubst`, `buildQuery` and `buildCountQuery`, on the section
the container stands on. `comparatorSubst` increments an iterator it has erased; what
comes of that C++ leaves open, and a `Runtime` says it. In libstdc++ the new node takes
the memory of the old one, so the iterator goes on behind the constraint put in.
-/

namespace SqlHandler
open Posix Text Stl

/-- What neither the program nor the language decides. -/
structure Runtime where
  shape : Shape
  /-- Where an erased iterator stands after `wi++`: in this round, with this set, the
  index erased and the constraint put in. `none` if the run is lost. -/
  landing : Nat → List SQLConstraint → Nat → SQLConstraint → Option Nat
  /-- The rounds after which a loop is taken to be endless. -/
  patience : Nat

/-- The memory of the erased node is used again. -/
def Runtime.reuse (patience : Nat) : Runtime where
  shape := .plain
  landing _ elements _ c := some (elements.idxOf c + 1)
  patience

/-- The map `other`. -/
abbrev OtherMap := SearchTree (Str × Str)

/-- `SQLH_DATASET_SECTION` -/
structure DatasetSection where
  api : Str
  server : Str
  port : Str
  dbname : Str
  user : Str
  pass : Str
  query : SQLQuery
  other : OtherMap

namespace DatasetSection

def whereSet (s : DatasetSection) : SQLConstraintSet := s.query.whereSet

def setWhere (s : DatasetSection) (w : SQLConstraintSet) : DatasetSection :=
  { s with query := { s.query with whereSet := w } }

end DatasetSection

/-- `getOther` -/
def getOther (other : OtherMap) (key : Str) : Option Str :=
  (find (byKey Prod.fst) (key, []) other).map Prod.snd

namespace SQLTextContainer
variable (rt : Runtime)

/-- The substitute `comparatorSubst` sets for a comparator. -/
def substitution (other : OtherMap) (comparator : Str) : Option Text :=
  match getOther other comparator with
  | some v => some (lit " " ++ of .dataset v ++ lit " ")
  | none =>
    if comparator = "!=".toList then some (lit "<>")
    else if comparator = "~=".toList then some (lit " LIKE ")
    else none

/-- The `while` loop of `comparatorSubst`, with the iterator at an index. -/
def substRounds (other : OtherMap) : Nat → Nat → Proc SQLConstraintSet Unit
  | 0, _ => throw .endless
  | fuel + 1, wi => do
    let set₀ ← get
    match set₀.toList[wi]? with
    | none => return ()
    | some c =>
      match substitution other c.comparator.str with
      | none => substRounds other fuel (wi + 1)
      | some subst => do
        let c := { c with substitute := subst }
        let set₁ := insert rt.shape SQLConstraint.less c (rt.shape.unlink set₀ wi)
        set set₁
        match rt.landing fuel set₁.toList wi c with
        | some wi => substRounds other fuel wi
        | none => throw .undefined

/-- `comparatorSubst` -/
def comparatorSubst (other : OtherMap) : Proc SQLConstraintSet Unit :=
  substRounds rt other rt.patience 0

/-- `buf.find("&")` and what the three cases make of it: the attributes and the constraints. -/
def splitConstraint (buf : Text) : Text × Text :=
  match buf.str.findIdx? (· == '&') with
  | some 0 => ([], buf)
  | some split => (buf.take split, buf.drop (split + 1))
  | none => (buf, [])

/-- The attributes one after the other, with commas. -/
def selectClause (attrs : SQLAttributeSetByPos) : Text :=
  match attrs.toList with
  | [] => []
  | i :: rest => rest.foldl (fun buf i => buf ++ (of .literal contAttrJoin ++ i.attr)) i.attr

/-- The conditions of the section as a text. -/
def ownConditions : Proc DatasetSection Text := do
  if (← get).whereSet.toList.isEmpty then return []
  else do
    let s ← get
    Proc.zoom DatasetSection.whereSet DatasetSection.setWhere (comparatorSubst rt s.other)
    match (← get).whereSet.toList with
    | [] => throw .undefined
    | w :: rest => return rest.foldl (fun buf w => buf ++ of .literal constrJoin ++ w.toText) w.toText

/-- One round of the loop over `in_constr`. -/
def addCondition (select : SQLAttributeSetByName) (buf : Text) (w : SQLConstraint) : Text :=
  let buf := if buf ≠ [] then buf ++ of .literal constrJoin else buf
  let buf := match find attrNameComp w.attr select with
    | some ai => buf ++ ai.fullName
    | none => buf
  buf ++ w.operator ++ w.value

/-- The conditions loaded from `constraints` behind `buf`, and what is left of `constraints`. -/
def loadedConditions (constraints : Text) : Proc DatasetSection (List SQLConstraint × Text) := do
  let s ← get
  let (inConstr, left) ← Proc.onLocal (SQLQuery.loadConstraints rt.shape) constraints
  let ((), inConstr) ← Proc.onLocal (comparatorSubst rt s.other) inConstr
  return (inConstr.toList, left)

/-- `buildQuery` -/
def buildQuery (www2id : Str → Str) (constraint : Str) : Proc DatasetSection Text := do
  let (attributes, constraints) := splitConstraint (of .client (www2id constraint))
  let q := (← get).query
  let (attrs, _) ← Proc.onLocal (SQLQuery.attrToSelect rt.shape q.select) attributes
  let buf := selectClause attrs
  if buf = [] then
    Proc.raise .besInternalFatalError "SQLTextContainer: Unable to build a correct SELECT clause".toList
  else do
    let query := lit "SELECT " ++ buf ++ (lit " FROM " ++ q.fromText)
    let buf ← ownConditions rt
    let buf ← if constraints = [] then pure buf else do
      let (inConstr, _) ← loadedConditions rt constraints
      pure (inConstr.foldl (addCondition q.select) buf)
    let query := if buf ≠ [] then query ++ (lit " WHERE " ++ buf) else query
    return query ++ lit ";"

/-- `buildCountQuery` -/
def buildCountQuery : Proc DatasetSection Text := do
  let q := (← get).query
  let query := lit "SELECT COUNT(*) FROM " ++ q.fromText
  let constraints ← ownConditions rt
  let constraints ← if constraints = [] then pure constraints else do
    let (inConstr, constraints) ← loadedConditions rt constraints
    pure (inConstr.foldl (addCondition q.select) constraints)
  let query := if constraints ≠ [] then query ++ lit " WHERE " ++ constraints else query
  return query ++ lit ";"

end SQLTextContainer

end SqlHandler
