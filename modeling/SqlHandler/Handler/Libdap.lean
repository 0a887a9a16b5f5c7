import SqlHandler.Outcome
import Mathlib.Logic.Function.Basic

/-!
# The classes of libdap

The builders write a DAS or a DDS of libdap, which is not part of the handler. `Libdap` stands for
it: its objects, the calls a builder makes on them, and what their documentation says of these
calls. When `append_attr` throws, and what, is left to libdap.
-/

namespace SqlHandler
open Posix

/-- A variable a type action built, named by the column its connector stood on. -/
structure BaseType where
  name : Str
  typeName : Str
  column : Nat
  deriving DecidableEq, Repr

/-- A variable of a sequence: one of a type action, or a place-holder with the text it reads. -/
inductive SeqVar where
  | column (bt : BaseType)
  | placeHolder (dummy : Str)
  deriving DecidableEq, Repr

/-- An attribute as `append_attr` is given it. -/
structure Entry where
  name : Str
  type : Str
  value : Str
  deriving DecidableEq, Repr

/-- `_SQLH_DEFAULT_DAS_NAME` -/
def defaultDasName : Str := "DefaultName".toList

/-- `_SQLH_DEFAULT_DAS_TYPE` -/
def defaultDasType : Str := "String".toList

/-- `_SQLH_DEFAULT_DAS_VAL` -/
def defaultDasVal : Str := "Place-holder for unread variables".toList

/-! ## Attributes one after the other -/

/-- A call of `append_attr` on a response, by name, type and value. -/
abbrev Append (ρ : Type) := Str → Str → Str → ρ → Except Fault ρ

/-- `append_attr` once for each entry. -/
def appendAll {ρ : Type} (append : Append ρ) (entries : List Entry) (r : ρ) : Except Fault ρ :=
  entries.foldlM (fun r e => append e.name e.type e.value r) r

section AppendAll
variable {ρ : Type} {append : Append ρ} {e : Entry} {entries more : List Entry} {r r₁ r' : ρ}

theorem appendAll_cons : appendAll append (e :: entries) r = .ok r' ↔
    ∃ r₁, append e.name e.type e.value r = .ok r₁ ∧ appendAll append entries r₁ = .ok r' := by
  unfold appendAll
  rw [List.foldlM_cons]
  cases append e.name e.type e.value r with
  | ok r₁ => exact ⟨fun run => ⟨r₁, rfl, run⟩, fun ⟨_, same, run⟩ => by cases same; exact run⟩
  | error fault => exact ⟨nofun, fun ⟨_, same, _⟩ => nomatch same⟩

end AppendAll

/-- The objects of libdap and the calls a builder makes on them. A call by a pointer or a reference
into an object is a call on the part and a write back: `append_attr` on the table of a DAS is
`getTable`, `appendAttr` and `setTable`. -/
structure Libdap where
  AttrTable : Type
  DAS : Type
  DDS : Type
  /-- `new AttrTable()` -/
  newTable : AttrTable
  /-- `AttrTable::append_attr`, by name, type and value -/
  appendAttr : Str → Str → Str → AttrTable → Except Fault AttrTable
  /-- `AttrTable::get_attr_num`, the number of values of an attribute -/
  getAttrNum : AttrTable → Str → Nat
  /-- `DAS::get_table`, NULL being `none` -/
  getTable : DAS → Str → Option AttrTable
  /-- `DAS::add_table` -/
  addTable : Str → AttrTable → DAS → DAS
  setTable : Str → AttrTable → DAS → DAS
  /-- `DDS::get_attr_table` -/
  getAttrTable : DDS → AttrTable
  setAttrTable : AttrTable → DDS → DDS
  /-- The variables of a DDS in their order, each sequence with its members. -/
  vars : DDS → List (Str × List SeqVar)
  /-- `DDS::add_var_nocopy` of a sequence -/
  addVar : Str → List SeqVar → DDS → DDS
  /-- `DDS::set_dataset_name` -/
  setDatasetName : Str → DDS → DDS
  /-- One value more for the attribute of that name, and for no other. -/
  num_append : ∀ {name type value t t'}, appendAttr name type value t = .ok t' →
    ∀ n, getAttrNum t' n = getAttrNum t n + if n = name then 1 else 0
  table_add : ∀ {das name}, getTable das name = none →
    ∀ t n, getTable (addTable name t das) n = if n = name then some t else getTable das n
  table_set : ∀ {das name t}, getTable das name = some t →
    ∀ t' n, getTable (setTable name t' das) n = if n = name then some t' else getTable das n
  attrTable_set : ∀ t dds, getAttrTable (setAttrTable t dds) = t
  vars_set : ∀ t dds, vars (setAttrTable t dds) = vars dds
  vars_add : ∀ name seq dds, vars (addVar name seq dds) = vars dds ++ [(name, seq)]
  attrTable_add : ∀ name seq dds, getAttrTable (addVar name seq dds) = getAttrTable dds
  vars_name : ∀ name dds, vars (setDatasetName name dds) = vars dds
  attrTable_name : ∀ name dds, getAttrTable (setDatasetName name dds) = getAttrTable dds

namespace Libdap
variable (L : Libdap)

/-- `get_table`, and `add_table` with a new table where there is none. -/
def openTable (server : Str) (das : L.DAS) : L.DAS :=
  match L.getTable das server with
  | some _ => das
  | none => L.addTable server L.newTable das

/-- `append_attr` on the table of that name. -/
def appendDas (server name type value : Str) (das : L.DAS) : Except Fault L.DAS :=
  match L.getTable das server with
  | none => .error .undefined
  | some t =>
    match L.appendAttr name type value t with
    | .ok t' => .ok (L.setTable server t' das)
    | .error fault => .error fault

/-- `append_attr` on the table of a DDS. -/
def appendDds (name type value : Str) (dds : L.DDS) : Except Fault L.DDS :=
  match L.appendAttr name type value (L.getAttrTable dds) with
  | .ok t => .ok (L.setAttrTable t dds)
  | .error fault => .error fault

variable {L}

theorem openTable_known {server : Str} {das : L.DAS} (known : (L.getTable das server).isSome) :
    L.openTable server das = das := by
  obtain ⟨t, found⟩ := Option.isSome_iff_exists.1 known
  unfold openTable
  rw [found]

theorem getTable_open (server : Str) (das : L.DAS) (n : Str) : L.getTable (L.openTable server das) n =
    if n = server then some ((L.getTable das server).getD L.newTable) else L.getTable das n := by
  unfold openTable
  cases found : L.getTable das server with
  | none => exact L.table_add found _ n
  | some t =>
    by_cases same : n = server
    · rw [if_pos same, same, found]
      rfl
    · rw [if_neg same]

/-- A table asked for twice is added once. -/
theorem openTable_twice (server : Str) (das : L.DAS) :
    L.openTable server (L.openTable server das) = L.openTable server das := by
  refine openTable_known ?_
  rw [getTable_open, if_pos rfl]
  rfl

/-- An attribute appended to one table. -/
theorem getTable_appendDas {server name type value : Str} {das das' : L.DAS}
    (h : L.appendDas server name type value das = .ok das') :
    ∃ t t', L.getTable das server = some t ∧ L.appendAttr name type value t = .ok t' ∧
      ∀ n, L.getTable das' n = if n = server then some t' else L.getTable das n := by
  unfold appendDas at h
  cases found : L.getTable das server with
  | none =>
    rw [found] at h
    cases h
  | some t =>
    cases appended : L.appendAttr name type value t with
    | error fault =>
      simp only [found, appended] at h
      cases h
    | ok t' =>
      simp only [found, appended] at h
      cases h
      exact ⟨t, t', rfl, appended, L.table_set found t'⟩

theorem appendDds_ok {name type value : Str} {dds dds' : L.DDS} (h : L.appendDds name type value dds = .ok dds') :
    L.appendAttr name type value (L.getAttrTable dds) = .ok (L.getAttrTable dds') ∧ L.vars dds' = L.vars dds := by
  unfold appendDds at h
  cases appended : L.appendAttr name type value (L.getAttrTable dds) with
  | error fault =>
    rw [appended] at h
    cases h
  | ok t =>
    rw [appended] at h
    cases h
    exact ⟨by rw [L.attrTable_set], L.vars_set t dds⟩

/-! ### What was appended -/

/-- The table of a server, a new one where there is none. -/
def tableOf (das : L.DAS) (server : Str) : L.AttrTable := (L.getTable das server).getD L.newTable

/-- Opening a table changes no table that is read. -/
theorem tableOf_open (added server : Str) (das : L.DAS) : L.tableOf (L.openTable added das) server = L.tableOf das server := by
  unfold tableOf
  rw [getTable_open]
  split
  · rename_i same
    rw [same]
    rfl
  · rfl

theorem known_open {added server : Str} {das : L.DAS} :
    (L.getTable (L.openTable added das) server).isSome = true ↔ (L.getTable das server).isSome = true ∨ server = added := by
  rw [getTable_open]
  split
  · rename_i same
    exact ⟨fun _ => .inr same, fun _ => rfl⟩
  · rename_i other
    exact ⟨.inl, fun either => either.resolve_right other⟩

/-- In an open table an attribute is appended where `append_attr` takes it. -/
theorem appendDas_iff {server name type value : Str} {das : L.DAS} (known : (L.getTable das server).isSome = true) :
    (∃ das', L.appendDas server name type value das = .ok das') ↔
      ∃ t, L.appendAttr name type value (L.tableOf das server) = .ok t := by
  obtain ⟨t, found⟩ := Option.isSome_iff_exists.1 known
  unfold appendDas tableOf
  simp only [found, Option.getD_some]
  cases L.appendAttr name type value t <;> simp

theorem appendDds_iff {name type value : Str} {dds : L.DDS} :
    (∃ dds', L.appendDds name type value dds = .ok dds') ↔ ∃ t, L.appendAttr name type value (L.getAttrTable dds) = .ok t := by
  unfold appendDds
  cases L.appendAttr name type value (L.getAttrTable dds) <;> simp

/-- The table of a server counts one value more for each name appended to it, the others count the same. -/
theorem num_appendAll_das {server : Str} {entries : List Entry} {das das' : L.DAS}
    (h : appendAll (L.appendDas server) entries das = .ok das') (n m : Str) :
    L.getAttrNum (L.tableOf das' m) n =
      L.getAttrNum (L.tableOf das m) n + if m = server then (entries.map Entry.name).count n else 0 := by
  induction entries generalizing das with
  | nil =>
    cases h
    simp
  | cons e entries ih =>
    obtain ⟨das₁, first, rest⟩ := appendAll_cons.1 h
    obtain ⟨t, t', found, appended, tables⟩ := getTable_appendDas first
    rw [ih rest]
    have here : L.tableOf das₁ m = if m = server then t' else L.tableOf das m := by
      unfold tableOf
      rw [tables m]
      split <;> rfl
    rw [here]
    by_cases same : m = server
    · have there : L.tableOf das m = t := by
        unfold tableOf
        rw [same, found]
        rfl
      rw [if_pos same, if_pos same, if_pos same, there, L.num_append appended, List.map_cons, List.count_cons]
      simp only [beq_iff_eq, eq_comm (a := n)]
      omega
    · rw [if_neg same, if_neg same, if_neg same]

/-- `append_attr` neither adds nor takes away a table. -/
theorem known_appendAll_das {server : Str} {entries : List Entry} {das das' : L.DAS}
    (h : appendAll (L.appendDas server) entries das = .ok das') (m : Str) :
    (L.getTable das' m).isSome = (L.getTable das m).isSome := by
  induction entries generalizing das with
  | nil =>
    cases h
    rfl
  | cons e entries ih =>
    obtain ⟨das₁, first, rest⟩ := appendAll_cons.1 h
    obtain ⟨t, t', found, -, tables⟩ := getTable_appendDas first
    rw [ih rest, tables m]
    split
    · rename_i same
      rw [same, found]
      rfl
    · rfl

theorem num_appendAll_dds {entries : List Entry} {dds dds' : L.DDS} (h : appendAll L.appendDds entries dds = .ok dds')
    (n : Str) : L.getAttrNum (L.getAttrTable dds') n =
      L.getAttrNum (L.getAttrTable dds) n + (entries.map Entry.name).count n := by
  induction entries generalizing dds with
  | nil =>
    cases h
    simp
  | cons e entries ih =>
    obtain ⟨dds₁, first, rest⟩ := appendAll_cons.1 h
    rw [ih rest, L.num_append (appendDds_ok first).1, List.map_cons, List.count_cons]
    simp only [beq_iff_eq, eq_comm (a := n)]
    omega

theorem vars_appendAll {entries : List Entry} {dds dds' : L.DDS} (h : appendAll L.appendDds entries dds = .ok dds') :
    L.vars dds' = L.vars dds := by
  induction entries generalizing dds with
  | nil =>
    cases h
    rfl
  | cons e entries ih =>
    obtain ⟨dds₁, first, rest⟩ := appendAll_cons.1 h
    rw [ih rest, (appendDds_ok first).2]

end Libdap

/-! ## Tables of lists -/

namespace Lists

structure Attribute where
  name : Str
  type : Str
  values : List Str
  deriving DecidableEq, Repr

/-- An attribute has one type; another one is refused. -/
def appendAttr (name type value : Str) : List Attribute → Except Fault (List Attribute)
  | [] => .ok [⟨name, type, [value]⟩]
  | a :: rest =>
    if a.name = name then
      if a.type = type then .ok ({ a with values := a.values ++ [value] } :: rest)
      else .error (.foreign none)
    else
      match appendAttr name type value rest with
      | .ok rest' => .ok (a :: rest')
      | .error fault => .error fault

def getAttrNum : List Attribute → Str → Nat
  | [], _ => 0
  | a :: rest, n => if a.name = n then a.values.length else getAttrNum rest n

theorem num_append {name type value : Str} {t t' : List Attribute} (h : appendAttr name type value t = .ok t') (n : Str) :
    getAttrNum t' n = getAttrNum t n + if n = name then 1 else 0 := by
  induction t generalizing t' with
  | nil =>
    cases h
    simp only [getAttrNum, List.length_singleton, Nat.zero_add, eq_comm]
  | cons a rest ih =>
    unfold appendAttr at h
    by_cases same : a.name = name
    · rw [if_pos same] at h
      by_cases typed : a.type = type
      · rw [if_pos typed] at h
        cases h
        by_cases asked : a.name = n
        · simp only [getAttrNum, if_pos asked, List.length_append, List.length_singleton]
          rw [if_pos (asked.symm.trans same)]
        · simp only [getAttrNum, if_neg asked]
          rw [if_neg fun e => asked (same.trans e.symm), Nat.add_zero]
      · rw [if_neg typed] at h
        cases h
    · rw [if_neg same] at h
      cases run : appendAttr name type value rest with
      | error fault =>
        rw [run] at h
        cases h
      | ok rest' =>
        rw [run] at h
        cases h
        by_cases asked : a.name = n
        · simp only [getAttrNum, if_pos asked]
          rw [if_neg fun e => same (asked.trans e), Nat.add_zero]
        · simp only [getAttrNum, if_neg asked]
          exact ih run

/-- A DDS: its attributes, its sequences and its name. -/
structure DDS where
  attrs : List Attribute
  vars : List (Str × List SeqVar)
  datasetName : Str
  deriving DecidableEq, Repr

/-- A libdap whose names are compared as they stand. -/
def libdap : Libdap where
  AttrTable := List Attribute
  DAS := Str → Option (List Attribute)
  DDS := DDS
  newTable := []
  appendAttr := appendAttr
  getAttrNum := getAttrNum
  getTable das name := das name
  addTable name t das := Function.update das name (some t)
  setTable name t das := Function.update das name (some t)
  getAttrTable := DDS.attrs
  setAttrTable attrs dds := { dds with attrs }
  vars := DDS.vars
  addVar name seq dds := { dds with vars := dds.vars ++ [(name, seq)] }
  setDatasetName datasetName dds := { dds with datasetName }
  num_append := num_append
  table_add _ t n := Function.update_apply _ _ (some t) n
  table_set _ t' n := Function.update_apply _ _ (some t') n
  attrTable_set _ _ := rfl
  vars_set _ _ := rfl
  vars_add _ _ _ := rfl
  attrTable_add _ _ _ := rfl
  vars_name _ _ := rfl
  attrTable_name _ _ := rfl

end Lists

end SqlHandler
