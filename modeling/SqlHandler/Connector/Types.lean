import SqlHandler.Stl.Bytes
import SqlHandler.DTM.Sequence

/-!
# Types

`ODBCConnector::getCType` names the C type a column is bound as, and
`ODBCTypeFactoryComponent::action` the variable that reads what the driver writes there.
-/

namespace SqlHandler
open Posix

/-- What a column says of itself, `other` being a code `getCType` does not name. -/
inductive SqlType where
  | SQL_CHAR | SQL_VARCHAR | SQL_LONGVARCHAR
  | SQL_WCHAR | SQL_WVARCHAR | SQL_WLONGVARCHAR
  | SQL_DECIMAL | SQL_NUMERIC
  | SQL_BIT | SQL_TINYINT | SQL_SMALLINT | SQL_INTEGER | SQL_BIGINT
  | SQL_REAL | SQL_FLOAT | SQL_DOUBLE
  | SQL_BINARY | SQL_VARBINARY | SQL_LONGVARBINARY
  | SQL_TYPE_DATE | SQL_TYPE_TIME
  | SQL_GUID
  | other
  deriving DecidableEq, Repr

inductive CType where
  | SQL_C_CHAR | SQL_C_WCHAR
  | SQL_C_SLONG | SQL_C_LONG | SQL_C_SHORT
  | SQL_C_FLOAT | SQL_C_DOUBLE | SQL_C_NUMERIC | SQL_C_DEFAULT
  | SQL_C_DATE | SQL_C_TIME | SQL_C_TIMESTAMP
  | SQL_C_TYPE_DATE | SQL_C_TYPE_TIME | SQL_C_TYPE_TIMESTAMP
  | SQL_C_BINARY | SQL_C_BIT
  | SQL_C_SBIGINT | SQL_C_UBIGINT
  | SQL_C_TINYINT | SQL_C_SSHORT | SQL_C_STINYINT
  | SQL_C_ULONG | SQL_C_USHORT | SQL_C_UTINYINT
  deriving DecidableEq, Repr

/-- `ODBCConnector::getCType` -/
def getCType : SqlType → CType
  | .SQL_CHAR | .SQL_VARCHAR | .SQL_LONGVARCHAR => .SQL_C_CHAR
  | .SQL_WCHAR | .SQL_WVARCHAR | .SQL_WLONGVARCHAR => .SQL_C_WCHAR
  | .SQL_DECIMAL | .SQL_NUMERIC => .SQL_C_LONG
  | .SQL_BIT => .SQL_C_BIT
  | .SQL_TINYINT => .SQL_C_TINYINT
  | .SQL_SMALLINT => .SQL_C_SHORT
  | .SQL_INTEGER => .SQL_C_LONG
  | .SQL_BIGINT => .SQL_C_SBIGINT
  | .SQL_REAL => .SQL_C_FLOAT
  | .SQL_FLOAT => .SQL_C_DOUBLE
  | .SQL_DOUBLE => .SQL_C_DOUBLE
  | .SQL_BINARY | .SQL_VARBINARY | .SQL_LONGVARBINARY => .SQL_C_BINARY
  | .SQL_TYPE_DATE => .SQL_C_TYPE_DATE
  | .SQL_TYPE_TIME => .SQL_C_TYPE_TIME
  | .SQL_GUID => .SQL_C_CHAR
  | .other => .SQL_C_CHAR

inductive DapType where
  | Int16 | Int32 | Float32 | Float64 | Str
  deriving DecidableEq, Repr

inductive CastFunction where
  | cast_func | cast_string
  deriving DecidableEq, Repr

/-- A `SQLSimpleType` as `action` makes it. -/
structure SimpleType where
  dapType : DapType
  cast : CastFunction
  reuse : Bool
  deriving DecidableEq, Repr

/-- `ODBCTypeFactoryComponent::action` -/
def action : CType → Except BESError SimpleType
  | .SQL_C_CHAR => .ok ⟨.Str, .cast_string, false⟩
  | .SQL_C_SLONG => .ok ⟨.Int32, .cast_func, true⟩
  | .SQL_C_LONG => .ok ⟨.Int32, .cast_func, true⟩
  | .SQL_C_SHORT => .ok ⟨.Int16, .cast_func, true⟩
  | .SQL_C_FLOAT => .ok ⟨.Float32, .cast_func, true⟩
  | .SQL_C_DOUBLE => .ok ⟨.Float64, .cast_func, true⟩
  | .SQL_C_NUMERIC => .ok ⟨.Int32, .cast_func, true⟩
  | .SQL_C_DEFAULT => .ok ⟨.Str, .cast_string, false⟩
  | .SQL_C_DATE => .ok ⟨.Str, .cast_func, true⟩
  | .SQL_C_TIME => .ok ⟨.Str, .cast_func, true⟩
  | .SQL_C_TIMESTAMP => .ok ⟨.Str, .cast_func, true⟩
  | .SQL_C_TYPE_DATE => .ok ⟨.Str, .cast_func, true⟩
  | .SQL_C_TYPE_TIME => .ok ⟨.Str, .cast_func, true⟩
  | .SQL_C_TYPE_TIMESTAMP => .ok ⟨.Str, .cast_func, true⟩
  | .SQL_C_BINARY => .ok ⟨.Int16, .cast_func, true⟩
  | .SQL_C_BIT => .ok ⟨.Int16, .cast_func, true⟩
  | .SQL_C_SBIGINT => .ok ⟨.Int32, .cast_func, true⟩
  | .SQL_C_UBIGINT => .ok ⟨.Int32, .cast_func, true⟩
  | .SQL_C_TINYINT => .ok ⟨.Int16, .cast_func, true⟩
  | .SQL_C_SSHORT => .ok ⟨.Int16, .cast_func, true⟩
  | .SQL_C_STINYINT => .ok ⟨.Int16, .cast_func, true⟩
  | .SQL_C_ULONG => .ok ⟨.Int32, .cast_func, true⟩
  | .SQL_C_USHORT => .ok ⟨.Int32, .cast_func, true⟩
  | .SQL_C_UTINYINT => .ok ⟨.Int32, .cast_func, true⟩
  -- `default`; the code of `SQL_C_WCHAR` is -8
  | .SQL_C_WCHAR => .error ⟨.sqlInternalFatalError,
      "SQL Handler: The datatype read from the Data Source is not supported. The problem type code is: -8".toList⟩

/-- The only types of which no variable is made. -/
def SqlType.wide : SqlType → Bool
  | .SQL_WCHAR | .SQL_WVARCHAR | .SQL_WLONGVARCHAR => true
  | _ => false

theorem action_ok_iff (t : SqlType) : (∃ v, action (getCType t) = .ok v) ↔ t.wide = false := by
  cases t <;> simp [getCType, action, SqlType.wide]

/-! ## What a variable reads -/

/-- What `calloc` gave to a column. -/
abbrev Buffer := List UInt8

inductive DapValue where
  | int (v : Int)
  | float (bytes : List UInt8)
  | str (s : List UInt8)
  deriving DecidableEq, Repr

/-- `val2buf` of `libdap` copies as many bytes as the type has, or a `std::string`; `none` where
the buffer does not hold them. -/
def val2buf : DapType → Buffer → Option DapValue
  | .Int16, b => if 2 ≤ b.length then some (.int (Bytes.decode (b.take 2))) else none
  | .Int32, b => if 4 ≤ b.length then some (.int (Bytes.decode (b.take 4))) else none
  | .Float32, b => if 4 ≤ b.length then some (.float (b.take 4)) else none
  | .Float64, b => if 8 ≤ b.length then some (.float (b.take 8)) else none
  | .Str, _ => none

/-- The cast of the variable, on a buffer that `none` says is not the program's any more. -/
def SimpleType.action (v : SimpleType) : CastAction (Option Buffer) (Option DapValue) :=
  match v.cast with
  | .cast_func => .cast_func fun b => b.bind (val2buf v.dapType)
  | .cast_string => .cast_string fun b => b.bind fun b => (Bytes.cString b).map .str

/-! ## What the driver writes -/

structure ColumnDesc where
  sql_type : SqlType
  /-- `getColSize`: the `SQL_DESC_LENGTH` of the driver, and the size of the buffer -/
  length : Nat
  deriving DecidableEq, Repr

namespace ColumnDesc

/-- What `SQLFetch` writes for a value: a string is cut to leave room for its NUL, and a value of
a type of fixed size is written whatever the size of the buffer. -/
def write (d : ColumnDesc) (value : List UInt8) (b : Buffer) : Option Buffer :=
  match getCType d.sql_type with
  | .SQL_C_CHAR =>
    if d.length = 0 then some b else some (Bytes.overwrite (value.take (d.length - 1) ++ [0]) b)
  | .SQL_C_WCHAR =>
    if d.length < 2 then some b else some (Bytes.overwrite (value.take (d.length - 2) ++ [0, 0]) b)
  | .SQL_C_BINARY => some (Bytes.overwrite (value.take d.length) b)
  | _ => if value.length ≤ d.length then some (Bytes.overwrite value b) else none

/-- Is there room for a value? A type of no fixed size is cut to the room there is. -/
def fits (d : ColumnDesc) (value : List UInt8) : Bool :=
  match getCType d.sql_type with
  | .SQL_C_CHAR => true
  | .SQL_C_WCHAR => true
  | .SQL_C_BINARY => true
  | _ => value.length ≤ d.length

/-- A buffer after the values of some rows; a NULL is not written. -/
def held (d : ColumnDesc) (values : List (Option (List UInt8))) : Option Buffer :=
  values.foldl (fun b value => value.elim b fun value => b.bind (d.write value)) (some (List.replicate d.length 0))

theorem write_isSome {d : ColumnDesc} {value : List UInt8} (room : d.fits value = true) (b : Buffer) :
    (d.write value b).isSome := by
  unfold fits at room
  unfold write
  split
  · split <;> rfl
  · split <;> rfl
  · rfl
  · split at room
    · contradiction
    · contradiction
    · contradiction
    · rw [if_pos (of_decide_eq_true room)]
      rfl

theorem write_length {d : ColumnDesc} {value : List UInt8} {b b' : Buffer} (size : b.length = d.length)
    (run : d.write value b = some b') : b'.length = d.length := by
  have kept {bytes : List UInt8} (fits : bytes.length ≤ d.length) : (Bytes.overwrite bytes b).length = d.length := by
    rw [Bytes.overwrite_length (by omega), size]
  unfold write at run
  split at run
  · split at run
    · cases run
      exact size
    · cases run
      apply kept
      simp only [List.length_append, List.length_take, List.length_singleton]
      omega
  · split at run
    · cases run
      exact size
    · cases run
      apply kept
      simp only [List.length_append, List.length_take, List.length_cons, List.length_nil]
      omega
  · cases run
    apply kept
    simp only [List.length_take]
    omega
  · split at run
    · rename_i fits
      cases run
      exact kept fits
    · cases run

theorem held_snoc (d : ColumnDesc) (values : List (Option (List UInt8))) (value : List UInt8) :
    d.held (values ++ [some value]) = (d.held values).bind (d.write value) := by
  unfold held
  rw [List.foldl_append]
  rfl

theorem held_length {d : ColumnDesc} {values : List (Option (List UInt8))} {b : Buffer} (run : d.held values = some b) :
    b.length = d.length := by
  induction values using List.reverseRecOn generalizing b with
  | nil =>
    cases run
    exact List.length_replicate
  | append_singleton values value ih =>
    cases value with
    | none =>
      unfold held at run ih
      rw [List.foldl_append] at run
      exact ih run
    | some value =>
      rw [held_snoc] at run
      obtain ⟨b', before, last⟩ := Option.bind_eq_some_iff.1 run
      exact write_length (ih before) last

theorem held_isSome {d : ColumnDesc} {values : List (Option (List UInt8))} (room : ∀ cell ∈ values, cell.all d.fits = true) :
    (d.held values).isSome := by
  induction values using List.reverseRecOn with
  | nil => rfl
  | append_singleton values value ih =>
    obtain ⟨b, before⟩ := Option.isSome_iff_exists.1 (ih fun cell mem => room cell (List.mem_append_left _ mem))
    cases value with
    | none =>
      unfold held at before ⊢
      rw [List.foldl_append, before]
      rfl
    | some value =>
      rw [held_snoc, before, Option.bind_some]
      exact write_isSome (room _ (List.mem_append_right _ List.mem_cons_self)) b

end ColumnDesc

end SqlHandler
