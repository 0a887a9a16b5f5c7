import SqlHandler.Connector.Types

/-!
# Integer columns

The driver writes as many bytes as the C type has, and the variable reads as many as the DAP
type has. A value is kept where the buffer holds both, and the one is the other's (`keeps_iff`).
-/

namespace SqlHandler
open Posix

inductive IntegerType where
  | BIT | TINYINT | SMALLINT | INTEGER | BIGINT
  deriving DecidableEq, Repr

/-- The size of an integer C type -/
def CType.integerBytes : CType → Nat
  | .SQL_C_BIT | .SQL_C_TINYINT => 1
  | .SQL_C_SHORT => 2
  | .SQL_C_LONG => 4
  | .SQL_C_SBIGINT => 8
  | _ => 0

def DapType.integerBytes : DapType → Nat
  | .Int16 => 2
  | .Int32 => 4
  | _ => 0

namespace IntegerType

def sqlType : IntegerType → SqlType
  | BIT => .SQL_BIT
  | TINYINT => .SQL_TINYINT
  | SMALLINT => .SQL_SMALLINT
  | INTEGER => .SQL_INTEGER
  | BIGINT => .SQL_BIGINT

def column (t : IntegerType) (length : Nat) : ColumnDesc := ⟨t.sqlType, length⟩

/-- The bytes the driver writes for a value. -/
def bytes (t : IntegerType) : Nat := (getCType t.sqlType).integerBytes

/-- The bytes the variable reads. -/
def dapBytes (t : IntegerType) : Nat :=
  match action (getCType t.sqlType) with
  | .ok v => v.dapType.integerBytes
  | .error _ => 0

/-- The values of a column, with a sign or without. -/
def InRange (t : IntegerType) (unsigned : Bool) (v : Int) : Prop :=
  match t with
  | BIT => 0 ≤ v ∧ v ≤ 1
  | t => if unsigned then 0 ≤ v ∧ v < 256 ^ t.bytes else -256 ^ t.bytes ≤ 2 * v ∧ 2 * v < 256 ^ t.bytes

def written (t : IntegerType) (v : Int) : Option (List UInt8) := some (Bytes.encode t.bytes v)

/-- What the variable of a column reads in a row, `before` being the values of the rows before. -/
def delivered (t : IntegerType) (length : Nat) (before : List Int) (v : Int) : Except Fault DapValue :=
  match action (getCType t.sqlType) with
  | .error e => .error (.error e)
  | .ok simple =>
    match simple.action.out ((t.column length).held (before.map t.written ++ [t.written v])) with
    | some value => .ok value
    | none => .error .undefined

/-- The value arrives, or the request fails. -/
def Keeps (t : IntegerType) (length : Nat) (before : List Int) (v : Int) : Prop :=
  match t.delivered length before v with
  | .ok value => value = .int v
  | .error (.error _) => True
  | .error _ => False

/-- The buffer holds what is written and what is read, and the value has the same bytes in both. -/
structure Same (t : IntegerType) (length : Nat) (v : Int) : Prop where
  written : t.bytes ≤ length
  read : t.dapBytes ≤ length
  sign : t.bytes < t.dapBytes → 0 ≤ v
  range : -256 ^ t.dapBytes ≤ 2 * v ∧ 2 * v < 256 ^ t.dapBytes

variable {t : IntegerType} {unsigned : Bool} {length : Nat} {v : Int}

theorem write_eq (t : IntegerType) (length : Nat) (value : List UInt8) (b : Buffer) :
    (t.column length).write value b = if value.length ≤ length then some (Bytes.overwrite value b) else none := by
  cases t <;> rfl

/-- Behind the bytes of the C type stand the zeros of `calloc`. -/
theorem held_zeros (fits : t.bytes ≤ length) (values : List Int) : ∃ b, (t.column length).held (values.map t.written) = some b ∧
    b.drop t.bytes = List.replicate (length - t.bytes) 0 := by
  induction values using List.reverseRecOn with
  | nil => exact ⟨_, rfl, List.drop_replicate⟩
  | append_singleton values v ih =>
    obtain ⟨b, before, zeros⟩ := ih
    refine ⟨Bytes.overwrite (Bytes.encode t.bytes v) b, ?_, ?_⟩
    · rw [List.map_append]
      change (t.column length).held (_ ++ [some _]) = _
      rw [ColumnDesc.held_snoc, before, Option.bind_some, write_eq, Bytes.encode_length, if_pos fits]
    · unfold Bytes.overwrite
      rw [Bytes.encode_length, List.drop_left' (Bytes.encode_length _ _), zeros]

/-- What stands in the buffer when a row is read. -/
theorem held_eq (t : IntegerType) (length : Nat) (before : List Int) (v : Int) :
    (t.column length).held (before.map t.written ++ [t.written v]) =
      if t.bytes ≤ length then some (Bytes.encode t.bytes v ++ List.replicate (length - t.bytes) 0) else none := by
  change (t.column length).held (_ ++ [some _]) = _
  rw [ColumnDesc.held_snoc]
  by_cases fits : t.bytes ≤ length
  · obtain ⟨b, run, zeros⟩ := held_zeros fits before
    rw [run, Option.bind_some, write_eq, Bytes.encode_length, if_pos fits, if_pos fits]
    unfold Bytes.overwrite
    rw [Bytes.encode_length, zeros]
  · rw [if_neg fits]
    cases (t.column length).held (before.map t.written) with
    | none => rfl
    | some b => rw [Option.bind_some, write_eq, Bytes.encode_length, if_neg fits]

theorem delivered_eq (t : IntegerType) (length : Nat) (before : List Int) (v : Int) :
    t.delivered length before v =
      if t.bytes ≤ length ∧ t.dapBytes ≤ length then
        .ok (.int (Bytes.decode ((Bytes.encode t.bytes v ++ List.replicate (length - t.bytes) 0).take t.dapBytes)))
      else .error .undefined := by
  have size (fits : t.bytes ≤ length) :
      (Bytes.encode t.bytes v ++ List.replicate (length - t.bytes) 0).length = length := by
    rw [List.length_append, Bytes.encode_length, List.length_replicate]
    omega
  have load : ∀ dap width, (∀ b, val2buf dap b = if width ≤ b.length then some (.int (Bytes.decode (b.take width))) else none) →
      (match ((t.column length).held (before.map t.written ++ [t.written v])).bind (val2buf dap) with
        | some value => Except.ok value
        | none => .error Fault.undefined) =
      if t.bytes ≤ length ∧ width ≤ length then
        .ok (.int (Bytes.decode ((Bytes.encode t.bytes v ++ List.replicate (length - t.bytes) 0).take width)))
      else .error .undefined := by
    intro dap width copies
    rw [held_eq]
    by_cases fits : t.bytes ≤ length
    · rw [if_pos fits, Option.bind_some, copies, size fits]
      by_cases wide : width ≤ length
      · rw [if_pos wide, if_pos ⟨fits, wide⟩]
      · rw [if_neg wide, if_neg fun h => wide h.2]
    · rw [if_neg fits, if_neg fun h => fits h.1]
      rfl
  cases t with
  | BIT => exact load .Int16 2 fun _ => rfl
  | TINYINT => exact load .Int16 2 fun _ => rfl
  | SMALLINT => exact load .Int16 2 fun _ => rfl
  | INTEGER => exact load .Int32 4 fun _ => rfl
  | BIGINT => exact load .Int32 4 fun _ => rfl

/-- Which numbers are read as they were written. -/
theorem decode_iff {c d : Nat} (some : 0 < d) (fits : v < 256 ^ c) {n : Nat} (room : d ≤ c + n) :
    Bytes.decode ((Bytes.encode c v ++ List.replicate n 0).take d) = v ↔
      (c < d → 0 ≤ v) ∧ -256 ^ d ≤ 2 * v ∧ 2 * v < 256 ^ d := by
  rcases Nat.lt_or_ge c d with narrow | wide
  · have cut : (Bytes.encode c v ++ List.replicate n 0).take d = Bytes.encode c v ++ List.replicate (d - c) 0 := by
      rw [List.take_append, Bytes.encode_length, List.take_of_length_le (by rw [Bytes.encode_length]; omega),
        List.take_replicate, Nat.min_eq_left (by omega)]
    have below : (256 : Int) ^ c * 256 ≤ 256 ^ d := by
      rw [← pow_succ]
      exact pow_le_pow_right₀ (by decide) narrow
    rw [cut, Bytes.decode_zeros (by omega)]
    constructor
    · intro same
      have low : 0 ≤ v := by
        rw [← same]
        exact Int.emod_nonneg v (by positivity)
      exact ⟨fun _ => low, by omega, by omega⟩
    · rintro ⟨low, -⟩
      exact Int.emod_eq_of_lt (low narrow) fits
  · have cut : (Bytes.encode c v ++ List.replicate n 0).take d = Bytes.encode d v := by
      rw [List.take_append_of_le_length (by rw [Bytes.encode_length]; exact wide), Bytes.take_encode wide]
    obtain ⟨m, rfl⟩ : ∃ m, d = m + 1 := ⟨d - 1, by omega⟩
    rw [cut, Bytes.decode_encode, Int.bmod_eq_iff (by positivity)]
    push_cast
    rw [pow_succ]
    constructor
    · rintro ⟨low, high, -⟩
      exact ⟨fun narrow => by omega, by omega, by omega⟩
    · rintro ⟨-, low, high⟩
      exact ⟨by omega, by omega, by simp⟩

theorem InRange.lt (h : t.InRange unsigned v) : v < 256 ^ t.bytes := by
  have room : (0 : Int) < 256 ^ t.bytes := by positivity
  cases t with
  | BIT =>
    have : v ≤ 1 := h.2
    change v < 256 ^ 1
    omega
  | _ =>
    cases unsigned with
    | true => exact h.2
    | false =>
      have := h.2
      omega

/-- Whatever the rows before held, a value is kept exactly if its bytes are the same in both types. The value
is any of the column's type, and a request that fails counts as keeping it. -/
theorem keeps_iff (before : List Int) (h : t.InRange unsigned v) : t.Keeps length before v ↔ t.Same length v := by
  unfold Keeps
  rw [delivered_eq]
  by_cases fits : t.bytes ≤ length ∧ t.dapBytes ≤ length
  · have some : 0 < t.dapBytes := by cases t <;> decide
    have same := decode_iff (n := length - t.bytes) some h.lt (by omega)
    rw [if_pos fits]
    constructor
    · intro kept
      obtain ⟨sign, range⟩ := same.1 (DapValue.int.inj kept)
      exact ⟨fits.1, fits.2, sign, range⟩
    · intro kept
      exact congrArg DapValue.int (same.2 ⟨kept.sign, kept.range⟩)
  · rw [if_neg fits]
    exact iff_of_false not_false fun kept => fits ⟨kept.written, kept.read⟩

theorem negative_smallint_kept : SMALLINT.Keeps 5 [32767, 12] (-32768) := by
  have range : SMALLINT.InRange false (-32768) := by constructor <;> decide
  exact (keeps_iff [32767, 12] range).2 ⟨by decide, by decide, by decide, by decide⟩

/-- A TINYINT -1 is read as 255, the BIGINT 2147483648 as its negative, and a BIT whose buffer is
one byte long is read behind it. -/
theorem integers_not_kept :
    (TINYINT.InRange false (-1) ∧ TINYINT.delivered 4 [] (-1) = .ok (.int 255) ∧ ¬ TINYINT.Keeps 4 [] (-1)) ∧
    (BIGINT.InRange false 2147483648 ∧ BIGINT.delivered 20 [] 2147483648 = .ok (.int (-2147483648)) ∧
      ¬ BIGINT.Keeps 20 [] 2147483648) ∧
    (BIT.InRange false 1 ∧ BIT.delivered 1 [] 1 = .error .undefined ∧ ¬ BIT.Keeps 1 [] 1) := by
  have tiny : TINYINT.delivered 4 [] (-1) = .ok (.int 255) := by decide
  have big : BIGINT.delivered 20 [] 2147483648 = .ok (.int (-2147483648)) := by decide
  have bit : BIT.delivered 1 [] 1 = .error .undefined := by decide
  refine ⟨⟨by constructor <;> decide, tiny, ?_⟩, ⟨by constructor <;> decide, big, ?_⟩,
    ⟨by constructor <;> decide, bit, ?_⟩⟩
  · unfold Keeps
    rw [tiny]
    decide
  · unfold Keeps
    rw [big]
    decide
  · unfold Keeps
    rw [bit]
    exact not_false

end IntegerType

end SqlHandler
