import Mathlib.Algebra.Order.Ring.Int
import Mathlib.Tactic.Positivity
import Mathlib.Tactic.Ring

/-!
# Bytes in memory

Integers in little-endian two's complement, strings ended by a NUL, and what is left of a
buffer that is written over from its beginning.
-/

namespace Bytes

/-- The `width` low bytes of a number. -/
def encode : Nat → Int → List UInt8
  | 0, _ => []
  | width + 1, v => UInt8.ofNat (v % 256).toNat :: encode width (v / 256)

/-- The number without a sign that bytes make. -/
def unsigned : List UInt8 → Nat
  | [] => 0
  | byte :: bytes => byte.toNat + 256 * unsigned bytes

/-- The number with a sign that bytes make. -/
def decode (bytes : List UInt8) : Int := (unsigned bytes : Int).bmod (256 ^ bytes.length)

/-- A buffer after bytes were written to its beginning. -/
def overwrite (bytes buffer : List UInt8) : List UInt8 := bytes ++ buffer.drop bytes.length

/-- The string at the beginning of a buffer, if a NUL ends it there. -/
def cString : List UInt8 → Option (List UInt8)
  | [] => none
  | byte :: bytes => if byte = 0 then some [] else (cString bytes).map (byte :: ·)

@[simp] theorem encode_length (width : Nat) (v : Int) : (encode width v).length = width := by
  induction width generalizing v with
  | zero => rfl
  | succ width ih => rw [encode, List.length_cons, ih]

/-- The low byte and the others. -/
theorem emod_byte (v : Int) {m : Int} : v % 256 + 256 * (v / 256 % m) = v % (256 * m) := by
  have whole : v / 256 / m = v / (256 * m) := Int.ediv_ediv_of_nonneg (by decide)
  rw [Int.emod_def v, Int.emod_def (v / 256), Int.emod_def v, whole]
  ring

theorem unsigned_encode (width : Nat) (v : Int) : (unsigned (encode width v) : Int) = v % 256 ^ width := by
  induction width generalizing v with
  | zero => rw [pow_zero, Int.emod_one]; rfl
  | succ width ih =>
    have low : 0 ≤ v % 256 := Int.emod_nonneg v (by decide)
    have high : v % 256 < 256 := Int.emod_lt_of_pos v (by decide)
    have byte : ((UInt8.ofNat (v % 256).toNat).toNat : Int) = v % 256 := by
      rw [UInt8.toNat_ofNat', Nat.mod_eq_of_lt (by omega)]
      omega
    rw [encode, unsigned]
    push_cast
    rw [byte, ih, pow_succ', emod_byte]

/-- The low bytes of the low bytes. -/
theorem take_encode {m width : Nat} (h : m ≤ width) (v : Int) : (encode width v).take m = encode m v := by
  induction m generalizing width v with
  | zero => rfl
  | succ m ih =>
    cases width with
    | zero => omega
    | succ width => rw [encode, List.take_succ_cons, ih (by omega), encode]

theorem unsigned_append (a b : List UInt8) : unsigned (a ++ b) = unsigned a + 256 ^ a.length * unsigned b := by
  induction a with
  | nil => simp [unsigned]
  | cons byte a ih =>
    rw [List.cons_append, unsigned, unsigned, ih, List.length_cons, pow_succ]
    ring

@[simp] theorem unsigned_zeros (n : Nat) : unsigned (List.replicate n 0) = 0 := by
  induction n with
  | zero => rfl
  | succ n ih => rw [List.replicate_succ, unsigned, ih]; rfl

/-- The value stored at a width and read at another one that is not larger. -/
theorem decode_encode (width : Nat) (v : Int) : decode (encode width v) = v.bmod (256 ^ width) := by
  have modulus : ((256 ^ width : Nat) : Int) = 256 ^ width := by push_cast; rfl
  unfold decode
  rw [unsigned_encode, encode_length, ← modulus, Int.emod_bmod]

/-- Bytes with zeros behind them make the number without its sign. -/
theorem decode_zeros {width n : Nat} (some : 0 < n) (v : Int) :
    decode (encode width v ++ List.replicate n 0) = v % 256 ^ width := by
  have low : 0 ≤ v % 256 ^ width := Int.emod_nonneg v (by positivity)
  have high : v % 256 ^ width < 256 ^ width := Int.emod_lt_of_pos v (by positivity)
  have wide : (256 : Int) ^ width * 256 ≤ 256 ^ (width + n) := by
    rw [← pow_succ]
    exact pow_le_pow_right₀ (by decide) (by omega)
  unfold decode
  rw [unsigned_append, unsigned_zeros, Nat.mul_zero, Nat.add_zero, unsigned_encode, List.length_append, encode_length,
    List.length_replicate]
  apply Int.bmod_eq_of_le_mul_two
  all_goals
    push_cast
    omega

theorem overwrite_length {bytes buffer : List UInt8} (h : bytes.length ≤ buffer.length) :
    (overwrite bytes buffer).length = buffer.length := by
  unfold overwrite
  rw [List.length_append, List.length_drop]
  omega

/-- A string without NUL is read back up to the NUL behind it. -/
theorem cString_ended {s : List UInt8} (plain : ∀ byte ∈ s, byte ≠ 0) (rest : List UInt8) : cString (s ++ 0 :: rest) = some s := by
  induction s with
  | nil => rfl
  | cons byte s ih =>
    rw [List.cons_append, cString, if_neg (plain byte List.mem_cons_self),
      ih fun b mem => plain b (List.mem_cons_of_mem _ mem)]
    rfl

end Bytes
