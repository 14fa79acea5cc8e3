import Mathlib

/-!
# Little-endian fields of a byte string

A C struct that travels as raw memory is a byte string with fields at fixed
offsets. `leBytes k n` lays a number out over `k` bytes, lowest byte first, and
`fieldAt bs off k` reads `k` bytes back at an offset; the lemmas say that a
field is read back from a concatenation of fields as it was laid out.
-/

namespace Bytes

/-- The `k` lowest bytes of `n`, lowest first. -/
def leBytes : ℕ → ℕ → List UInt8
  | 0, _ => []
  | k + 1, n => UInt8.ofNat n :: leBytes k (n / 256)

/-- The number that a little-endian byte string spells. -/
def leNat : List UInt8 → ℕ
  | [] => 0
  | b :: bs => b.toNat + 256 * leNat bs

@[simp] theorem length_leBytes (k n : ℕ) : (leBytes k n).length = k := by
  induction k generalizing n with
  | zero => rfl
  | succ k ih => simp [leBytes, ih]

theorem leNat_leBytes (k n : ℕ) : leNat (leBytes k n) = n % 256 ^ k := by
  induction k generalizing n with
  | zero => simp [leBytes, leNat, Nat.mod_one]
  | succ k ih =>
    have hb : (UInt8.ofNat n).toNat = n % 256 := by simp
    rw [leBytes, leNat, ih, hb, Nat.pow_succ, Nat.mul_comm (256 ^ k) 256, Nat.mod_mul]

/-- The number in the `k` bytes at offset `off`. -/
def fieldAt (bs : List UInt8) (off k : ℕ) : ℕ := leNat ((bs.drop off).take k)

/-- The field at the front of a layout. -/
theorem fieldAt_leBytes (k n : ℕ) (bs : List UInt8) :
    fieldAt (leBytes k n ++ bs) 0 k = n % 256 ^ k := by
  rw [fieldAt, List.drop_zero, List.take_left' (length_leBytes k n), leNat_leBytes]

/-- Fields before the offset are skipped. -/
theorem fieldAt_append (as bs : List UInt8) (off k : ℕ) (h : as.length ≤ off) :
    fieldAt (as ++ bs) off k = fieldAt bs (off - as.length) k := by
  rw [fieldAt, fieldAt, List.drop_append, List.drop_eq_nil_of_le h, List.nil_append]

/-- What lies behind a field is not read. -/
theorem fieldAt_take {bs : List UInt8} {off k m : ℕ} (h : off + k ≤ m) :
    fieldAt (bs.take m) off k = fieldAt bs off k := by
  rw [fieldAt, fieldAt, List.drop_take, List.take_take, Nat.min_eq_left (by omega)]

theorem fieldAt_append_left {as : List UInt8} {off k : ℕ} (h : off + k ≤ as.length)
    (bs : List UInt8) : fieldAt (as ++ bs) off k = fieldAt as off k := by
  rw [← fieldAt_take h, List.take_left]

end Bytes
