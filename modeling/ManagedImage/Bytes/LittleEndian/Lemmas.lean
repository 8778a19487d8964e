import Mathlib
import ManagedImage.Bytes.LittleEndian

/-!
# The range of little-endian numbers

`w` bytes stand for a number below `256 ^ w`, and every number below it has `w` bytes that stand
for it.  So a field of `w` bytes keeps exactly the numbers that fit it, and a larger number only
up to that power.

## Main results

* `LittleEndian.decode_lt` — what some bytes stand for is below a power of 256.
* `LittleEndian.decode_encode` — decoding keeps a number up to the width.
* `LittleEndian.getElem?_encode` — the bytes one by one.
-/

namespace ManagedImage.LittleEndian

theorem decode_lt (bytes : List UInt8) : decode bytes < 256 ^ bytes.length := by
  induction bytes with
  | nil => simp
  | cons b bytes ih =>
    have hb := b.toNat_lt
    simp only [decode_cons, List.length_cons, Nat.pow_succ]
    omega

theorem decode_encode (width n : Nat) : decode (encode width n) = n % 256 ^ width := by
  induction width generalizing n with
  | zero => simp [Nat.mod_one]
  | succ width ih =>
    rw [encode, decode_cons, ih, Nat.pow_succ, Nat.mul_comm (256 ^ width), Nat.mod_mul]
    simp

theorem decode_encode_of_lt {width n : Nat} (h : n < 256 ^ width) :
    decode (encode width n) = n := by
  rw [decode_encode, Nat.mod_eq_of_lt h]

/-- The bytes of a number are its digits to base 256. -/
theorem getElem?_encode (width n k : Nat) :
    (encode width n)[k]? = if k < width then some (UInt8.ofNat (n / 256 ^ k)) else none := by
  induction width generalizing n k with
  | zero => rfl
  | succ width ih =>
    cases k with
    | zero => simp [encode]
    | succ k =>
      rw [encode, List.getElem?_cons_succ, ih, Nat.div_div_eq_div_mul, Nat.pow_succ']
      simp only [Nat.succ_lt_succ_iff]

end ManagedImage.LittleEndian
