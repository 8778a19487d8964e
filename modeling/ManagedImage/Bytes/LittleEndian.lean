/-!
# Little-endian numbers

Every multi-byte number of a managed image is stored least significant byte
first.  One codec, by recursion on the number of bytes, serves all widths.

## Main definitions

* `LittleEndian.encode w n` — the `w` low-order bytes of `n`.
* `LittleEndian.decode bs` — the number that the bytes `bs` stand for.

## Main results

* `LittleEndian.encode_decode` — encoding restores the bytes.
-/

namespace ManagedImage.LittleEndian

/-- The `width` low-order bytes of `n`, least significant first. -/
def encode : (width : Nat) → (n : Nat) → List UInt8
  | 0, _ => []
  | width + 1, n => UInt8.ofNat n :: encode width (n / 256)

/-- The number whose little-endian digits to base 256 are `bytes`. -/
def decode : List UInt8 → Nat
  | [] => 0
  | b :: bytes => b.toNat + 256 * decode bytes

@[simp] theorem encode_zero (n : Nat) : encode 0 n = [] := rfl

@[simp] theorem decode_nil : decode [] = 0 := rfl

@[simp] theorem decode_cons (b : UInt8) (bytes : List UInt8) :
    decode (b :: bytes) = b.toNat + 256 * decode bytes := rfl

@[simp] theorem length_encode (width n : Nat) : (encode width n).length = width := by
  induction width generalizing n with
  | zero => rfl
  | succ width ih => simp [encode, ih]

theorem encode_decode (bytes : List UInt8) : encode bytes.length (decode bytes) = bytes := by
  induction bytes with
  | nil => rfl
  | cons b bytes ih =>
    have hb := b.toNat_lt
    have hdiv : (b.toNat + 256 * decode bytes) / 256 = decode bytes := by omega
    have hhead : UInt8.ofNat (b.toNat + 256 * decode bytes) = b := by
      apply UInt8.toNat_inj.mp
      simp only [UInt8.toNat_ofNat']
      omega
    simp only [List.length_cons, encode, decode_cons, hdiv, ih, hhead]

end ManagedImage.LittleEndian
