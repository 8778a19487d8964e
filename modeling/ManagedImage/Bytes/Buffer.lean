import ManagedImage.Bytes.LittleEndian

/-!
# Byte buffers

A buffer is an array of bytes.  Reading takes a window out of it; writing lays
a patch over the bytes already there and never changes the length.

## Main definitions

* `Bytes.window? data off n` — the `n` bytes at `off`, if they are all there.
* `Bytes.overlay data off patch` — `data` with `patch` laid over it at `off`.

## Main results

* `Bytes.size_overlay` — an overlay keeps the length.
* `Bytes.getElem?_overlay` — an overlay changes the patched positions only.
-/

namespace ManagedImage

/-- A buffer of bytes. -/
abbrev Bytes := Array UInt8

namespace Bytes

/-- A buffer of `size` zero bytes. -/
def zeros (size : Nat) : Bytes := Array.replicate size 0

/-- The `count` bytes of `data` that start at `offset`, if they all exist. -/
def window? (data : Bytes) (offset count : Nat) : Option (List UInt8) :=
  if offset + count ≤ data.size then some (data.extract offset (offset + count)).toList else none

/-- The little-endian number in the `width` bytes at `offset`, if they all exist. -/
def number? (data : Bytes) (offset width : Nat) : Option Nat :=
  (data.window? offset width).map LittleEndian.decode

/-- Lays `patch` over `data` from `offset` on.  Bytes past the end are dropped. -/
def overlay (data : Bytes) (offset : Nat) : List UInt8 → Bytes
  | [] => data
  | b :: patch => overlay (data.setIfInBounds offset b) (offset + 1) patch

@[simp] theorem size_zeros (size : Nat) : (zeros size).size = size := by simp [zeros]

@[simp] theorem overlay_nil (data : Bytes) (offset : Nat) : data.overlay offset [] = data := rfl

@[simp] theorem overlay_cons (data : Bytes) (offset : Nat) (b : UInt8) (patch : List UInt8) :
    data.overlay offset (b :: patch) =
      overlay (data.setIfInBounds offset b) (offset + 1) patch := rfl

@[simp] theorem size_overlay (data : Bytes) (offset : Nat) (patch : List UInt8) :
    (data.overlay offset patch).size = data.size := by
  induction patch generalizing data offset with
  | nil => rfl
  | cons b patch ih => simp [ih]

/-- Inside the patch an overlay shows the patch, elsewhere the old bytes. -/
theorem getElem?_overlay {data : Bytes} {offset : Nat} {patch : List UInt8}
    (h : offset + patch.length ≤ data.size) (i : Nat) :
    (data.overlay offset patch)[i]? =
      if offset ≤ i ∧ i < offset + patch.length then patch[i - offset]? else data[i]? := by
  induction patch generalizing data offset with
  | nil => rw [overlay_nil, if_neg (by rw [List.length_nil]; omega)]
  | cons b patch ih =>
    simp only [List.length_cons] at h
    rw [overlay_cons, ih (by simp; omega), Array.getElem?_setIfInBounds]
    by_cases hi : offset = i
    · subst hi
      have hlt : offset < data.size := by omega
      have hnot : ¬(offset + 1 ≤ offset ∧ offset < offset + 1 + patch.length) := by omega
      rw [if_neg hnot, if_pos rfl, if_pos hlt, if_pos (by simp), Nat.sub_self,
        List.getElem?_cons_zero]
    · simp only [hi, if_false, List.length_cons]
      by_cases hin : offset + 1 ≤ i ∧ i < offset + 1 + patch.length
      · have hi' : i - offset = (i - (offset + 1)) + 1 := by omega
        rw [if_pos hin, if_pos (by omega), hi', List.getElem?_cons_succ]
      · rw [if_neg hin, if_neg (by omega)]

end Bytes

end ManagedImage
