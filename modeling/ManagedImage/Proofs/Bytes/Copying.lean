import ManagedImage.Bytes.LittleEndian.Lemmas
import ManagedImage.Bytes.Writer

/-!
# Copying a buffer piece by piece

A writer that is given, in order, what has been read from a buffer of the same size, copies the
buffer.  A number read from some bytes and written with as many bytes gives these bytes again.

## Main definitions

* `Writer.Copies w data n` — the writer has copied the first `n` bytes of `data`.

## Main results

* `Writer.Copies.putNumber` — a number that has been read is copied.
* `Writer.Copies.overlay` — the bytes that are left can be copied all at once.
-/

namespace ManagedImage

namespace Bytes

variable {data : Bytes} {offset count width n : Nat} {bytes : List UInt8}

theorem window?_eq_some_iff :
    data.window? offset count = some bytes ↔
      offset + count ≤ data.size ∧ (data.extract offset (offset + count)).toList = bytes := by
  unfold window?
  split
  · next h => rw [Option.some_inj, and_iff_right h]
  · next h => exact iff_of_false (by simp) fun h' => h h'.1

theorem length_of_window? (h : data.window? offset count = some bytes) : bytes.length = count := by
  obtain ⟨hle, rfl⟩ := window?_eq_some_iff.mp h
  rw [Array.length_toList, Array.size_extract, Nat.min_eq_left hle, Nat.add_sub_cancel_left]

/-- A window shows the bytes of the buffer. -/
theorem getElem?_of_window? (h : data.window? offset count = some bytes) {i : Nat}
    (hi : i < count) : bytes[i]? = data[offset + i]? := by
  obtain ⟨hle, rfl⟩ := window?_eq_some_iff.mp h
  rw [Array.getElem?_toList, Array.getElem?_extract, Nat.min_eq_left hle, if_pos (by omega)]

/-- A window of a part is a window of the whole. -/
theorem window?_of_extract {start stop : Nat} (hle : start ≤ stop) (hstop : stop ≤ data.size)
    (h : window? (data.extract start stop) offset count = some bytes) :
    data.window? (start + offset) count = some bytes := by
  obtain ⟨hfits, rfl⟩ := window?_eq_some_iff.mp h
  rw [Array.size_extract, Nat.min_eq_left hstop] at hfits
  have hin : start + (offset + count) ≤ stop := by omega
  rw [Array.extract_extract, Nat.min_eq_left hin, ← Nat.add_assoc]
  exact window?_eq_some_iff.mpr ⟨by omega, rfl⟩

/-- Where there are enough bytes there is a number. -/
theorem exists_number? (h : offset + width ≤ data.size) : ∃ n, data.number? offset width = some n := by
  rw [number?, window?, if_pos h]
  exact ⟨_, rfl⟩

theorem number?_lt (h : data.number? offset width = some n) : n < 256 ^ width := by
  obtain ⟨bytes, hbytes, rfl⟩ := Option.map_eq_some_iff.mp h
  rw [← length_of_window? hbytes]
  exact LittleEndian.decode_lt bytes

/-- A number stands for the bytes that it was read from. -/
theorem window?_of_number? (h : data.number? offset width = some n) :
    data.window? offset width = some (LittleEndian.encode width n) := by
  obtain ⟨bytes, hbytes, rfl⟩ := Option.map_eq_some_iff.mp h
  rw [hbytes, ← length_of_window? hbytes, LittleEndian.encode_decode]

end Bytes

namespace Writer

/-- The writer has filled its buffer with the first `n` bytes of `data`, which is as long. -/
structure Copies (w : Writer) (data : Bytes) (n : Nat) : Prop where
  /-- The buffers are equally long. -/
  size : w.data.size = data.size
  /-- The writer has come this far. -/
  offset : w.offset = n
  /-- It has come so far without an error. -/
  error? : w.error? = none
  /-- It has not come further than the buffer goes. -/
  le : n ≤ data.size
  /-- The bytes are the same so far. -/
  getElem? : ∀ i < n, w.data[i]? = data[i]?

namespace Copies

variable {data : Bytes} {n width v : Nat} {w : Writer} {bytes : List UInt8}

theorem start (data : Bytes) : (Writer.start (.zeros data.size) 0).Copies data 0 where
  size := Bytes.size_zeros data.size
  offset := rfl
  error? := rfl
  le := Nat.zero_le _
  getElem? i hi := absurd hi (Nat.not_lt_zero i)

/-- Bytes that have been read are copied. -/
theorem put (h : w.Copies data n) (hbytes : data.window? n width = some bytes) :
    (w.put bytes).Copies data (n + width) := by
  have hlen : bytes.length = width := Bytes.length_of_window? hbytes
  have hle : n + width ≤ data.size := (Bytes.window?_eq_some_iff.mp hbytes).1
  have hfits : w.offset + bytes.length ≤ w.data.size := by rw [h.offset, hlen, h.size]; exact hle
  rw [put_of_running h.error?, if_pos hfits]
  refine ⟨?_, ?_, rfl, hle, fun i hi => ?_⟩
  · rw [Bytes.size_overlay, h.size]
  · rw [h.offset, hlen]
  -- inside the patch stand the bytes that were read, in front of it those copied before
  · dsimp only
    rw [Bytes.getElem?_overlay hfits, h.offset, hlen]
    split
    · next hin =>
      rw [Bytes.getElem?_of_window? hbytes (by omega), Nat.add_sub_cancel' hin.1]
    · exact h.getElem? i (by omega)

/-- A number that has been read is copied. -/
theorem putNumber (h : w.Copies data n) (hv : data.number? n width = some v) :
    (w.putNumber width v).Copies data (n + width) :=
  h.put (Bytes.window?_of_number? hv)

/-- The bytes that are left are copied. -/
theorem overlay (h : w.Copies data n) :
    w.data.overlay w.offset (data.extract n data.size).toList = data := by
  have hfits : w.offset + (data.extract n data.size).toList.length ≤ w.data.size := by
    rw [h.offset, h.size, Array.length_toList, Array.size_extract, Nat.min_self]
    exact Nat.le_of_eq (Nat.add_sub_cancel' h.le)
  refine Array.ext_getElem? fun i => ?_
  rw [Bytes.getElem?_overlay hfits, h.offset]
  split
  · next hin =>
    have hi : i - n < data.size - n := by
      rw [Array.length_toList, Array.size_extract, Nat.min_self] at hin
      omega
    rw [Array.getElem?_toList, Array.getElem?_extract, Nat.min_self, if_pos hi,
      Nat.add_sub_cancel' hin.1]
  · next hout =>
    rw [Array.length_toList, Array.size_extract, Nat.min_self] at hout
    by_cases hi : i < n
    · exact h.getElem? i hi
    · rw [Array.getElem?_eq_none (by rw [h.size]; omega), Array.getElem?_eq_none (by omega)]

end Copies

end Writer

end ManagedImage
