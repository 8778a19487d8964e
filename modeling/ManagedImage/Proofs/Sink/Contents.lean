import ManagedImage.Sink.Output

/-!
# What sinks contain

The contents of a sink and its position are all that is seen of it.  A write that succeeds puts the
bytes at the position and leaves all other bytes alone; where it comes to lie behind the end, the
gap is filled with zeros.

## Main definitions

* `Bytes.IsWrittenAt` — the bytes after a write.
* `LawfulSink` — a sink with contents and a position, moved and written as told.

## Main results

* The growing buffer and the output file are lawful.
-/

namespace ManagedImage

/-- `data'` is `data` after `bytes` have been written at `offset`. -/
structure Bytes.IsWrittenAt (data : Bytes) (offset : Nat) (bytes data' : Bytes) : Prop where
  /-- The bytes are where they were written. -/
  inside : ∀ k < bytes.size, data'[offset + k]? = bytes[k]?
  /-- All other bytes are as they were. -/
  outside : ∀ k < data.size, k < offset ∨ offset + bytes.size ≤ k → data'[k]? = data[k]?
  /-- Where there was none, there is none now, or a zero. -/
  gap : ∀ k, data.size ≤ k → k < offset ∨ offset + bytes.size ≤ k →
    data'[k]? = none ∨ data'[k]? = some 0

/-- A sink with contents and a position, for which moving and writing mean what they say whenever
they succeed. -/
class LawfulSink (S : Type) [Sink S] where
  /-- The bytes in the sink. -/
  contents : S → Bytes
  /-- Where the next bytes go. -/
  position : S → Nat
  /-- A move keeps the contents. -/
  contents_seek : ∀ {offset : UInt64} {sink sink' : S}, Sink.seek offset sink = (.ok (), sink') →
    contents sink' = contents sink
  /-- A move goes to its goal. -/
  position_seek : ∀ {offset : UInt64} {sink sink' : S}, Sink.seek offset sink = (.ok (), sink') →
    position sink' = offset.toNat
  /-- A write puts the bytes at the position. -/
  isWrittenAt : ∀ {bytes : Bytes} {sink sink' : S}, Sink.writeAll bytes sink = (.ok (), sink') →
    (contents sink).IsWrittenAt (position sink) bytes (contents sink')

variable {data bytes data' : Bytes} {offset : Nat}

/-- There is room for what was written. -/
theorem Bytes.IsWrittenAt.le_size (h : data.IsWrittenAt offset bytes data')
    (hbytes : 0 < bytes.size) : offset + bytes.size ≤ data'.size := by
  have hlast := h.inside (bytes.size - 1) (by omega)
  rw [Array.getElem?_eq_getElem (show bytes.size - 1 < bytes.size by omega)] at hlast
  have hlt := (Array.getElem?_eq_some_iff.mp hlast).1
  omega

/-- Bytes that are written before the end change nothing else. -/
theorem Bytes.isWrittenAt_overlay (h : offset + bytes.size ≤ data.size) :
    data.IsWrittenAt offset bytes (data.overlay offset bytes.toList) := by
  have hget := Bytes.getElem?_overlay (show offset + bytes.toList.length ≤ data.size from h)
  simp only [Array.length_toList, Array.getElem?_toList] at hget
  refine ⟨fun k hk => ?_, fun k _ hk => ?_, fun k hsize hk => ?_⟩
  · rw [hget, if_pos (by omega), Nat.add_sub_cancel_left]
  · rw [hget, if_neg (by omega)]
  · rw [hget, if_neg (by omega)]
    exact Or.inl (Array.getElem?_eq_none hsize)

namespace GrowingBuffer

/-- A buffer is filled up with zeros. -/
theorem getElem?_padded (data : Bytes) (size : Nat) (k : Nat) :
    (padded data size)[k]? =
      if k < data.size then data[k]? else if k < size then some 0 else none := by
  rw [padded, Array.getElem?_append, Bytes.zeros, Array.getElem?_replicate]
  by_cases hk : k < data.size
  · rw [if_pos hk, if_pos hk]
  · rw [if_neg hk, if_neg hk]
    by_cases hsize : k < size
    · rw [if_pos (by omega), if_pos hsize]
    · rw [if_neg (by omega), if_neg hsize]

theorem isWrittenAt_write (bytes : Bytes) (b : GrowingBuffer) :
    b.data.IsWrittenAt b.position bytes (b.write bytes).data := by
  have hwritten : (padded b.data (b.position + bytes.size)).IsWrittenAt b.position bytes
      (b.write bytes).data :=
    Bytes.isWrittenAt_overlay (by rw [size_padded]; omega)
  have hsize := size_padded b.data (b.position + bytes.size)
  refine ⟨hwritten.inside, fun k hk hout => ?_, fun k hk hout => ?_⟩
  · rw [hwritten.outside k (by omega) hout, getElem?_padded, if_pos hk]
  · rcases Nat.lt_or_ge k (padded b.data (b.position + bytes.size)).size with hlt | hge
    · rw [hwritten.outside k hlt hout, getElem?_padded, if_neg (Nat.not_lt.mpr hk),
        if_pos (by omega)]
      exact Or.inr rfl
    · exact hwritten.gap k hge hout

instance : LawfulSink GrowingBuffer where
  contents b := b.data
  position b := b.position
  contents_seek h := by
    cases h
    rfl
  position_seek h := by
    cases h
    rfl
  isWrittenAt h := by
    cases h
    exact isWrittenAt_write _ _

end GrowingBuffer

namespace Output

variable {o o' : Output}

/-- A move to a place counted from the start succeeds. -/
theorem sink_seek (offset : UInt64) (o : Output) :
    Sink.seek offset o = (.ok (), { o with position := offset }) := by
  have hseek : o.seek (.start offset) = (.ok offset, { o with position := offset }) := by
    have hoffset : offset.toNat < UInt64.size := offset.toNat_lt
    simp [seek, target, hoffset]
  simp only [Sink.seek, hseek]
  rfl

/-- Bytes that fit are written. -/
theorem write_eq_ok (h : o.position.toNat + bytes.size ≤ o.size) :
    o.write bytes = (.ok bytes.size, ⟨o.data.overlay o.position.toNat bytes.toList,
      UInt64.ofNat (o.position.toNat + bytes.size)⟩) := if_pos h

/-- Bytes that do not fit change nothing. -/
theorem write_eq_error (h : ¬o.position.toNat + bytes.size ≤ o.size) :
    o.write bytes = (.error (.sink (.writePastEnd bytes.size o.position.toNat o.size)), o) :=
  if_neg h

/-- All bytes that fit are written, and so are none at all. -/
theorem writeAll_eq_ok (h : bytes.size = 0 ∨ o.position.toNat + bytes.size ≤ o.size) :
    o.writeAll bytes = (.ok (), ⟨o.data.overlay o.position.toNat bytes.toList,
      UInt64.ofNat (o.position.toNat + bytes.size)⟩) := by
  rw [writeAll]
  by_cases hempty : bytes.size = 0
  · obtain rfl := Array.eq_empty_of_size_eq_zero hempty
    have hstay : UInt64.ofNat (o.position.toNat + (#[] : Bytes).size) = o.position :=
      UInt64.ofNat_toNat
    rw [hstay]
    rfl
  · rw [if_neg (by simpa using hempty), write_eq_ok (h.resolve_left hempty)]

theorem writeAll_eq_error (h : ¬(bytes.size = 0 ∨ o.position.toNat + bytes.size ≤ o.size)) :
    o.writeAll bytes = (.error (.sink (.writePastEnd bytes.size o.position.toNat o.size)), o) := by
  rw [not_or] at h
  rw [writeAll, if_neg (by simpa using h.1), write_eq_error h.2]

/-- Bytes for which there is room change nothing else, and neither do no bytes at all. -/
theorem isWrittenAt_of_room (h : bytes.size = 0 ∨ offset + bytes.size ≤ data.size) :
    data.IsWrittenAt offset bytes (data.overlay offset bytes.toList) := by
  rcases h with hempty | hfits
  · obtain rfl := Array.eq_empty_of_size_eq_zero hempty
    exact ⟨fun k hk => absurd hk (Nat.not_lt_zero k), fun _ _ _ => rfl,
      fun k hk _ => Or.inl (Array.getElem?_eq_none hk)⟩
  · exact Bytes.isWrittenAt_overlay hfits

theorem isWrittenAt_writeAll (h : o.writeAll bytes = (.ok (), o')) :
    o.data.IsWrittenAt o.position.toNat bytes o'.data := by
  by_cases hroom : bytes.size = 0 ∨ o.position.toNat + bytes.size ≤ o.size
  · rw [writeAll_eq_ok hroom] at h
    cases h
    exact isWrittenAt_of_room hroom
  · rw [writeAll_eq_error hroom] at h
    cases h

instance : LawfulSink Output where
  contents o := o.data
  position o := o.position.toNat
  contents_seek h := by
    rw [sink_seek] at h
    cases h
    rfl
  position_seek h := by
    rw [sink_seek] at h
    cases h
    rfl
  isWrittenAt h := isWrittenAt_writeAll h

end Output

end ManagedImage
