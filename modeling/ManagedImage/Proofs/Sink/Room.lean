import ManagedImage.Proofs.Sink.Contents

/-!
# Sinks that take bytes wherever there is room

What a sink contains after a write is a function of what it contained, and writes to places that have
no byte in common commute.  For the growing buffer this has to hold across the gaps too: a gap that
one order fills with zeros is overwritten by the other one, or there from the start.

## Main definitions

* `Bytes.Apart` — two places have no byte in common.
* `Bytes.IsKept` — a byte is as it was, or is a zero where there was none.
* `RoomySink` — a sink that takes bytes wherever there is room for them.

## Main results

* `Bytes.overlay_comm` — overlays at places apart commute.
* `GrowingBuffer.filled_comm` — so do writes into a buffer that grows.
* The growing buffer and the output file are roomy.
-/

namespace ManagedImage

namespace Bytes

variable {data : Bytes} {offset offset' k : Nat} {b : UInt8} {patch patch' : List UInt8}

/-- Byte `k` is one of the `size` bytes that start at `offset`. -/
def Within (offset size k : Nat) : Prop := offset ≤ k ∧ k < offset + size

instance (offset size k : Nat) : Decidable (Within offset size k) :=
  inferInstanceAs (Decidable (_ ∧ _))

/-- No byte lies at both of two places.  A place of no bytes is apart from any other. -/
def Apart (offset size offset' size' : Nat) : Prop :=
  ∀ k, Within offset size k → ¬Within offset' size' k

/-- Byte `k` is as it was, or is a zero where there was none. -/
def IsKept (data data' : Bytes) (k : Nat) : Prop :=
  data'[k]? = data[k]? ∨ data[k]? = none ∧ data'[k]? = some 0

theorem IsKept.trans {data' data'' : Bytes} (h : IsKept data data' k)
    (h' : IsKept data' data'' k) : IsKept data data'' k := by
  rcases h with heq | ⟨hnone, hzero⟩
  · rwa [IsKept, ← heq]
  · rcases h' with heq' | ⟨hnone', -⟩
    · exact Or.inr ⟨hnone, heq'.trans hzero⟩
    · cases hzero.symm.trans hnone'

/-- A write keeps the bytes that do not lie at its place. -/
theorem IsWrittenAt.isKept {bytes data' : Bytes} (h : data.IsWrittenAt offset bytes data')
    (hk : ¬Within offset bytes.size k) : IsKept data data' k := by
  have hout : k < offset ∨ offset + bytes.size ≤ k := by
    rw [Within] at hk
    omega
  rcases Nat.lt_or_ge k data.size with hlt | hge
  · exact Or.inl (h.outside k hlt hout)
  · have hnone : data[k]? = none := Array.getElem?_eq_none hge
    rcases h.gap k hge hout with hstill | hzero
    · exact Or.inl (hstill.trans hnone.symm)
    · exact Or.inr ⟨hnone, hzero⟩

/-- A byte beside the patch may be set before or after. -/
theorem overlay_setIfInBounds (h : ¬Within offset patch.length k) :
    overlay (data.setIfInBounds k b) offset patch =
      (data.overlay offset patch).setIfInBounds k b := by
  induction patch generalizing data offset with
  | nil => rfl
  | cons c patch ih =>
    rw [Within, List.length_cons] at h
    have hne : k ≠ offset := by omega
    have hrest : ¬Within (offset + 1) patch.length k := by
      rw [Within]
      omega
    rw [overlay_cons, overlay_cons, Array.setIfInBounds_comm _ _ hne, ih hrest]

/-- **Overlays at places apart commute.** -/
theorem overlay_comm (h : Apart offset patch.length offset' patch'.length) :
    (data.overlay offset patch).overlay offset' patch' =
      (data.overlay offset' patch').overlay offset patch := by
  induction patch generalizing data offset with
  | nil => rfl
  | cons b patch ih =>
    rw [List.length_cons] at h
    have hhead : ¬Within offset' patch'.length offset := h offset ⟨Nat.le_refl _, by omega⟩
    have htail : Apart (offset + 1) patch.length offset' patch'.length := by
      intro k hk
      rw [Within] at hk
      exact h k ⟨by omega, by omega⟩
    -- the other patch goes in front of the tail first, and then in front of the head
    rw [overlay_cons, overlay_cons, ih htail, overlay_setIfInBounds hhead]

/-- Bytes behind the patch may be appended before or after. -/
theorem overlay_append (h : offset + patch.length ≤ data.size) (rest : Bytes) :
    overlay (data ++ rest) offset patch = data.overlay offset patch ++ rest := by
  induction patch generalizing data offset with
  | nil => rfl
  | cons b patch ih =>
    rw [List.length_cons] at h
    rw [overlay_cons, overlay_cons, Array.setIfInBounds_append_left (by omega), ih]
    rw [Array.size_setIfInBounds]
    omega

end Bytes

open LawfulSink in
/-- A lawful sink that takes bytes wherever there is room for them. -/
class RoomySink (S : Type) [Sink S] extends LawfulSink S where
  /-- The contents after bytes have been written at an offset. -/
  filled : (offset : Nat) → (bytes data : Bytes) → Bytes
  /-- There is room for bytes at an offset. -/
  HasRoom : (offset : Nat) → (bytes data : Bytes) → Prop
  /-- The sink can be moved anywhere. -/
  exists_seek : ∀ (offset : UInt64) (sink : S), ∃ sink', Sink.seek offset sink = (.ok (), sink')
  /-- Bytes are taken where there is room for them. -/
  exists_writeAll : ∀ {bytes : Bytes} {sink : S}, HasRoom (position sink) bytes (contents sink) →
    ∃ sink', Sink.writeAll bytes sink = (.ok (), sink') ∧
      contents sink' = filled (position sink) bytes (contents sink)
  /-- Writing takes no room away. -/
  hasRoom_filled : ∀ {offset offset' : Nat} {bytes bytes' data : Bytes},
    HasRoom offset bytes data → HasRoom offset bytes (filled offset' bytes' data)
  /-- Where there is room, bytes are written, and nothing else is changed. -/
  isWrittenAt_filled : ∀ {offset : Nat} {bytes data : Bytes}, HasRoom offset bytes data →
    data.IsWrittenAt offset bytes (filled offset bytes data)
  /-- Writes to places apart commute. -/
  filled_comm : ∀ {offset offset' : Nat} {bytes bytes' : Bytes} (data : Bytes),
    Bytes.Apart offset bytes.size offset' bytes'.size →
    filled offset' bytes' (filled offset bytes data) =
      filled offset bytes (filled offset' bytes' data)

namespace GrowingBuffer

variable {offset offset' : Nat} {bytes bytes' : Bytes}

theorem padded_padded (data : Bytes) (size size' : Nat) :
    padded (padded data size) size' = padded data (max size size') := by
  have hzeros : size - data.size + (size' - max data.size size) =
      max size size' - data.size := by omega
  rw [padded, size_padded, padded, padded, Array.append_assoc, Bytes.zeros, Bytes.zeros, Bytes.zeros,
    Array.replicate_append_replicate, hzeros]

/-- A buffer may be filled up before or after bytes in it are overwritten. -/
theorem padded_overlay {data : Bytes} {patch : List UInt8} (h : offset + patch.length ≤ data.size)
    (size : Nat) : padded (data.overlay offset patch) size =
      Bytes.overlay (padded data size) offset patch := by
  rw [padded, padded, Bytes.size_overlay, Bytes.overlay_append h]

/-- The contents after a write. -/
def filled (offset : Nat) (bytes data : Bytes) : Bytes :=
  Bytes.overlay (padded data (offset + bytes.size)) offset bytes.toList

/-- A buffer that has been written once and is then written again could have been filled up to the
end of both writes before. -/
theorem filled_filled (data : Bytes) :
    filled offset' bytes' (filled offset bytes data) =
      Bytes.overlay (Bytes.overlay
        (padded data (max (offset + bytes.size) (offset' + bytes'.size)))
        offset bytes.toList) offset' bytes'.toList := by
  have hfits : offset + bytes.toList.length ≤ (padded data (offset + bytes.size)).size := by
    rw [size_padded, Array.length_toList]
    omega
  rw [← padded_padded, filled, filled, padded_overlay hfits]

/-- **Writes to places apart commute**, whatever gaps they leave. -/
theorem filled_comm (data : Bytes) (h : Bytes.Apart offset bytes.size offset' bytes'.size) :
    filled offset' bytes' (filled offset bytes data) =
      filled offset bytes (filled offset' bytes' data) := by
  rw [filled_filled, filled_filled, Nat.max_comm]
  exact Bytes.overlay_comm (by simpa only [Array.length_toList] using h)

instance : RoomySink GrowingBuffer where
  filled := filled
  HasRoom _ _ _ := True
  exists_seek _ _ := ⟨_, rfl⟩
  exists_writeAll _ := ⟨_, rfl, rfl⟩
  hasRoom_filled := id
  isWrittenAt_filled {offset bytes data} _ := isWrittenAt_write bytes ⟨data, offset⟩
  filled_comm := filled_comm

end GrowingBuffer

namespace Output

instance : RoomySink Output where
  filled offset bytes data := data.overlay offset bytes.toList
  HasRoom offset bytes data := bytes.size = 0 ∨ offset + bytes.size ≤ data.size
  exists_seek offset o := ⟨_, sink_seek offset o⟩
  exists_writeAll h := ⟨_, writeAll_eq_ok h, rfl⟩
  hasRoom_filled h := by rwa [Bytes.size_overlay]
  isWrittenAt_filled := isWrittenAt_of_room
  filled_comm _ h := Bytes.overlay_comm (by simpa only [Array.length_toList] using h)

end Output

end ManagedImage
