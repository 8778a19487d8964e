import ManagedImage.Bytes.Buffer
import ManagedImage.Error

/-!
# Sinks

A sink is written at a position that can be moved to any offset.

## Main definitions

* `Sink` — what a sink can do.
* `GrowingBuffer` — a sink in memory that grows as needed.
-/

namespace ManagedImage

/-- Something that can be moved to an offset and written there. -/
class Sink (S : Type) where
  /-- Moves to an offset from the start, or fails. -/
  seek : UInt64 → S → Except Error Unit × S
  /-- Writes all bytes at the position and moves behind them, or fails. -/
  writeAll : Bytes → S → Except Error Unit × S

/-- A buffer that grows when it is written past its end. -/
structure GrowingBuffer where
  /-- The bytes. -/
  data : Bytes
  /-- Where the next bytes go. -/
  position : Nat
  deriving DecidableEq, Repr

namespace GrowingBuffer

/-- A buffer with the given bytes, at its start. -/
def ofBytes (data : Bytes) : GrowingBuffer := ⟨data, 0⟩

/-- The bytes, filled up with zeros to `size` bytes if there are fewer. -/
def padded (data : Bytes) (size : Nat) : Bytes :=
  data ++ Bytes.zeros (size - data.size)

/-- Moves to an offset from the start. -/
def seek (offset : UInt64) (b : GrowingBuffer) : GrowingBuffer :=
  { b with position := offset.toNat }

/-- Writes at the position.  A gap in front of the position is filled with zeros first, even if
there is nothing to write. -/
def write (bytes : Bytes) (b : GrowingBuffer) : GrowingBuffer :=
  let stop := b.position + bytes.size
  ⟨Bytes.overlay (padded b.data stop) b.position bytes.toList, stop⟩

instance : Sink GrowingBuffer where
  seek offset b := (.ok (), b.seek offset)
  writeAll bytes b := (.ok (), b.write bytes)

@[simp] theorem size_padded (data : Bytes) (size : Nat) :
    (padded data size).size = max data.size size := by
  simp [padded]; omega

end GrowingBuffer

end ManagedImage
