import ManagedImage.Bytes.Buffer
import ManagedImage.Error

/-!
# Writing into a buffer

A writer fills a buffer of fixed length from an offset on.  It stops at the
first error; what was written up to there stays.

## Main definitions

* `Writer` — a buffer, the offset reached, and the error that stopped it.
* `Writer.put` — writes bytes at the offset and moves behind them.
-/

namespace ManagedImage

/-- A buffer that is being filled. -/
structure Writer where
  /-- The buffer. -/
  data : Bytes
  /-- Where the next bytes go. -/
  offset : Nat
  /-- What stopped the writer. -/
  error? : Option Error

namespace Writer

/-- A writer at `offset` of `data`. -/
def start (data : Bytes) (offset : Nat) : Writer := ⟨data, offset, none⟩

/-- Stops the writer, unless it has stopped before. -/
def stop (w : Writer) (e : Error) : Writer :=
  match w.error? with
  | some _ => w
  | none => { w with error? := some e }

/-- Writes `bytes` if they fit in front of the end of the buffer. -/
def put (w : Writer) (bytes : List UInt8) : Writer :=
  if w.error?.isSome then w
  else if w.offset + bytes.length ≤ w.data.size then
    ⟨w.data.overlay w.offset bytes, w.offset + bytes.length, none⟩
  else { w with error? := some .outOfBounds }

/-- Writes `n` as a number of `width` bytes. -/
def putNumber (w : Writer) (width n : Nat) : Writer := w.put (LittleEndian.encode width n)

/-- The result of the writing: `a`, or the error that stopped it. -/
def result {α : Type _} (w : Writer) (a : α) : Except Error α :=
  match w.error? with
  | none => .ok a
  | some e => .error e

@[simp] theorem size_data_stop (w : Writer) (e : Error) :
    (w.stop e).data.size = w.data.size := by
  unfold stop; split <;> rfl

@[simp] theorem size_data_put (w : Writer) (bytes : List UInt8) :
    (w.put bytes).data.size = w.data.size := by
  unfold put; split
  · rfl
  · split <;> simp

@[simp] theorem put_of_stopped {w : Writer} (h : w.error?.isSome) (bytes : List UInt8) :
    w.put bytes = w := by
  simp [put, h]

/-- A writer that has not stopped writes all of the bytes or none of them. -/
theorem put_of_running {w : Writer} (h : w.error? = none) (bytes : List UInt8) :
    w.put bytes =
      if w.offset + bytes.length ≤ w.data.size then
        ⟨w.data.overlay w.offset bytes, w.offset + bytes.length, none⟩
      else { w with error? := some .outOfBounds } := by
  rw [put, h, if_neg (by simp)]

end Writer

end ManagedImage
