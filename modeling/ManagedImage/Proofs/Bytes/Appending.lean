import ManagedImage.Proofs.Bytes.Copying

/-!
# Writing a buffer piece by piece

What a writer has written is a list of bytes that grows at its end.  In the buffer that comes out,
each piece stands behind the pieces that were written before it, and there it is read again.

## Main definitions

* `Writer.Writes w out rest` — the writer has written `out`, and there is room for `rest`.
* `Writer.IsMalformed` — a value that has no bytes has stopped the writer.
* `Writer.WritesIf` — one or the other.

## Main results

* `Writer.Writes.put` — bytes that there is room for are written.
* `Bytes.window?_append`, `Bytes.number?_append` — a piece is read where it was written.
-/

namespace ManagedImage

namespace Bytes

/-- A piece stands behind the bytes in front of it. -/
theorem extract_append (before bytes after : List UInt8) :
    (before ++ (bytes ++ after)).toArray.extract before.length (before.length + bytes.length)
      = bytes.toArray := by
  rw [List.extract_toArray, List.extract_eq_take_drop, Nat.add_sub_cancel_left, List.drop_left,
    List.take_left]

theorem window?_append (before bytes after : List UInt8) :
    window? (before ++ (bytes ++ after)).toArray before.length bytes.length = some bytes := by
  rw [window?_eq_some_iff, extract_append]
  refine ⟨?_, rfl⟩
  rw [List.size_toArray, List.length_append, List.length_append]
  omega

/-- A number that fits its bytes is read again. -/
theorem number?_append {width n : Nat} (h : n < 256 ^ width) (before after : List UInt8) :
    number? (before ++ (LittleEndian.encode width n ++ after)).toArray before.length width
      = some n := by
  have hwindow := window?_append before (LittleEndian.encode width n) after
  rw [LittleEndian.length_encode] at hwindow
  rw [number?, hwindow, Option.map_some, LittleEndian.decode_encode_of_lt h]

end Bytes

namespace Writer

/-- The writer has written `out`, and there is just room for `rest`. -/
def Writes (w : Writer) (out rest : List UInt8) : Prop :=
  w.Copies (out ++ rest).toArray out.length

variable {w : Writer} {out bytes rest : List UInt8} {P Q : Prop}

namespace Writes

theorem start (rest : List UInt8) : (Writer.start (.zeros rest.length) 0).Writes [] rest :=
  Copies.start rest.toArray

/-- Bytes that there is room for are written. -/
theorem put (h : w.Writes out (bytes ++ rest)) : (w.put bytes).Writes (out ++ bytes) rest := by
  have hput := Copies.put h (Bytes.window?_append out bytes rest)
  rw [← List.append_assoc, ← List.length_append] at hput
  exact hput

theorem putNumber {width n : Nat} (h : w.Writes out (LittleEndian.encode width n ++ rest)) :
    (w.putNumber width n).Writes (out ++ LittleEndian.encode width n) rest := h.put

/-- When there is no room left, the buffer is what has been written. -/
theorem data_eq (h : w.Writes out []) : w.data = out.toArray := by
  have hsize : w.data.size = out.length := by
    rw [h.size, List.append_nil, List.size_toArray]
  refine Array.ext_getElem? fun i => ?_
  by_cases hi : i < out.length
  · have hget := h.getElem? i hi
    rwa [List.append_nil] at hget
  · have hi := Nat.le_of_not_lt hi
    rw [Array.getElem?_eq_none (by rw [hsize]; exact hi), Array.getElem?_eq_none hi]

end Writes

/-- A value that has no bytes has stopped the writer. -/
def IsMalformed (w : Writer) : Prop := ∃ e, w.error? = some (.malformed e)

namespace IsMalformed

theorem put (h : w.IsMalformed) (bytes : List UInt8) : (w.put bytes).IsMalformed := by
  obtain ⟨e, he⟩ := h
  exact ⟨e, by rw [put_of_stopped (by rw [he]; rfl), he]⟩

/-- The first error stays. -/
theorem stop (h : w.IsMalformed) (e : Error) : (w.stop e).IsMalformed := by
  obtain ⟨e', he⟩ := h
  exact ⟨e', by rw [Writer.stop, he]; exact he⟩

end IsMalformed

theorem isMalformed_stop {e : Malformation} (h : w.error? = none) :
    (w.stop (.malformed e)).IsMalformed :=
  ⟨e, by rw [Writer.stop, h]⟩

/-- The writer has written `out` where `P` holds, and else a value without bytes has stopped it. -/
structure WritesIf (w : Writer) (P : Prop) (out rest : List UInt8) : Prop where
  writes : P → w.Writes out rest
  malformed : ¬P → w.IsMalformed

namespace WritesIf

/-- What writes bytes or is stopped, depending on `Q`, and leaves a stopped writer stopped. -/
theorem step {f : Writer → Writer} (h : w.WritesIf P out (bytes ++ rest))
    (hwrites : Q → w.Writes out (bytes ++ rest) → (f w).Writes (out ++ bytes) rest)
    (hmalformed : ¬Q → w.Writes out (bytes ++ rest) → (f w).IsMalformed)
    (hstopped : w.IsMalformed → (f w).IsMalformed) :
    (f w).WritesIf (P ∧ Q) (out ++ bytes) rest := by
  constructor
  · rintro ⟨hP, hQ⟩
    exact hwrites hQ (h.writes hP)
  · intro hPQ
    by_cases hP : P
    · exact hmalformed (fun hQ => hPQ ⟨hP, hQ⟩) (h.writes hP)
    · exact hstopped (h.malformed hP)

theorem congr (h : w.WritesIf P out rest) (hPQ : P ↔ Q) : w.WritesIf Q out rest := by
  rwa [← propext hPQ]

end WritesIf

end Writer

end ManagedImage
