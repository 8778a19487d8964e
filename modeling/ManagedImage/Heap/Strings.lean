import ManagedImage.Bytes.Buffer
import ManagedImage.Error

/-!
# String heaps

A string heap holds texts in UTF-8, each ended by a zero byte.  A text is found
by the index of its first byte, and every index inside a text finds the rest of
it.

## Main definitions

* `StringHeap` — a heap, which starts with the empty text.
* `StringHeap.get` — the text at an index.
-/

namespace ManagedImage

/-- A heap of texts. -/
structure StringHeap where
  /-- The bytes of the heap. -/
  data : Bytes
  /-- The first text is empty. -/
  starts_empty : data[0]? = some 0

namespace StringHeap

/-- The heap in the given bytes. -/
def ofBytes (data : Bytes) : Except Error StringHeap :=
  if h : data[0]? = some 0 then .ok ⟨data, h⟩ else .error (.malformed .emptyStringHeap)

/-- The length of the heap. -/
def size (h : StringHeap) : Nat := h.data.size

/-- The heap holds nothing but the empty text. -/
def isEmpty (h : StringHeap) : Bool := h.size ≤ 1

/-- Where the first zero byte at or after `i` stands. -/
def terminator? (data : Bytes) (i : Nat) : Option Nat :=
  if h : i < data.size then
    if data[i] = 0 then some i else terminator? data (i + 1)
  else none
termination_by data.size - i

/-- The text whose bytes are those from `start` up to `stop`, if they are UTF-8. -/
def text? (data : Bytes) (start stop : Nat) : Option String :=
  String.fromUTF8? ⟨data.extract start stop⟩

/-- The text that starts at `index`. -/
def get (h : StringHeap) (index : Nat) : Except Error String :=
  if h.size ≤ index then .error .outOfBounds
  else
    match (terminator? h.data index).bind (text? h.data index) with
    | some text => .ok text
    | none => .error (.malformed (.invalidString index))

end StringHeap

end ManagedImage
