import ManagedImage.Bytes.Buffer
import ManagedImage.Error

/-!
# Blob heaps

A blob heap holds byte strings, each behind its length.  The length takes one,
two or four bytes, most significant first; the top bits of its first byte say
which.

## Main definitions

* `BlobHeap` — a heap, which starts with the empty blob.
* `BlobHeap.lengthAt` — the length in front of a blob, and how many bytes it takes.
* `BlobHeap.get` — the blob at an index.
-/

namespace ManagedImage

/-- A heap of byte strings. -/
structure BlobHeap where
  /-- The bytes of the heap. -/
  data : Bytes
  /-- The first blob is empty. -/
  starts_empty : data[0]? = some 0

namespace BlobHeap

/-- The heap in the given bytes. -/
def ofBytes (data : Bytes) : Except Error BlobHeap :=
  if h : data[0]? = some 0 then .ok ⟨data, h⟩ else .error (.malformed .emptyBlobHeap)

/-- The number with the given digits to base 256, most significant first. -/
def bigEndian (digits : List UInt8) : Nat :=
  digits.foldl (fun n b => n * 256 + b.toNat) 0

/-- The number in the `count` bytes at `offset`, most significant first. -/
def bigEndianAt (data : Bytes) (offset count : Nat) : Except Error Nat :=
  match data.window? offset count with
  | some bytes => .ok (bigEndian bytes)
  | none => .error .outOfBounds

/-- The length that stands at `index`, and how many bytes it takes. -/
def lengthAt (data : Bytes) (index : Nat) : Except Error (Nat × Nat) :=
  match data[index]? with
  | none => .error .outOfBounds
  | some first =>
    if first < 0x80 then .ok (first.toNat, 1)
    else if first < 0xC0 then do
      let low ← bigEndianAt data (index + 1) 1
      pure ((first.toNat - 0x80) * 256 + low, 2)
    else if first < 0xE0 then do
      let low ← bigEndianAt data (index + 1) 3
      pure ((first.toNat - 0xC0) * 0x1000000 + low, 4)
    else .error (.malformed (.blobLength first))

/-- The blob whose length stands at `index`. -/
def get (h : BlobHeap) (index : Nat) : Except Error Bytes := do
  let (length, width) ← lengthAt h.data index
  let start := index + width
  if h.data.size < start + length then .error .outOfBounds
  else .ok (h.data.extract start (start + length))

end BlobHeap

end ManagedImage
