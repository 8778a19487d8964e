import ManagedImage.Bytes.Buffer
import ManagedImage.Error

/-!
# GUID heaps

A GUID heap is a row of 16-byte identifiers, numbered from 1.

## Main definitions

* `Guid`, `Guid.display` — an identifier and its text.
* `GuidHeap.get` — the identifier with a number.
-/

namespace ManagedImage

/-- A globally unique identifier. -/
structure Guid where
  /-- The sixteen bytes, as they are stored. -/
  bytes : Vector UInt8 16
  deriving DecidableEq, Repr, Inhabited

namespace Guid

/-- The identifier in a list of sixteen bytes. -/
def ofList? (bytes : List UInt8) : Option Guid :=
  if h : bytes.length = 16 then some ⟨⟨bytes.toArray, by simpa using h⟩⟩ else none

/-- The five groups of the text, as positions of the stored bytes.  The first three groups are
little-endian numbers. -/
def groups : List (List Nat) :=
  [[3, 2, 1, 0], [5, 4], [7, 6], [8, 9], [10, 11, 12, 13, 14, 15]]

/-- The text of the identifier. -/
def display (g : Guid) : String :=
  let group (positions : List Nat) : String :=
    String.join (positions.map fun i => Hex.padded 2 (g.bytes[i]?.getD 0).toNat)
  "-".intercalate (groups.map group)

end Guid

/-- A heap of identifiers. -/
structure GuidHeap where
  /-- The bytes of the heap. -/
  data : Bytes
  /-- The heap holds whole identifiers only. -/
  size_mod : data.size % 16 = 0

namespace GuidHeap

/-- The heap in the given bytes. -/
def ofBytes (data : Bytes) : Except Error GuidHeap :=
  if h : data.size % 16 = 0 then .ok ⟨data, h⟩
  else .error (.malformed (.raggedGuidHeap data.size))

/-- How many identifiers the heap holds. -/
def count (h : GuidHeap) : Nat := h.data.size / 16

/-- The identifier with the given number. -/
def get (h : GuidHeap) (index : Nat) : Except Error Guid :=
  if index = 0 ∨ h.count < index then .error .outOfBounds
  else
    match (h.data.window? ((index - 1) * 16) 16).bind Guid.ofList? with
    | some guid => .ok guid
    | none => .error .outOfBounds

end GuidHeap

end ManagedImage
