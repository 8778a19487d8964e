import ManagedImage.Table.CodedKind
import ManagedImage.Table.PerTable

/-!
# Widths of references

A column that refers to a heap or to tables is two or four bytes wide.  Which
of the two follows from the header flags and the row counts alone.

## Main definitions

* `StreamFlags` — the flag byte of the header.
* `Widths` — what the widths of one stream depend on.
* `Widths.tableBytes`, `Widths.codedBytes` — the width of a reference.
-/

namespace ManagedImage

/-- The flag byte of a stream header. -/
structure StreamFlags where
  /-- All eight bits, those without a meaning too. -/
  bits : UInt8
  deriving DecidableEq, Repr, Inhabited

namespace StreamFlags

/-- Indexes into the string heap take four bytes. -/
def largeStrings (f : StreamFlags) : Bool := f.bits &&& 0x01 != 0

/-- Indexes into the GUID heap take four bytes. -/
def largeGuids (f : StreamFlags) : Bool := f.bits &&& 0x02 != 0

/-- Indexes into the blob heap take four bytes. -/
def largeBlobs (f : StreamFlags) : Bool := f.bits &&& 0x04 != 0

/-- One more word follows the row counts. -/
def extraData (f : StreamFlags) : Bool := f.bits &&& 0x40 != 0

/-- The flags with the bit for the extra word set or cleared. -/
def withExtraData (f : StreamFlags) (present : Bool) : StreamFlags :=
  ⟨if present then f.bits ||| 0x40 else f.bits &&& 0xBF⟩

end StreamFlags

/-- What the widths of the references in a stream depend on. -/
structure Widths where
  /-- The row count of each table. -/
  rows : PerTable UInt32
  /-- The flag byte of the header. -/
  flags : StreamFlags

namespace Widths

/-- Two bytes, or four for a large reference. -/
def bytes (large : Bool) : Nat := if large then 4 else 2

/-- A table is large when its rows cannot all be numbered with two bytes. -/
def isLarge (w : Widths) (table : TableId) : Bool := (w.rows.get table).toNat > 0xFFFF

/-- The width of an index into the string heap. -/
def stringBytes (w : Widths) : Nat := bytes w.flags.largeStrings

/-- The width of an index into the GUID heap. -/
def guidBytes (w : Widths) : Nat := bytes w.flags.largeGuids

/-- The width of an index into the blob heap. -/
def blobBytes (w : Widths) : Nat := bytes w.flags.largeBlobs

/-- The width of a row number of `table`. -/
def tableBytes (w : Widths) (table : TableId) : Nat := bytes (w.isLarge table)

/-- How many rows stand behind a slot of a coded index; none behind a reserved one. -/
def slotRows (w : Widths) (slot : Option TableId) : Nat :=
  match slot with
  | some table => (w.rows.get table).toNat
  | none => 0

/-- A coded index is small while every table it may refer to has fewer rows than the bits
above the tag of a two-byte number can count. -/
def isLargeCoded (w : Widths) (kind : CodedKind) : Bool :=
  !(kind.slots.all fun slot => w.slotRows slot < 0xFFFF >>> kind.tagBits)

/-- The width of a coded index. -/
def codedBytes (w : Widths) (kind : CodedKind) : Nat := bytes (w.isLargeCoded kind)

theorem bytes_eq (large : Bool) : bytes large = 2 ∨ bytes large = 4 := by
  cases large <;> simp [bytes]

end Widths

end ManagedImage
