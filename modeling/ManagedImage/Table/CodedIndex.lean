import ManagedImage.Error

/-!
# Coded indexes

A coded index is one number that refers to a row of one of several tables.  Its
low bits, the tag, choose the table from the slots of the index's kind; the
bits above are the row number.  Some slots are reserved and choose no table.

## Main definitions

* `CodedKind.encode` — packs a table and a row number.
* `CodedKind.decode` — splits a packed number into a `CodedIndex`.
-/

namespace ManagedImage

/-- A decoded reference: a table and a row number in it. -/
structure CodedIndex where
  /-- The table referred to. -/
  table : TableId
  /-- The row number, 0 for no row. -/
  row : UInt32
  deriving DecidableEq, Repr

namespace CodedIndex

/-- The token of the row, which keeps the low 24 bits of the row number. -/
def token (i : CodedIndex) : Token := Token.ofRow i.table i.row

/-- An index with row 0 refers to nothing. -/
def isNull (i : CodedIndex) : Bool := i.row == 0

end CodedIndex

namespace CodedKind

/-- Packs a row number above the tag of its table. -/
def encode (k : CodedKind) (table : TableId) (row : UInt32) : Except Error UInt32 :=
  match k.tagOf? table with
  | none => .error (.malformed (.notACandidate table k))
  | some tag =>
    if row > (0xFFFFFFFF : UInt32) >>> UInt32.ofNat k.tagBits then
      .error (.malformed (.codedRowTooWide row k))
    else
      .ok ((row <<< UInt32.ofNat k.tagBits) ||| UInt32.ofNat tag)

/-- Splits a packed number; the tag must choose a table. -/
def decode (k : CodedKind) (value : UInt32) : Except Error CodedIndex :=
  let tag := (value &&& k.tagMask).toNat
  match k.slots[tag]? with
  | some (some table) => .ok ⟨table, value >>> UInt32.ofNat k.tagBits⟩
  | some none => .error (.malformed (.reservedTag k value tag))
  | none => .error (.malformed (.invalidTag k value tag))

end CodedKind

end ManagedImage
