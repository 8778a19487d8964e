import ManagedImage.Bytes.Writer
import ManagedImage.Table.Widths

/-!
# Stream headers

The header of a tables stream starts with 24 fixed bytes, among them a mask of
the tables that are present.  One row count follows for each bit of the mask, in
bit order, whether or not the bit belongs to a defined table, and one more word
if the flags say so.

## Main definitions

* `TableMask` — a set of table numbers below 64.
* `StreamHeader` — a header.
* `StreamHeader.read`, `StreamHeader.write` — decode and encode it.
* `StreamHeader.ofCounts` — the header for given row counts.
-/

namespace ManagedImage

/-- A set of table numbers, one bit each. -/
structure TableMask where
  /-- Bit `n` stands for table number `n`. -/
  bits : UInt64
  deriving DecidableEq, Repr, Inhabited

namespace TableMask

/-- Table number `n` is in the mask. -/
def has (m : TableMask) (n : Nat) : Bool := m.bits.toNat.testBit n

/-- The table is in the mask. -/
def contains (m : TableMask) (t : TableId) : Bool := m.has t.index

/-- The numbers in the mask, in order. -/
def members (m : TableMask) : List Nat := (List.range 64).filter m.has

/-- How many numbers are in the mask. -/
def count (m : TableMask) : Nat := m.members.length

/-- The tables in the mask, in order. -/
def tables (m : TableMask) : List TableId := TableId.all.filter m.contains

/-- The bit of a table. -/
def bit (t : TableId) : UInt64 := (1 : UInt64) <<< UInt64.ofNat t.index

/-- The mask of the tables that satisfy `p`. -/
def ofTables (p : TableId → Bool) : TableMask :=
  ⟨(TableId.all.filter p).foldl (fun bits t => bits ||| bit t) 0⟩

end TableMask

/-- The header of a tables stream. -/
structure StreamHeader where
  /-- A word that should be zero. -/
  reserved : UInt32
  /-- The version in front of the point. -/
  major : UInt8
  /-- The version behind the point. -/
  minor : UInt8
  /-- Widths of heap indexes, and whether an extra word is there. -/
  flags : StreamFlags
  /-- A size hint that nothing depends on. -/
  log2 : UInt8
  /-- The tables that are present, with bits past the defined tables too. -/
  valid : TableMask
  /-- The tables that are sorted. -/
  sorted : TableMask
  /-- The row count of each bit of `valid`; the others are zero. -/
  counts : Vector UInt32 64
  /-- The extra word. -/
  extra? : Option UInt32
  deriving DecidableEq, Repr

namespace StreamHeader

/-- The length of the part in front of the row counts. -/
def fixedSize : Nat := 24

/-- The row count at bit `n`. -/
def countAt (h : StreamHeader) (n : Nat) : UInt32 := h.counts[n]?.getD 0

/-- The row count of a table. -/
def rowCount (h : StreamHeader) (t : TableId) : UInt32 := h.countAt t.index

/-- The row counts of all defined tables. -/
def rowCounts (h : StreamHeader) : PerTable UInt32 := PerTable.ofFn h.rowCount

/-- The bits of the mask that belong to no defined table. -/
def unknownBits (h : StreamHeader) : List Nat :=
  h.valid.members.filter fun n => TableId.count ≤ n

/-- The widths of references that the header fixes. -/
def widths (h : StreamHeader) : Widths := ⟨h.rowCounts, h.flags⟩

/-- The length of the header in bytes. -/
def size (h : StreamHeader) : Nat :=
  fixedSize + 4 * h.valid.count + (if h.extra?.isSome then 4 else 0)

/-- The header of a stream with the given row counts; tables without rows are not present. -/
def ofCounts (major minor : UInt8) (flags : StreamFlags) (rows : PerTable UInt32)
    (sorted : TableMask) (extra? : Option UInt32) : StreamHeader where
  reserved := 0
  major := major
  minor := minor
  flags := flags.withExtraData extra?.isSome
  log2 := 1
  valid := TableMask.ofTables fun t => rows.get t != 0
  sorted := sorted
  counts := Vector.ofFn fun i =>
    match TableId.ofIndex? i.val with
    | some t => rows.get t
    | none => 0
  extra? := extra?

/-- The number of `width` bytes at `offset`, or an error where the buffer ends too early. -/
def field (data : Bytes) (offset width : Nat) : Except Error Nat :=
  match data.number? offset width with
  | some n => .ok n
  | none => .error .outOfBounds

/-- Reads one row count for each of the bits from `offset` on, and gives the offset behind them. -/
def readCounts (data : Bytes) :
    (bits : List Nat) → (offset : Nat) → Vector UInt32 64 → Except Error (Vector UInt32 64 × Nat)
  | [], offset, counts => .ok (counts, offset)
  | n :: bits, offset, counts => do
    let rows ← field data offset 4
    readCounts data bits (offset + 4) (counts.setIfInBounds n (UInt32.ofNat rows))

/-- Decodes the header at the start of `data`. -/
def read (data : Bytes) : Except Error StreamHeader := do
  if data.size < fixedSize then
    throw (.malformed (.streamTooShort data.size))
  let reserved := UInt32.ofNat (← field data 0 4)
  let major := UInt8.ofNat (← field data 4 1)
  let minor := UInt8.ofNat (← field data 5 1)
  let flags := StreamFlags.mk (UInt8.ofNat (← field data 6 1))
  let log2 := UInt8.ofNat (← field data 7 1)
  let valid := TableMask.mk (UInt64.ofNat (← field data 8 8))
  let sorted := TableMask.mk (UInt64.ofNat (← field data 16 8))
  let (counts, offset) ← readCounts data valid.members fixedSize (Vector.replicate 64 0)
  let extra? ←
    if flags.extraData then
      pure (some (UInt32.ofNat (← field data offset 4)))
    else
      pure none
  return { reserved, major, minor, flags, log2, valid, sorted, counts, extra? }

/-- Encodes the header field by field. -/
def write (h : StreamHeader) (w : Writer) : Writer :=
  let w := w.putNumber 4 h.reserved.toNat
  let w := w.putNumber 1 h.major.toNat
  let w := w.putNumber 1 h.minor.toNat
  let w := w.putNumber 1 h.flags.bits.toNat
  let w := w.putNumber 1 h.log2.toNat
  let w := w.putNumber 8 h.valid.bits.toNat
  let w := w.putNumber 8 h.sorted.bits.toNat
  let w := h.valid.members.foldl (fun w n => w.putNumber 4 (h.countAt n).toNat) w
  match h.extra? with
  | some extra => w.putNumber 4 extra.toNat
  | none => w

end StreamHeader

end ManagedImage
