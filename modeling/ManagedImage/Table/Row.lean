import ManagedImage.Bytes.Writer
import ManagedImage.Table.Layout

/-!
# Rows

A row holds one number for each of its fields.  It is read and written field by
field through the columns of a layout, from left to right; the first column that
is missing or does not go through ends the matter, and the columns before it have
been passed.

## Main definitions

* `Row` — the values of a row with its place.
* `Row.read` — decodes a row.
* `Row.write` — encodes a row.
-/

namespace ManagedImage

namespace Column

/-- The value of the column at `offset` of `data`. -/
def read (c : Column) (data : Bytes) (offset : Nat) : Except Error UInt32 :=
  if c.size = 1 ∨ c.size = 2 ∨ c.size = 4 then
    match data.number? offset c.size with
    | some n => .ok (UInt32.ofNat n)
    | none => .error .outOfBounds
  else .error (.malformed (.unsupportedWidth c.name c.size))

/-- The bytes that hold `value` in this column. -/
def encode (c : Column) (value : UInt32) : Except Error (List UInt8) :=
  if c.size = 1 then
    if value.toNat < 256 then .ok (LittleEndian.encode 1 value.toNat)
    else .error (.malformed (.byteTooWide value c.name))
  else if c.size = 2 then
    if value.toNat < 65536 then .ok (LittleEndian.encode 2 value.toNat)
    else .error (.malformed (.wordTooWide value))
  else if c.size = 4 then .ok (LittleEndian.encode 4 value.toNat)
  else .error (.malformed (.unsupportedWidth c.name c.size))

/-- Reads `n` values through the columns from `offset` on.  The second part of the answer is the
offset behind the last column that was read. -/
def readAll (data : Bytes) :
    (n : Nat) → List Column → Nat → Except Error { vs : List UInt32 // vs.length = n } × Nat
  | 0, _, offset => (.ok ⟨[], rfl⟩, offset)
  | _ + 1, [], offset => (.error (.malformed .tooFewColumns), offset)
  | n + 1, c :: columns, offset =>
    match c.read data offset with
    | .error e => (.error e, offset)
    | .ok v =>
      match readAll data n columns (offset + c.size) with
      | (.error e, stop) => (.error e, stop)
      | (.ok ⟨vs, h⟩, stop) => (.ok ⟨v :: vs, congrArg (· + 1) h⟩, stop)

/-- Writes the values through the columns. -/
def writeAll : List UInt32 → List Column → Writer → Writer
  | [], _, w => w
  | _ :: _, [], w => w.stop (.malformed .tooFewColumns)
  | v :: values, c :: columns, w =>
    match c.encode v with
    | .error e => w.stop e
    | .ok bytes => writeAll values columns (w.put bytes)

end Column

/-- A row of a table. -/
structure Row where
  /-- The table of the row. -/
  table : TableId
  /-- The row number, counted from 1. -/
  rid : UInt32
  /-- Where the row starts in the bytes of its table. -/
  offset : Nat
  /-- The values of the fields. -/
  columns : List UInt32
  /-- No field is left out. -/
  length_columns : columns.length = table.arity
  deriving DecidableEq, Repr

namespace Row

/-- The token of the row. -/
def token (r : Row) : Token := Token.ofRow r.table r.rid

/-- The value of the field with the given position. -/
def column (r : Row) (i : Nat) : UInt32 := r.columns.getD i 0

/-- A row with the given values; fields without a value are zero and surplus values are
dropped. -/
def ofValues (table : TableId) (rid : UInt32) (values : List UInt32) : Row where
  table := table
  rid := rid
  offset := 0
  columns := (values ++ List.replicate table.arity 0).take table.arity
  length_columns := by simp

/-- Reads row `rid` of `table` at `offset` of `data`.  The second part of the answer is the offset
behind the last column that was read. -/
def read (table : TableId) (layout : Layout) (data : Bytes) (rid : UInt32) (offset : Nat) :
    Except Error Row × Nat :=
  match Column.readAll data table.arity layout.columns offset with
  | (.ok ⟨columns, h⟩, stop) => (.ok ⟨table, rid, offset, columns, h⟩, stop)
  | (.error e, stop) => (.error e, stop)

/-- Writes the row through any layout. -/
def write (r : Row) (layout : Layout) (w : Writer) : Writer :=
  Column.writeAll r.columns layout.columns w

/-- Writes the row through the layout of its own table only. -/
def writeMatching (r : Row) (layout : Layout) (w : Writer) : Writer :=
  if r.table = layout.table then r.write layout w
  else w.stop (.malformed (.layoutMismatch r.table layout.table))

end Row

end ManagedImage
