import ManagedImage.Stream.Header
import ManagedImage.Table.Row

/-!
# Building a tables stream

A builder collects rows; the widths of their columns are known only when the
stream is built.

## Main definitions

* `StreamBuilder` — the rows and header fields collected so far.
* `StreamBuilder.setVersion`, `StreamBuilder.setFlags`, `StreamBuilder.setSorted`,
  `StreamBuilder.setExtraData` — set a header field.
* `StreamBuilder.push` — adds a row and gives its token.
* `StreamBuilder.build` — the bytes of the stream.
-/

namespace ManagedImage

/-- A tables stream under construction. -/
structure StreamBuilder where
  /-- The version in front of the point. -/
  major : UInt8
  /-- The version behind the point. -/
  minor : UInt8
  /-- The flags; the one for the extra word is set when the stream is built. -/
  flags : StreamFlags
  /-- The tables that are sorted. -/
  sorted : TableMask
  /-- The extra word. -/
  extra? : Option UInt32
  /-- The column values of the rows of each table. -/
  rows : PerTable (Array (List UInt32))

namespace StreamBuilder

/-- A stream without rows, version 2.0. -/
def empty : StreamBuilder := ⟨2, 0, ⟨0⟩, ⟨0⟩, none, PerTable.replicate #[]⟩

instance : Inhabited StreamBuilder := ⟨empty⟩

/-- Sets the version. -/
def setVersion (b : StreamBuilder) (major minor : UInt8) : StreamBuilder := { b with major, minor }

/-- Sets the flags. -/
def setFlags (b : StreamBuilder) (flags : StreamFlags) : StreamBuilder := { b with flags }

/-- Sets the mask of the sorted tables. -/
def setSorted (b : StreamBuilder) (sorted : TableMask) : StreamBuilder := { b with sorted }

/-- Adds the extra word. -/
def setExtraData (b : StreamBuilder) (word : UInt32) : StreamBuilder :=
  { b with extra? := some word }

/-- How many rows a table has. -/
def rowCount (b : StreamBuilder) (t : TableId) : UInt32 :=
  UInt32.ofNat (min (b.rows.get t).size 0xFFFFFFFF)

/-- Adds a row to a table. -/
def add (b : StreamBuilder) (t : TableId) (values : List UInt32) : StreamBuilder :=
  { b with rows := b.rows.modify t (·.push values) }

/-- Adds a row to a table and gives the token of the row. -/
def push (b : StreamBuilder) (t : TableId) (values : List UInt32) : Token × StreamBuilder :=
  let b := b.add t values
  (Token.ofRow t (b.rowCount t), b)

/-- Adds a row to a table several times and gives the token of the last one. -/
def pushTimes (b : StreamBuilder) (t : TableId) (values : List UInt32) :
    (times : Nat) → Option Token × StreamBuilder
  | 0 => (none, b)
  | 1 => let (token, b) := b.push t values; (some token, b)
  | n + 1 => (b.add t values).pushTimes t values n

/-- The row counts of all tables. -/
def rowCounts (b : StreamBuilder) : PerTable UInt32 := PerTable.ofFn b.rowCount

/-- The header of the stream. -/
def header (b : StreamBuilder) : StreamHeader :=
  StreamHeader.ofCounts b.major b.minor b.flags b.rowCounts b.sorted b.extra?

/-- How the rows of each table will be laid out. -/
def layouts (b : StreamBuilder) : PerTable Layout :=
  Layout.resolveAll ⟨b.rowCounts, b.header.flags⟩

/-- The rows of a table, with their numbers. -/
def tableRows (b : StreamBuilder) (t : TableId) : List Row :=
  (b.rows.get t).toList.mapIdx fun i values => Row.ofValues t (UInt32.ofNat (i + 1)) values

/-- The bytes of the stream. -/
def build (b : StreamBuilder) : Except Error Bytes :=
  let header := b.header
  let layouts := b.layouts
  let size := TableId.all.foldr (fun t n => (b.rowCount t).toNat * (layouts.get t).rowSize + n) 0
  let w := header.write (.start (.zeros (header.size + size)) 0)
  let w := TableId.all.foldl
    (fun w t => (b.tableRows t).foldl (fun w row => row.writeMatching (layouts.get t) w) w) w
  w.result w.data

end StreamBuilder

end ManagedImage
