import ManagedImage.Config
import ManagedImage.Stream.Header
import ManagedImage.Table.Rows

/-!
# Tables streams

Behind the header of a tables stream lie the rows of all tables that are
present, table after table, and then any number of trailing bytes.

## Main definitions

* `TablesStream` — a decoded stream.
* `TablesStream.decode` — checks the header and carves the tables out.
* `TablesStream.row` — a row of a table.
* `TablesStream.written`, `TablesStream.encode` — the bytes of the stream, written anew.
-/

namespace ManagedImage

/-- A table carved out of a stream. -/
structure CarvedTable where
  /-- Where the rows start in the stream. -/
  start : Nat
  /-- Where the rows end. -/
  stop : Nat
  /-- The rows. -/
  rows : Rows

/-- A decoded tables stream. -/
structure TablesStream where
  /-- All bytes of the stream. -/
  data : Bytes
  /-- The header. -/
  header : StreamHeader
  /-- The widths of references in the stream. -/
  widths : Widths
  /-- How the rows of each table are laid out. -/
  layouts : PerTable Layout
  /-- The tables that are present. -/
  tables : PerTable (Option CarvedTable)
  /-- Where the last table ends. -/
  tablesEnd : Nat

namespace TablesStream

/-- Carves the given tables out of the stream, one behind the other from `offset` on. -/
def carve (data : Bytes) (header : StreamHeader) (layouts : PerTable Layout) :
    List TableId → (offset : Nat) → PerTable (Option CarvedTable) →
      Except Error (PerTable (Option CarvedTable) × Nat)
  | [], offset, found => .ok (found, offset)
  | t :: tables, offset, found =>
    let count := header.rowCount t
    let layout := layouts.get t
    let size := count.toNat * layout.rowSize
    if offset + size ≤ data.size then do
      let rows ← Rows.ofBytes t layout count (data.extract offset (offset + size))
      carve data header layouts tables (offset + size)
        (found.set t (some ⟨offset, offset + size, rows⟩))
    else .error (.malformed (.tablePastEnd t size offset data.size))

/-- The header must be one that the configuration accepts. -/
def checkHeader (config : Config) (header : StreamHeader) : Except Error Unit := do
  if config.strictHeader ∧ (header.reserved ≠ 0 ∨ header.major ≠ 1 ∧ header.major ≠ 2) then
    throw (.malformed (.headerRejected header.reserved header.major header.minor))
  if ¬config.allowUnknownTables ∧ header.unknownBits ≠ [] then
    throw (.malformed (.undefinedTables header.unknownBits.length))

/-- Decodes a stream. -/
def decode (config : Config) (data : Bytes) : Except Error TablesStream := do
  let header ← StreamHeader.read data
  checkHeader config header
  let widths := header.widths
  let layouts := Layout.resolveAll widths
  let (tables, tablesEnd) ←
    carve data header layouts header.valid.tables header.size (PerTable.replicate none)
  return { data, header, widths, layouts, tables, tablesEnd }

/-- The rows of a table that is present. -/
def rows? (s : TablesStream) (t : TableId) : Option Rows := (s.tables.get t).map (·.rows)

/-- The row count of a table. -/
def rowCount (s : TablesStream) (t : TableId) : UInt32 := s.header.rowCount t

/-- A row of a table; a table that is not present has no rows. -/
def row (s : TablesStream) (t : TableId) (rid : UInt32) : Except Error Row :=
  match s.rows? t with
  | some rows => rows.row rid
  | none => .error (.rowOutOfRange t rid 0)

/-- The bytes behind the last table. -/
def trailing (s : TablesStream) : Bytes := s.data.extract s.tablesEnd s.data.size

/-- Writes rows by their numbers. -/
def writeRows (rows : Rows) (w : Writer) : Writer :=
  rows.rids.foldl
    (fun w rid =>
      match rows.row rid with
      | .ok row => row.writeMatching rows.layout w
      | .error e => w.stop e) w

/-- Writes the rows of a table, if it is present. -/
def writeTable (s : TablesStream) (w : Writer) (t : TableId) : Writer :=
  match s.rows? t with
  | some rows => writeRows rows w
  | none => w

/-- The header and all rows, written into a new buffer. -/
def written (s : TablesStream) : Writer :=
  TableId.all.foldl s.writeTable (s.header.write (.start (.zeros s.data.size) 0))

/-- The bytes of the stream, written anew, and the trailing bytes behind them. -/
def encode (s : TablesStream) : Except Error Bytes :=
  let w := s.written
  match w.error? with
  | some e => .error e
  | none => .ok (w.data.overlay w.offset s.trailing.toList)

end TablesStream

end ManagedImage
