import ManagedImage.Table.Row

/-!
# Encoded rows

The rows of a table lie one after the other.  They are decoded on demand: by
row number, or in sequence through a cursor that keeps its own byte offset.

## Main definitions

* `Rows` — the bytes of a table with their layout.
* `Rows.row`, `Rows.get?` — a row by its number.
* `RowCursor`, `Rows.next` — the rows in sequence.

## Main results

* `Rows.readable_eq`, `Rows.forEach_eq` — what is done row by row follows the row numbers.
-/

namespace ManagedImage

/-- The encoded rows of a table. -/
structure Rows where
  /-- The table that the rows are read as. -/
  table : TableId
  /-- How the rows are laid out. -/
  layout : Layout
  /-- The number of rows. -/
  count : UInt32
  /-- The bytes of the rows. -/
  data : Bytes
  /-- The bytes are those of the rows, no more and no less. -/
  size_data : data.size = count.toNat * layout.rowSize

/-- A position in a sequence of rows. -/
structure RowCursor where
  /-- How many rows have been read. -/
  done : Nat
  /-- Where the next row starts. -/
  offset : Nat
  deriving DecidableEq, Repr

/-- The position before the first row. -/
def RowCursor.first : RowCursor := ⟨0, 0⟩

namespace Rows

/-- The first `count` rows in `data`; the bytes behind them are left away. -/
def ofBytes (table : TableId) (layout : Layout) (count : UInt32) (data : Bytes) :
    Except Error Rows :=
  if h : count.toNat * layout.rowSize ≤ data.size then
    .ok {
      table, layout, count
      data := data.extract 0 (count.toNat * layout.rowSize)
      size_data := by simp [Nat.min_eq_left h] }
  else .error .outOfBounds

/-- The row with number `rid`. -/
def row (t : Rows) (rid : UInt32) : Except Error Row :=
  if rid = 0 ∨ t.count < rid then .error (.rowOutOfRange t.layout.table rid t.count)
  else (Row.read t.table t.layout t.data rid ((rid.toNat - 1) * t.layout.rowSize)).1

/-- The row with number `rid`, if it can be read. -/
def get? (t : Rows) (rid : UInt32) : Option Row := (t.row rid).toOption

/-- The row numbers of the table. -/
def rids (t : Rows) : List UInt32 := (List.range t.count.toNat).map fun i => UInt32.ofNat (i + 1)

/-- All rows that can be read, each found by its number. -/
def readable (t : Rows) : List Row :=
  t.count.toNat.foldRev
    (fun i _ found => (t.get? (UInt32.ofNat (i + 1))).elim found (· :: found)) []

/-- Applies `op` to the `left` rows behind the first `done`, up to the first failure. -/
def forEachFrom (t : Rows) (op : Row → Except Error Unit) :
    (left done : Nat) → Except Error Unit
  | 0, _ => .ok ()
  | left + 1, done =>
    match t.row (UInt32.ofNat (done + 1)) >>= op with
    | .ok () => forEachFrom t op left (done + 1)
    | .error e => .error e

/-- Applies `op` to every row, up to the first failure. -/
def forEach (t : Rows) (op : Row → Except Error Unit) : Except Error Unit :=
  t.forEachFrom op t.count.toNat 0

theorem foldRev_elim {β : Type} (f : Nat → Option β) (n : Nat) (found : List β) :
    n.foldRev (fun i _ found => (f i).elim found (· :: found)) found =
      (List.range n).filterMap f ++ found := by
  induction n generalizing found with
  | zero => rfl
  | succ n ih =>
    rw [Nat.foldRev_succ, ih, List.range_succ, List.filterMap_append, List.append_assoc]
    cases h : f n <;> simp [h]

/-- The rows that can be read are found row number by row number. -/
theorem readable_eq (t : Rows) : t.readable = t.rids.filterMap t.get? := by
  rw [readable, foldRev_elim (fun i => t.get? (UInt32.ofNat (i + 1))), List.append_nil, rids,
    List.filterMap_map]
  rfl

theorem forEachFrom_eq (t : Rows) (op : Row → Except Error Unit) (left done : Nat) :
    t.forEachFrom op left done =
      forM (List.range' done left) fun i => t.row (UInt32.ofNat (i + 1)) >>= op := by
  induction left generalizing done with
  | zero => rfl
  | succ left ih =>
    rw [forEachFrom, List.range'_succ, List.forM_cons, ih]
    cases t.row (UInt32.ofNat (done + 1)) >>= op <;> rfl

/-- The rows are taken row number by row number. -/
theorem forEach_eq (t : Rows) (op : Row → Except Error Unit) :
    t.forEach op = forM t.rids fun rid => t.row rid >>= op := by
  rw [forEach, forEachFrom_eq, ← List.range_eq_range', rids, List.forM_map]

/-- Reads the row at the cursor.  A row that cannot be read leaves the count where it was and the
offset behind its last good column. -/
def next (t : Rows) (c : RowCursor) : Option Row × RowCursor :=
  if t.count.toNat ≤ c.done then (none, c)
  else
    match Row.read t.table t.layout t.data (UInt32.ofNat (c.done + 1)) c.offset with
    | (.ok row, stop) => (some row, ⟨c.done + 1, stop⟩)
    | (.error _, stop) => (none, ⟨c.done, stop⟩)

/-- How many rows are left behind the cursor. -/
def remaining (t : Rows) (c : RowCursor) : Nat := t.count.toNat - c.done

/-- The cursor after `n` steps, or after the first step that finds no row. -/
def advance (t : Rows) : (n : Nat) → RowCursor → RowCursor
  | 0, c => c
  | n + 1, c =>
    match t.next c with
    | (some _, c') => advance t n c'
    | (none, c') => c'

/-- The rows from the cursor on, at most `n`, added to those in `found`. -/
def collect (t : Rows) : (n : Nat) → RowCursor → (found : Array Row) → Array Row
  | 0, _, found => found
  | n + 1, c, found =>
    match t.next c with
    | (some row, c') => collect t n c' (found.push row)
    | (none, _) => found

/-- The rows in sequence, up to the first that cannot be read. -/
def toArray (t : Rows) : Array Row := t.collect t.count.toNat .first #[]

/-- Writes the rows in sequence. -/
def writeTo (t : Rows) (w : Writer) : Writer :=
  t.toArray.foldl (fun w row => row.write t.layout w) w

/-- The rows in sequence, written into a new buffer. -/
def written (t : Rows) : Writer := t.writeTo (.start (.zeros t.data.size) 0)

end Rows

end ManagedImage
