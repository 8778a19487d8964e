import ManagedImage.Proofs.Stream.Decoding

/-!
# How a stream is divided

The header of a decoded stream, its tables and its trailing bytes share out the bytes of the stream:
nothing is left over and nothing is used twice.  Where a table lies follows from the row counts
alone, and so does which of its rows there are.

## Main definitions

* `StreamHeader.tableSize` — how many bytes the rows of a table take.
* `TablesStream.range?` — where a table lies.
* `TablesStream.IsDivided` — the parts of a stream lie one right behind the other.
* `TablesStream.HasRows` — a table has the rows that its row count says and no others.

## Main results

* `TablesStream.divided_of_decode` — a decoded stream is divided so and has these rows.
-/

namespace ManagedImage

/-- How many bytes the rows of a table take. -/
def StreamHeader.tableSize (h : StreamHeader) (t : TableId) : Nat :=
  (h.rowCount t).toNat * (Layout.resolve h.widths t).rowSize

/-- A carved table is as long as its rows. -/
theorem CarvedTable.Holds.stop_eq {c : CarvedTable} {data : Bytes} {header : StreamHeader}
    {t : TableId} (h : c.Holds data header t) : c.stop = c.start + header.tableSize t := by
  rw [h.stop, h.resolved, h.count, h.table, StreamHeader.tableSize]

/-- Rows are found again in their own bytes. -/
theorem Rows.ofBytes_data (rows : Rows) :
    ofBytes rows.table rows.layout rows.count rows.data = .ok rows := by
  obtain ⟨table, layout, count, data, hsize⟩ := rows
  rw [ofBytes, dif_pos hsize.ge]
  congr 2
  exact Array.extract_eq_self_of_le hsize.le

namespace TablesStream

/-- Where a table starts and where it stops, if it is there. -/
def range? (s : TablesStream) (t : TableId) : Option (Nat × Nat) :=
  (s.tables.get t).map fun c => (c.start, c.stop)

/-- The bytes of a table, if it is there. -/
def tableData? (s : TablesStream) (t : TableId) : Option Bytes :=
  (s.range? t).map fun (start, stop) => s.data.extract start stop

/-- The rows of a table, taken out of the stream anew; none if its bytes do not hold them. -/
def reread? (s : TablesStream) (t : TableId) : Option Rows :=
  (s.tableData? t).bind fun bytes =>
    (Rows.ofBytes t (s.layouts.get t) (s.rowCount t) bytes).toOption

/-- How many bytes the rows of a table take. -/
def tableSize (s : TablesStream) (t : TableId) : Nat :=
  (s.rowCount t).toNat * (s.layouts.get t).rowSize

/-- The parts of the stream lie one right behind the other. -/
structure IsDivided (s : TablesStream) : Prop where
  /-- The tables of the mask are there. -/
  isSome_range : ∀ t, (s.range? t).isSome = s.header.valid.contains t
  /-- The first table starts behind the header, every other one behind those in front of it, and
  each is as long as its rows. -/
  range_eq : ∀ before t after, s.header.valid.tables = before ++ t :: after →
    s.range? t = some (s.header.size + (before.map s.tableSize).sum,
      s.header.size + (before.map s.tableSize).sum + s.tableSize t)
  /-- The trailing bytes start behind the last table. -/
  tablesEnd : s.tablesEnd = s.header.size + (s.header.valid.tables.map s.tableSize).sum
  /-- All bytes are in the header, in a table or behind the tables. -/
  bytes : (s.data.extract 0 s.header.size).toList ++
    s.header.valid.tables.flatMap (fun t => ((s.tableData? t).getD #[]).toList) ++
      s.trailing.toList = s.data.toList

/-- Every table has the rows that its row count says and no others. -/
structure HasRows (s : TablesStream) : Prop where
  /-- The rows are there where the table is. -/
  isSome_rows : ∀ t, (s.rows? t).isSome = (s.range? t).isSome
  /-- They are those that the bytes of the table hold. -/
  rows_eq : ∀ t, s.rows? t = s.reread? t
  /-- A row that there is can be read, and knows its place. -/
  row_eq_ok : ∀ t rid, rid ≠ 0 → rid ≤ s.rowCount t → ∃ r, s.row t rid = .ok r ∧
    r.table = t ∧ r.rid = rid ∧ r.token = Token.ofRow t rid ∧
    r.offset = (rid.toNat - 1) * (s.layouts.get t).rowSize
  /-- Any other row is out of range. -/
  row_eq_error : ∀ t rid, ¬(rid ≠ 0 ∧ rid ≤ s.rowCount t) →
    s.row t rid = .error (.rowOutOfRange t rid (s.rowCount t))

variable {s : TablesStream} {data : Bytes} {config : Config} {t : TableId} {rid : UInt32}

/-! ### Tables one behind the other -/

namespace Tiled

variable {start stop : Nat} {tables before after : List TableId}

theorem start_le (h : Tiled s.data s.header s.tables tables start stop) : start ≤ stop := by
  induction h with
  | nil => exact Nat.le_refl _
  | cons _ hholds _ ih => exact Nat.le_trans hholds.start_le ih

/-- Each table starts behind those in front of it. -/
theorem exists_start_eq (h : Tiled s.data s.header s.tables tables start stop)
    (htables : tables = before ++ t :: after) :
    ∃ c, s.tables.get t = some c ∧ c.Holds s.data s.header t ∧
      c.start = start + (before.map s.header.tableSize).sum := by
  induction h generalizing before with
  | nil => exact absurd htables (by simp)
  | @cons u tables c stop hc hholds _ ih =>
    cases before with
    | nil =>
      obtain ⟨rfl, rfl⟩ := List.cons.inj htables
      exact ⟨c, hc, hholds, rfl⟩
    | cons v before =>
      obtain ⟨rfl, rfl⟩ := List.cons.inj htables
      obtain ⟨d, hd, hdholds, hstart⟩ := ih rfl
      refine ⟨d, hd, hdholds, ?_⟩
      rw [hstart, hholds.stop_eq, List.map_cons, List.sum_cons, Nat.add_assoc]

/-- Together the tables are as long as their rows. -/
theorem stop_eq (h : Tiled s.data s.header s.tables tables start stop) :
    stop = start + (tables.map s.header.tableSize).sum := by
  induction h with
  | nil => rfl
  | cons _ hholds _ ih => rw [ih, hholds.stop_eq, List.map_cons, List.sum_cons, Nat.add_assoc]

/-- The bytes of the tables, table after table, are those of the stream. -/
theorem flatMap_tableData (h : Tiled s.data s.header s.tables tables start stop) :
    tables.flatMap (fun t => ((s.tableData? t).getD #[]).toList) =
      (s.data.extract start stop).toList := by
  induction h with
  | nil => simp
  | @cons u tables c stop hc hholds htables ih =>
    have hdata : s.tableData? u = some (s.data.extract c.start c.stop) := by
      rw [tableData?, range?, hc]
      rfl
    rw [List.flatMap_cons, ih, hdata, Option.getD_some, ← Array.toList_append,
      Array.extract_append_extract, Nat.min_eq_left hholds.start_le,
      Nat.max_eq_right htables.start_le]

end Tiled

/-! ### Decoded streams -/

/-- The layouts of a decoded stream are those that its header fixes. -/
theorem layouts_of_decode (h : decode config data = .ok s) :
    s.layouts = Layout.resolveAll s.header.widths := by
  obtain ⟨header, -, h⟩ := exists_of_bind_eq_ok h
  obtain ⟨⟨⟩, -, h⟩ := exists_of_bind_eq_ok h
  obtain ⟨⟨tables, stop⟩, -, h⟩ := exists_of_bind_eq_ok h
  obtain rfl := Except.ok.inj h
  rfl

theorem get_layouts (h : s.layouts = Layout.resolveAll s.header.widths) :
    s.layouts.get t = Layout.resolve s.header.widths t := by
  rw [h, Layout.resolveAll, PerTable.get_ofFn]

theorem tableSize_eq (h : s.layouts = Layout.resolveAll s.header.widths) :
    s.tableSize = s.header.tableSize := by
  funext t
  rw [tableSize, StreamHeader.tableSize, get_layouts h, rowCount]

namespace IsDecoded

theorem isSome_range (h : s.IsDecoded) (t : TableId) :
    (s.range? t).isSome = s.header.valid.contains t := by
  rw [range?, Option.isSome_map]
  by_cases ht : t ∈ s.header.valid.tables
  · obtain ⟨c, hc, -⟩ := h.tiled.exists_of_mem ht
    rw [hc, (List.mem_filter.mp ht).2]
    rfl
  · have hcontains : s.header.valid.contains t ≠ true :=
      fun hcontains => ht (List.mem_filter.mpr ⟨t.mem_all, hcontains⟩)
    rw [h.absent t ht, Bool.eq_false_of_not_eq_true hcontains]
    rfl

/-- The parts of a decoded stream lie one right behind the other. -/
theorem isDivided (h : s.IsDecoded) (hlayouts : s.layouts = Layout.resolveAll s.header.widths) :
    s.IsDivided where
  isSome_range := h.isSome_range
  range_eq before t after htables := by
    obtain ⟨c, hc, hholds, hstart⟩ := h.tiled.exists_start_eq htables
    rw [range?, hc, tableSize_eq hlayouts, Option.map_some, hholds.stop_eq, hstart]
  tablesEnd := by rw [h.tiled.stop_eq, tableSize_eq hlayouts]
  bytes := by
    have hdata : s.data.extract 0 s.header.size ++ s.data.extract s.header.size s.tablesEnd ++
        s.data.extract s.tablesEnd s.data.size = s.data := by
      simp only [Array.extract_append_extract, Nat.zero_min, Nat.max_eq_right h.tiled.start_le,
        Nat.max_eq_right h.tiled.stop_le, Array.extract_size]
    rw [h.tiled.flatMap_tableData, trailing, ← Array.toList_append, ← Array.toList_append, hdata]

/-- The rows of a table are those that its bytes hold. -/
theorem rows_eq_reread (h : s.IsDecoded)
    (hlayouts : s.layouts = Layout.resolveAll s.header.widths) (t : TableId) :
    s.rows? t = s.reread? t := by
  cases hc : s.tables.get t with
  | none => rw [rows?, reread?, tableData?, range?, hc]; rfl
  | some c =>
    have hholds := h.holds hc
    have hlayout : s.layouts.get t = c.rows.layout := by
      rw [get_layouts hlayouts, hholds.resolved, hholds.table]
    have hdata : s.tableData? t = some c.rows.data := by
      rw [tableData?, range?, hc, hholds.bytes]
      rfl
    rw [rows?, reread?, hc, hdata, Option.bind_some, hlayout, rowCount, ← hholds.count,
      ← hholds.table, Rows.ofBytes_data]
    rfl

/-- A row that there is can be read, and knows its place. -/
theorem row_eq_ok (h : s.IsDecoded) (hlayouts : s.layouts = Layout.resolveAll s.header.widths)
    (hpos : rid ≠ 0) (hrid : rid ≤ s.rowCount t) :
    ∃ r, s.row t rid = .ok r ∧ r.table = t ∧ r.rid = rid ∧ r.token = Token.ofRow t rid ∧
      r.offset = (rid.toNat - 1) * (s.layouts.get t).rowSize := by
  obtain ⟨c, hc, hholds, hmem⟩ := h.exists_carved hpos hrid
  obtain ⟨r, htable, hr, hoffset, hrow, -⟩ := Rows.exists_row hholds.resolved.isRegular hmem
  refine ⟨r, ?_, htable.trans hholds.table, hr, ?_, ?_⟩
  · rw [row, rows?, hc]
    exact hrow
  · rw [Row.token, htable, hholds.table, hr]
  · rw [hoffset, get_layouts hlayouts, hholds.resolved, hholds.table]

/-- A row that there is not is out of range, whether or not its table is there. -/
theorem row_eq_error (h : s.IsDecoded) (hrid : ¬(rid ≠ 0 ∧ rid ≤ s.rowCount t)) :
    s.row t rid = .error (.rowOutOfRange t rid (s.rowCount t)) := by
  cases hc : s.tables.get t with
  | none =>
    have hcount : s.rowCount t = 0 := by
      by_contra hcount
      obtain ⟨c, hc', -⟩ := h.tiled.exists_of_mem (h.mem_tables hcount)
      exact absurd (hc.symm.trans hc') (by simp)
    rw [row, rows?, hc, hcount]
    rfl
  | some c =>
    have hholds := h.holds hc
    have hcount : c.rows.count = s.rowCount t := hholds.count
    have hout : rid = 0 ∨ c.rows.count < rid := by
      rw [hcount, ← UInt32.not_le]
      exact not_and_or.mp hrid |>.imp_left not_not.mp
    rw [row, rows?, hc, Option.map_some]
    dsimp only
    rw [Rows.row, if_pos hout, hholds.resolved, Layout.table_resolve, hholds.table, hcount]

/-- Every table of a decoded stream has the rows that its row count says and no others. -/
theorem hasRows (h : s.IsDecoded) (hlayouts : s.layouts = Layout.resolveAll s.header.widths) :
    s.HasRows where
  isSome_rows t := by rw [rows?, range?, Option.isSome_map, Option.isSome_map]
  rows_eq := h.rows_eq_reread hlayouts
  row_eq_ok _ _ := h.row_eq_ok hlayouts
  row_eq_error _ _ := h.row_eq_error

end IsDecoded

/-- **A decoded stream is divided into its header, its tables and its trailing bytes, and has the
rows that its row counts say.** -/
theorem divided_of_decode (h : decode config data = .ok s) :
    s.data = data ∧ s.IsDivided ∧ s.HasRows := by
  have hlayouts := layouts_of_decode h
  obtain ⟨hdata, hdecoded⟩ := isDecoded_of_decode h
  exact ⟨hdata, hdecoded.isDivided hlayouts, hdecoded.hasRows hlayouts⟩

/-- Two modules, a table without rows, one type and three trailing bytes. -/
def padded : Bytes :=
  #[0, 0, 0, 0, 2, 0, 0, 1,
    0x07, 0, 0, 0, 0, 0, 0, 0, 0, 0, 0, 0, 0, 0, 0, 0,
    2, 0, 0, 0, 0, 0, 0, 0, 1, 0, 0, 0,
    0, 0, 1, 0, 1, 0, 0, 0, 0, 0, 0, 0, 2, 0, 1, 0, 0, 0, 0, 0,
    0, 0, 0, 0, 1, 0, 0, 0, 0, 0, 1, 0, 1, 0, 0xAB, 0xCD, 0xEF]

theorem divided_padded : ∃ s, decode .strict padded = .ok s ∧
    s.data = padded ∧ s.IsDivided ∧ s.HasRows := by
  have hdecode : (decode .strict padded).isOk = true := by decide +kernel
  cases h : decode .strict padded with
  | error e => exact absurd hdecode (by simp [h, Except.isOk, Except.toBool])
  | ok s => exact ⟨s, rfl, divided_of_decode h⟩

end TablesStream

end ManagedImage
