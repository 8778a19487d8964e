import ManagedImage.Proofs.Table.Reading

/-!
# Copying rows

With the layout that a stream gives a table, every row of the table can be read, and a row that has
been read can be written and gives the same bytes again.

## Main definitions

* `Rows.IsResolved` — the rows have a layout that a stream gives their table.

## Main results

* `Rows.exists_row` — rows can be read.
* `Writer.Copies.writeAll`, `Writer.Copies.row` — rows that have been read are copied.
-/

namespace ManagedImage

/-- Columns that have been read from a part of a buffer are copied. -/
theorem Writer.Copies.writeAll {data : Bytes} {start stop : Nat} (hle : start ≤ stop)
    (hstop : stop ≤ data.size) {n offset offset' : Nat} {columns : List Column}
    {vs : { vs : List UInt32 // vs.length = n }}
    (h : Column.readAll (data.extract start stop) n columns offset = (.ok vs, offset')) {w : Writer}
    (hw : w.Copies data (start + offset)) :
    (Column.writeAll vs.1 columns w).Copies data (start + offset') := by
  -- along the columns, with the offset that has been reached on both sides
  induction n generalizing columns offset w with
  | zero =>
    obtain ⟨_ | _, hvs⟩ := vs
    · obtain rfl : offset = offset' := congrArg Prod.snd h
      exact hw
    · exact absurd hvs (by simp)
  | succ n ih =>
    cases columns with
    | nil => exact absurd h (by simp [Column.readAll])
    | cons c columns =>
      obtain ⟨v, vs', hv, hread, hvs⟩ := Column.exists_of_readAll_cons h
      -- the bytes of the first column are written back, the others follow by induction
      have hbytes := Bytes.window?_of_extract hle hstop
        (Bytes.window?_of_number? (Column.number?_of_read hv))
      have hput := hw.put hbytes
      rw [Nat.add_assoc] at hput
      rw [hvs, Column.writeAll, Column.encode_of_read hv]
      exact ih hread hput

namespace Rows

variable {rows : Rows} {widths : Widths} {i : Nat}

/-- What the rows in some bytes are. -/
theorem of_ofBytes {t : TableId} {layout : Layout} {count : UInt32} {data : Bytes}
    (h : ofBytes t layout count data = .ok rows) :
    rows.table = t ∧ rows.layout = layout ∧ rows.count = count ∧
      rows.data = data.extract 0 (count.toNat * layout.rowSize) := by
  rw [ofBytes] at h
  split at h
  · obtain rfl := Except.ok.inj h
    exact ⟨rfl, rfl, rfl, rfl⟩
  · exact absurd h (by simp)

/-- The rows have the layout that a stream with these widths gives their table. -/
def IsResolved (rows : Rows) (widths : Widths) : Prop :=
  rows.layout = Layout.resolve widths rows.table

theorem toNat_rid (hi : i < rows.count.toNat) : (UInt32.ofNat (i + 1)).toNat = i + 1 :=
  UInt32.toNat_ofNat_of_lt' (Nat.lt_of_le_of_lt hi rows.count.toNat_lt)

/-- Rows are numbered from 1 on. -/
theorem mem_rids_iff {rid : UInt32} : rid ∈ rows.rids ↔ rid ≠ 0 ∧ rid ≤ rows.count := by
  rw [rids, List.mem_map, ← UInt32.toNat_inj.ne, UInt32.toNat_zero, UInt32.le_iff_toNat_le]
  constructor
  · rintro ⟨i, hi, rfl⟩
    rw [toNat_rid (List.mem_range.mp hi)]
    exact ⟨Nat.succ_ne_zero i, List.mem_range.mp hi⟩
  · rintro ⟨hpos, hle⟩
    refine ⟨rid.toNat - 1, List.mem_range.mpr (by omega), ?_⟩
    rw [Nat.sub_add_cancel (Nat.pos_of_ne_zero hpos), UInt32.ofNat_toNat]

/-- **Every row can be read**, if the layout is regular. -/
theorem exists_row (h : rows.layout.IsRegular rows.table) {rid : UInt32} (hrid : rid ∈ rows.rids) :
    ∃ r : Row, r.table = rows.table ∧ r.rid = rid ∧
      r.offset = (rid.toNat - 1) * rows.layout.rowSize ∧ rows.row rid = .ok r ∧
      Row.read rows.table rows.layout rows.data rid ((rid.toNat - 1) * rows.layout.rowSize) =
        (.ok r, rid.toNat * rows.layout.rowSize) := by
  obtain ⟨hpos, hle⟩ := mem_rids_iff.mp hrid
  have hin : ¬(rid = 0 ∨ rows.count < rid) := not_or.mpr ⟨hpos, UInt32.not_lt.mpr hle⟩
  have hstop : (rid.toNat - 1) * rows.layout.rowSize + rows.layout.rowSize =
      rid.toNat * rows.layout.rowSize := by
    rw [← Nat.succ_mul, Nat.succ_eq_add_one,
      Nat.sub_add_cancel (Nat.pos_of_ne_zero (UInt32.toNat_inj.ne.mpr hpos))]
  have hsize : (rid.toNat - 1) * rows.layout.rowSize + rows.layout.rowSize ≤ rows.data.size := by
    rw [hstop, rows.size_data]
    exact Nat.mul_le_mul_right _ (UInt32.le_iff_toNat_le.mp hle)
  obtain ⟨r, htable, hrid', hoffset, hread⟩ := Row.exists_read h rid hsize
  refine ⟨r, htable, hrid', hoffset, ?_, hstop ▸ hread⟩
  rw [Rows.row, if_neg hin, hread]

theorem IsResolved.isRegular (h : rows.IsResolved widths) : rows.layout.IsRegular rows.table :=
  h ▸ Layout.isRegular_resolve widths rows.table

end Rows

/-- A row is read and copied. -/
theorem Writer.Copies.row {data : Bytes} {rows : Rows} {widths : Widths} {start stop i : Nat}
    {w : Writer} (hrows : rows.IsResolved widths) (hdata : rows.data = data.extract start stop)
    (hle : start ≤ stop) (hstop : stop ≤ data.size) (hi : i < rows.count.toNat)
    (hw : w.Copies data (start + i * rows.layout.rowSize)) :
    ∃ r : Row, rows.row (UInt32.ofNat (i + 1)) = .ok r ∧
      (r.writeMatching rows.layout w).Copies data (start + (i + 1) * rows.layout.rowSize) := by
  have hmem : UInt32.ofNat (i + 1) ∈ rows.rids := List.mem_map.mpr ⟨i, List.mem_range.mpr hi, rfl⟩
  obtain ⟨r, htable, -, -, hrow, hread⟩ := Rows.exists_row hrows.isRegular hmem
  refine ⟨r, hrow, ?_⟩
  rw [Rows.toNat_rid hi, Nat.add_sub_cancel] at hread
  obtain ⟨vs, hvs, hcolumns⟩ := Row.readAll_of_read hread
  have hmatches : r.table = rows.layout.table := by rw [htable, hrows, Layout.table_resolve]
  rw [Row.writeMatching, if_pos hmatches, Row.write, ← hvs]
  rw [hdata] at hcolumns
  exact hw.writeAll hle hstop hcolumns

end ManagedImage
