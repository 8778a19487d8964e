import ManagedImage.Proofs.Stream.Carving

/-!
# What decoding gives

All that follows from a stream having been decoded follows from where its header and its tables
stand.

## Main definitions

* `TablesStream.IsDecoded` — the stream comes from decoding.

## Main results

* `TablesStream.isDecoded_of_decode` — so does what decoding gives.
* `TablesStream.IsDecoded.exists_row` — every row can be read.
-/

namespace ManagedImage

theorem TableId.nodup_all : TableId.all.Nodup := by decide

theorem TableMask.nodup_tables (m : TableMask) : m.tables.Nodup := TableId.nodup_all.filter _

namespace TablesStream

variable {s : TablesStream} {data : Bytes} {config : Config} {t : TableId}

/-- The stream comes from decoding its bytes. -/
structure IsDecoded (s : TablesStream) : Prop where
  /-- The header is that of the bytes. -/
  header : s.header.IsRead s.data
  /-- The tables that are present lie one behind the other, behind the header. -/
  tiled : Tiled s.data s.header s.tables s.header.valid.tables s.header.size s.tablesEnd
  /-- The other tables are not there. -/
  absent : ∀ t ∉ s.header.valid.tables, s.tables.get t = none

/-- What decoding gives. -/
theorem isDecoded_of_decode (h : decode config data = .ok s) : s.data = data ∧ s.IsDecoded := by
  obtain ⟨header, hheader, h⟩ := exists_of_bind_eq_ok h
  obtain ⟨⟨⟩, -, h⟩ := exists_of_bind_eq_ok h
  obtain ⟨⟨tables, stop⟩, hcarve, h⟩ := exists_of_bind_eq_ok h
  obtain rfl := Except.ok.inj h
  have hread := StreamHeader.isRead_of_read hheader
  refine ⟨rfl, hread, ?_, fun t ht => ?_⟩
  · exact tiled_of_carve hcarve (TableMask.nodup_tables _) hread.copies_write.le
  · exact (get_carve hcarve ht).trans (PerTable.get_replicate none t)

namespace IsDecoded

/-- A table that is there holds its rows. -/
theorem holds (h : s.IsDecoded) {c : CarvedTable} (hc : s.tables.get t = some c) :
    c.Holds s.data s.header t := by
  by_cases ht : t ∈ s.header.valid.tables
  · obtain ⟨c', hc', hholds⟩ := h.tiled.exists_of_mem ht
    obtain rfl := Option.some.inj (hc.symm.trans hc')
    exact hholds
  · exact absurd (hc.symm.trans (h.absent t ht)) (by simp)

/-- A table with rows is present. -/
theorem mem_tables (h : s.IsDecoded) (ht : s.rowCount t ≠ 0) : t ∈ s.header.valid.tables := by
  by_contra hmem
  refine ht (h.header.countAt_eq_zero fun hindex => hmem ?_)
  exact List.mem_filter.mpr ⟨t.mem_all, (List.mem_filter.mp hindex).2⟩

/-- The table of a row has been carved out. -/
theorem exists_carved (h : s.IsDecoded) {rid : UInt32} (hpos : rid ≠ 0)
    (hrid : rid ≤ s.rowCount t) :
    ∃ c, s.tables.get t = some c ∧ c.Holds s.data s.header t ∧ rid ∈ c.rows.rids := by
  have hcount : s.rowCount t ≠ 0 := by
    intro hzero
    rw [hzero] at hrid
    exact hpos (UInt32.le_antisymm hrid rid.zero_le)
  obtain ⟨c, hc, hholds⟩ := h.tiled.exists_of_mem (h.mem_tables hcount)
  exact ⟨c, hc, hholds, Rows.mem_rids_iff.mpr ⟨hpos, hholds.count ▸ hrid⟩⟩

/-- **Every row can be read.** -/
theorem exists_row (h : s.IsDecoded) {rid : UInt32} (hpos : rid ≠ 0) (hrid : rid ≤ s.rowCount t) :
    ∃ r, s.row t rid = .ok r := by
  obtain ⟨c, hc, hholds, hmem⟩ := h.exists_carved hpos hrid
  obtain ⟨r, -, -, -, hrow, -⟩ := Rows.exists_row hholds.resolved.isRegular hmem
  exact ⟨r, by rw [row, rows?, hc]; exact hrow⟩

end IsDecoded

end TablesStream

end ManagedImage
