import ManagedImage.Proofs.Stream.Decoding

/-!
# Decoding and encoding again

A stream that can be decoded is encoded to what it was decoded from, byte for byte: with flags and
bits that have no meaning, with the row counts of undefined tables, and with all that lies behind
the tables.

## Main results

* `TablesStream.IsDecoded.copies_written` — the header and the tables are copied.
* `TablesStream.encode_of_decode` — encoding undoes decoding.
-/

namespace ManagedImage

namespace TablesStream

variable {s : TablesStream} {data : Bytes} {config : Config}

namespace IsDecoded

/-- The rows of a table that is not present are not written. -/
theorem writeTable_eq (h : s.IsDecoded) :
    s.writeTable = fun w t => if s.header.valid.contains t then s.writeTable w t else w := by
  funext w t
  split
  · rfl
  · next ht =>
    have habsent := h.absent t fun hmem => ht (List.mem_filter.mp hmem).2
    rw [writeTable, rows?, habsent]
    rfl

/-- The header and the tables are copied. -/
theorem copies_written (h : s.IsDecoded) : s.written.Copies s.data s.tablesEnd := by
  -- all tables are gone through, but only those that are present are written
  have htables := h.tiled.copies h.header.copies_write
  rwa [TableMask.tables, List.foldl_filter, ← h.writeTable_eq] at htables

end IsDecoded

/-- **Encoding undoes decoding.**  A stream that can be decoded is encoded without an error to the
bytes that it was decoded from.  No slice that is taken of them goes out of range: the tables and
the trailing bytes lie in the stream, writing stops where the trailing bytes start, and every row
can be read. -/
theorem encode_of_decode (h : decode config data = .ok s) :
    s.encode = .ok data ∧
      s.tablesEnd ≤ data.size ∧ s.written.offset = s.tablesEnd ∧ s.written.data.size = data.size ∧
      ∀ t c, s.tables.get t = some c → c.start ≤ c.stop ∧ c.stop ≤ data.size ∧
        ∀ rid ∈ c.rows.rids, ∃ r, c.rows.row rid = .ok r := by
  obtain ⟨rfl, hdecoded⟩ := isDecoded_of_decode h
  have hw := hdecoded.copies_written
  refine ⟨?_, hw.le, hw.offset, hw.size, fun t c hc => ?_⟩
  · rw [encode, hw.error?, trailing, hw.overlay]
  · have hholds := hdecoded.holds hc
    refine ⟨hholds.start_le, hholds.stop_le, fun rid hrid => ?_⟩
    obtain ⟨r, -, -, -, hrow, -⟩ := Rows.exists_row hholds.resolved.isRegular hrid
    exact ⟨r, hrow⟩

/-- Two defined tables, one of them without rows, an undefined one, the extra word, unknown flags,
one row and two trailing bytes. -/
def unusual : Bytes :=
  #[0, 0, 0, 0, 2, 0, 0xC8, 1,
    0x01, 0, 0, 0, 0, 0x02, 0x01, 0, 0, 0xFA, 0x01, 0x33, 0, 0x16, 0, 0,
    1, 0, 0, 0, 0, 0, 0, 0, 7, 0, 0, 0, 0xEF, 0xBE, 0xAD, 0xDE,
    0, 0, 1, 0, 1, 0, 0, 0, 0, 0, 0xAB, 0xCD]

theorem encode_decode_unusual :
    ∃ s, decode .lenient unusual = .ok s ∧ s.encode = .ok unusual := by
  have hdecode : (decode .lenient unusual).isOk = true := by decide +kernel
  cases h : decode .lenient unusual with
  | error e => exact absurd hdecode (by simp [h, Except.isOk, Except.toBool])
  | ok s => exact ⟨s, rfl, (encode_of_decode h).1⟩

end TablesStream

end ManagedImage
