import ManagedImage.Proofs.Bytes.Copying
import ManagedImage.Stream.Header

/-!
# Copying headers

A header that has been read is written as it was, with the flags and bits that have no meaning and
with the row counts of undefined tables.

## Main definitions

* `StreamHeader.IsRead` — where the fields of a header stand.

## Main results

* `StreamHeader.isRead_of_read` — so they do in a header that has been read.
* `StreamHeader.IsRead.copies_write` — a header that has been read is copied.
-/

namespace ManagedImage

namespace TableMask

theorem nodup_members (m : TableMask) : m.members.Nodup := List.nodup_range.filter _

theorem lt_of_mem_members {m : TableMask} {n : Nat} (h : n ∈ m.members) : n < 64 :=
  List.mem_range.mp (List.mem_filter.mp h).1

end TableMask

namespace StreamHeader

variable {data : Bytes} {offset width n stop : Nat} {bits : List Nat}
  {counts counts' : Vector UInt32 64}

theorem field_eq_ok_iff : field data offset width = .ok n ↔ data.number? offset width = some n := by
  rw [field]
  cases data.number? offset width <;> simp

theorem number?_of_byte (h : field data offset 1 = .ok n) :
    data.number? offset 1 = some (UInt8.ofNat n).toNat := by
  have hn := field_eq_ok_iff.mp h
  rw [hn, UInt8.toNat_ofNat_of_lt' (Bytes.number?_lt hn)]

theorem number?_of_word (h : field data offset 4 = .ok n) :
    data.number? offset 4 = some (UInt32.ofNat n).toNat := by
  have hn := field_eq_ok_iff.mp h
  rw [hn, UInt32.toNat_ofNat_of_lt' (Bytes.number?_lt hn)]

theorem number?_of_long (h : field data offset 8 = .ok n) :
    data.number? offset 8 = some (UInt64.ofNat n).toNat := by
  have hn := field_eq_ok_iff.mp h
  rw [hn, UInt64.toNat_ofNat_of_lt' (Bytes.number?_lt hn)]

/-! ### Row counts -/

/-- Reading row counts takes four bytes for each bit. -/
theorem stop_readCounts (h : readCounts data bits offset counts = .ok (counts', stop)) :
    stop = offset + 4 * bits.length := by
  induction bits generalizing offset counts with
  | nil =>
    obtain ⟨-, rfl⟩ : counts = counts' ∧ offset = stop := by simpa [readCounts] using h
    rfl
  | cons n bits ih =>
    obtain ⟨rows, -, h⟩ := exists_of_bind_eq_ok h
    rw [ih h, List.length_cons]
    omega

/-- Reading row counts leaves those of the other bits alone. -/
theorem getElem?_readCounts (h : readCounts data bits offset counts = .ok (counts', stop))
    (hn : n ∉ bits) : counts'[n]? = counts[n]? := by
  induction bits generalizing offset counts with
  | nil =>
    obtain ⟨rfl, -⟩ : counts = counts' ∧ offset = stop := by simpa [readCounts] using h
    rfl
  | cons m bits ih =>
    obtain ⟨rows, -, h⟩ := exists_of_bind_eq_ok h
    rw [List.mem_cons, not_or] at hn
    rw [ih h hn.2, Vector.getElem?_setIfInBounds_ne (Ne.symm hn.1)]

/-- Row counts that have been read are copied. -/
theorem copies_counts (h : readCounts data bits offset counts = .ok (counts', stop))
    (hnodup : bits.Nodup) (hlt : ∀ n ∈ bits, n < 64) {w : Writer} (hw : w.Copies data offset) :
    (bits.foldl (fun w n => w.putNumber 4 (counts'[n]?.getD 0).toNat) w).Copies data stop := by
  induction bits generalizing offset counts w with
  | nil =>
    obtain ⟨-, rfl⟩ : counts = counts' ∧ offset = stop := by simpa [readCounts] using h
    exact hw
  | cons n bits ih =>
    obtain ⟨rows, hrows, h⟩ := exists_of_bind_eq_ok h
    obtain ⟨hn, hbits⟩ := List.nodup_cons.mp hnodup
    -- no bit comes twice, so the count that is kept is the one that is read here
    have hcount : counts'[n]? = some (UInt32.ofNat rows) := by
      rw [getElem?_readCounts h hn, Vector.getElem?_setIfInBounds_self_of_lt]
      exact hlt n List.mem_cons_self
    have hput := hw.putNumber (number?_of_word hrows)
    rw [List.foldl_cons, hcount]
    exact ih h hbits (fun m hm => hlt m (List.mem_cons_of_mem n hm)) hput

/-! ### The header -/

/-- The header is that at the start of `data`. -/
structure IsRead (h : StreamHeader) (data : Bytes) : Prop where
  reserved : data.number? 0 4 = some h.reserved.toNat
  major : data.number? 4 1 = some h.major.toNat
  minor : data.number? 5 1 = some h.minor.toNat
  flags : data.number? 6 1 = some h.flags.bits.toNat
  log2 : data.number? 7 1 = some h.log2.toNat
  valid : data.number? 8 8 = some h.valid.bits.toNat
  sorted : data.number? 16 8 = some h.sorted.bits.toNat
  counts : readCounts data h.valid.members fixedSize (Vector.replicate 64 0) =
    .ok (h.counts, fixedSize + 4 * h.valid.count)
  extra : ∀ x, h.extra? = some x →
    data.number? (fixedSize + 4 * h.valid.count) 4 = some x.toNat
  extraData : h.extra?.isSome = h.flags.extraData

theorem isRead_of_read {h : StreamHeader} (hread : read data = .ok h) : h.IsRead data := by
  unfold read at hread
  dsimp only at hread
  split at hread
  · exact absurd hread (by simp [bind, Except.bind])
  obtain ⟨reserved, hreserved, hread⟩ := exists_of_bind_eq_ok hread
  obtain ⟨major, hmajor, hread⟩ := exists_of_bind_eq_ok hread
  obtain ⟨minor, hminor, hread⟩ := exists_of_bind_eq_ok hread
  obtain ⟨flags, hflags, hread⟩ := exists_of_bind_eq_ok hread
  obtain ⟨log2, hlog2, hread⟩ := exists_of_bind_eq_ok hread
  obtain ⟨valid, hvalid, hread⟩ := exists_of_bind_eq_ok hread
  obtain ⟨sorted, hsorted, hread⟩ := exists_of_bind_eq_ok hread
  obtain ⟨⟨counts, offset⟩, hcounts, hread⟩ := exists_of_bind_eq_ok hread
  have hstop := stop_readCounts hcounts
  rw [hstop] at hcounts
  dsimp only at hread
  split at hread
  · next hextraData =>
    obtain ⟨extra, hextra, hread⟩ := exists_of_bind_eq_ok hread
    obtain rfl := Except.ok.inj hread
    rw [hstop] at hextra
    exact ⟨number?_of_word hreserved, number?_of_byte hmajor, number?_of_byte hminor,
      number?_of_byte hflags, number?_of_byte hlog2, number?_of_long hvalid,
      number?_of_long hsorted, hcounts, fun x hx => Option.some.inj hx ▸ number?_of_word hextra,
      hextraData.symm⟩
  · next hextraData =>
    obtain rfl := Except.ok.inj hread
    exact ⟨number?_of_word hreserved, number?_of_byte hmajor, number?_of_byte hminor,
      number?_of_byte hflags, number?_of_byte hlog2, number?_of_long hvalid,
      number?_of_long hsorted, hcounts, fun x hx => absurd hx (by simp),
      (Bool.eq_false_of_not_eq_true hextraData).symm⟩

namespace IsRead

variable {h : StreamHeader}

/-- A table that is not present has no rows. -/
theorem countAt_eq_zero (hread : h.IsRead data) (hn : n ∉ h.valid.members) : h.countAt n = 0 := by
  rw [countAt, getElem?_readCounts hread.counts hn, Vector.getElem?_replicate]
  split <;> rfl

/-- **A header that has been read is copied.** -/
theorem copies_write (hread : h.IsRead data) :
    (h.write (.start (.zeros data.size) 0)).Copies data h.size := by
  have hw := Writer.Copies.start data
  replace hw := hw.putNumber hread.reserved
  replace hw := hw.putNumber hread.major
  replace hw := hw.putNumber hread.minor
  replace hw := hw.putNumber hread.flags
  replace hw := hw.putNumber hread.log2
  replace hw := hw.putNumber hread.valid
  replace hw := hw.putNumber hread.sorted
  replace hw := copies_counts hread.counts (TableMask.nodup_members _)
    (fun n => TableMask.lt_of_mem_members) hw
  rw [write, size]
  cases hextra : h.extra? with
  | some x => exact hw.putNumber (hread.extra x hextra)
  | none => exact hw

end IsRead

end StreamHeader

end ManagedImage
