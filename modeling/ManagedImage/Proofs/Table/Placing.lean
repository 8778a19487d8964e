import ManagedImage.Proofs.Bytes.Windows
import ManagedImage.Proofs.Table.Encoding
import ManagedImage.Proofs.Table.Reading

/-!
# Rows at any place of a buffer

A row may be written at any offset of any buffer.  It is written if there is room for it and each of
its values fits its column; then its bytes stand at the offset, and nothing else has changed.  The
bytes of a row and its values determine each other, so that a row that is read where one was written
is that row, and a row that is written where it was read changes nothing.

## Main definitions

* `Layout.IsRowCodec` — rows are written and read through a layout.

## Main results

* `Row.write_eq_start_iff` — **when a row is written, and what the buffer is then.**
* `Row.read_eq_ok_iff` — **which row is read.**
* `Layout.isRowCodec_resolve` — **every layout of a stream writes and reads the rows of its table.**
-/

namespace ManagedImage

theorem Writer.put_start (data : Bytes) (offset : Nat) (bytes : List UInt8) :
    (start data offset).put bytes =
      if offset + bytes.length ≤ data.size then
        start (data.overlay offset bytes) (offset + bytes.length)
      else ⟨data, offset, some .outOfBounds⟩ :=
  put_of_running rfl bytes

namespace Column

variable {c : Column} {columns : List Column} {values : List UInt32} {data : Bytes}
  {offset stop n : Nat} {w : Writer}

/-! ### Writing values -/

/-- A writer that has stopped stays as it is. -/
theorem writeAll_of_stopped (values : List UInt32) (columns : List Column)
    (h : w.error?.isSome) : writeAll values columns w = w := by
  have hstop : ∀ e, w.stop e = w := by
    intro e
    obtain ⟨e', he'⟩ := Option.isSome_iff_exists.mp h
    rw [Writer.stop, he']
  induction values generalizing columns with
  | nil => rfl
  | cons v values ih =>
    cases columns with
    | nil => exact hstop _
    | cons c columns =>
      rw [writeAll]
      cases c.encode v with
      | error e => exact hstop e
      | ok bytes =>
        dsimp only
        rw [Writer.put_of_stopped h, ih]

/-- Values that fit their columns are laid over the buffer, if there is room. -/
theorem writeAll_of_fits (hplain : ∀ c ∈ columns, c.IsPlain)
    (hfits : List.Forall₂ Fits columns values) (hroom : offset + totalSize columns ≤ data.size) :
    writeAll values columns (.start data offset) =
      .start (data.overlay offset (bytes columns values)) (offset + totalSize columns) := by
  induction hfits generalizing data offset with
  | nil => rfl
  | cons hv hvalues ih =>
    rename_i c v columns values
    rw [totalSize, ← Nat.add_assoc] at hroom
    rw [writeAll, encode_of_fits (hplain c List.mem_cons_self) hv]
    dsimp only
    rw [Writer.put_start, LittleEndian.length_encode, if_pos (Nat.le_of_add_right_le hroom),
      ih (fun d hd => hplain d (List.mem_cons_of_mem c hd)) (by rwa [Bytes.size_overlay]),
      bytes, Bytes.overlay_patch_append, LittleEndian.length_encode, totalSize, Nat.add_assoc]

/-- Only values that fit are written, and only if there is room. -/
theorem of_error?_writeAll (hplain : ∀ c ∈ columns, c.IsPlain)
    (hlen : columns.length = values.length)
    (h : (writeAll values columns (.start data offset)).error? = none) :
    List.Forall₂ Fits columns values ∧
      (columns = [] ∨ offset + totalSize columns ≤ data.size) := by
  induction columns generalizing values data offset with
  | nil =>
    obtain rfl : values = [] := List.length_eq_zero_iff.mp hlen.symm
    exact ⟨.nil, Or.inl rfl⟩
  | cons c columns ih =>
    cases values with
    | nil => cases hlen
    | cons v values =>
      rw [writeAll] at h
      by_cases hv : c.Fits v
      · rw [encode_of_fits (hplain c List.mem_cons_self) hv] at h
        dsimp only at h
        rw [Writer.put_start, LittleEndian.length_encode] at h
        split at h
        · next hroom =>
          obtain ⟨hvalues, hrest⟩ :=
            ih (fun d hd => hplain d (List.mem_cons_of_mem c hd)) (Nat.succ.inj hlen) h
          refine ⟨.cons hv hvalues, Or.inr ?_⟩
          rw [totalSize]
          rcases hrest with rfl | hrest
          · exact hroom
          · rw [Bytes.size_overlay] at hrest
            omega
        · rw [writeAll_of_stopped values columns rfl] at h
          cases h
      · obtain ⟨e, he⟩ := encode_of_not_fits (hplain c List.mem_cons_self) hv
        rw [he] at h
        cases h

/-! ### Reading values -/

/-- Values that have been read fit their columns, and their bytes stand where they were read. -/
theorem window?_of_readAll {vs : { vs : List UInt32 // vs.length = n }} (hoffset : offset ≤ data.size)
    (hlen : columns.length = n) (h : readAll data n columns offset = (.ok vs, stop)) :
    List.Forall₂ Fits columns vs.1 ∧
      data.window? offset (bytes columns vs.1).length = some (bytes columns vs.1) := by
  induction n generalizing columns offset with
  | zero =>
    obtain rfl := List.length_eq_zero_iff.mp hlen
    obtain ⟨_ | _, hvs⟩ := vs
    · refine ⟨.nil, ?_⟩
      rw [bytes, Bytes.window?_eq_some_iff_isPrefix]
      exact ⟨List.nil_prefix, hoffset⟩
    · cases hvs
  | succ n ih =>
    cases columns with
    | nil => cases hlen
    | cons c columns =>
      obtain ⟨v, vs', hv, hrest, hvs⟩ := exists_of_readAll_cons h
      have hnumber := number?_of_read hv
      have hwindow := Bytes.window?_of_number? hnumber
      obtain ⟨hfits, hbytes⟩ :=
        ih (Bytes.window?_eq_some_iff.mp hwindow).1 (Nat.succ.inj hlen) hrest
      rw [hvs, bytes, Bytes.window?_append_iff, LittleEndian.length_encode]
      exact ⟨.cons (Bytes.number?_lt hnumber) hfits, hwindow, hbytes⟩

end Column

/-! ### Rows -/

namespace Row

variable {l : Layout} {t : TableId} {r : Row} {data data' : Bytes} {rid : UInt32}
  {offset stop : Nat}

/-- A row has one value for each column of the layout. -/
theorem length_columns_eq (hl : l.IsRegular t) (hr : r.table = t) :
    l.columns.length = r.columns.length := by
  rw [hl.length_columns, r.length_columns, hr]

theorem length_bytes (hl : l.IsRegular t) (hr : r.table = t) :
    (Column.bytes l.columns r.columns).length = l.rowSize := by
  rw [Column.length_bytes (length_columns_eq hl hr), hl.rowSize_eq]

/-- **When a row is written, and what the buffer is then**: its bytes are laid over the buffer. -/
theorem write_eq_start_iff (hl : l.IsRegular t) (hr : r.table = t) :
    r.write l (.start data offset) = .start data' stop ↔
      (offset + l.rowSize ≤ data.size ∧ List.Forall₂ Column.Fits l.columns r.columns) ∧
        data' = data.overlay offset (Column.bytes l.columns r.columns) ∧
          stop = offset + l.rowSize := by
  have hlen := length_columns_eq hl hr
  have hne : l.columns ≠ [] := by
    rw [← List.length_pos_iff, hl.length_columns]
    exact t.arity_pos
  have hwrite (hroom : offset + l.rowSize ≤ data.size)
      (hfits : List.Forall₂ Column.Fits l.columns r.columns) :
      r.write l (.start data offset) =
        .start (data.overlay offset (Column.bytes l.columns r.columns)) (offset + l.rowSize) := by
    rw [hl.rowSize_eq] at hroom ⊢
    exact Column.writeAll_of_fits hl.plain hfits hroom
  constructor
  · intro h
    obtain ⟨hfits, hroom⟩ := Column.of_error?_writeAll hl.plain hlen (congrArg Writer.error? h)
    replace hroom := hroom.resolve_left hne
    rw [← hl.rowSize_eq] at hroom
    have heq := (hwrite hroom hfits).symm.trans h
    exact ⟨⟨hroom, hfits⟩, (congrArg Writer.data heq).symm, (congrArg Writer.offset heq).symm⟩
  · rintro ⟨⟨hroom, hfits⟩, rfl, rfl⟩
    exact hwrite hroom hfits

/-- What is laid over the buffer is seen there. -/
theorem window?_overlay (hl : l.IsRegular t) (hr : r.table = t)
    (hroom : offset + l.rowSize ≤ data.size) :
    (data.overlay offset (Column.bytes l.columns r.columns)).window? offset l.rowSize =
      some (Column.bytes l.columns r.columns) := by
  rw [← length_bytes hl hr] at hroom ⊢
  exact Bytes.window?_overlay hroom

/-- **Which row is read**: the one whose values fit, and whose bytes stand there. -/
theorem read_eq_ok_iff (hl : l.IsRegular t) :
    read t l data rid offset = (.ok r, stop) ↔
      (r.table = t ∧ r.rid = rid ∧ r.offset = offset ∧ stop = offset + l.rowSize) ∧
        List.Forall₂ Column.Fits l.columns r.columns ∧
          data.window? offset l.rowSize = some (Column.bytes l.columns r.columns) := by
  constructor
  · intro h
    obtain ⟨htable, hrid, hoffset, hstop⟩ := of_read h
    have hroom := ((exists_read_iff rid).mp ⟨r, stop, h⟩).room
    obtain ⟨vs, hvs, hread⟩ := readAll_of_read h
    have hwindow := Column.window?_of_readAll (Nat.le_of_add_right_le hroom) hl.length_columns hread
    rw [hvs, length_bytes hl htable] at hwindow
    exact ⟨⟨htable, hrid, hoffset, by rw [hstop, hl.stride_eq]⟩, hwindow⟩
  · rintro ⟨⟨rfl, rfl, rfl, rfl⟩, hfits, hwindow⟩
    obtain ⟨before, after, hbefore, rfl⟩ := Bytes.exists_append_of_window? hwindow
    have hread := Column.readAll_bytes hl.plain hfits r.length_columns before after
    rw [hbefore, ← hl.rowSize_eq] at hread
    rw [read, hread]

end Row

/-! ### Layouts -/

/-- The rows of table `t` are written and read through the layout.  A row has been written if its
writer ends up somewhere without an error, as a writer that starts there. -/
structure Layout.IsRowCodec (l : Layout) (t : TableId) : Prop where
  /-- There is one column for each field of the rows, so that none is left out. -/
  length_columns : l.columns.length = t.fields.length
  /-- The layout is one of the table, so that whether rows are read as rows of this table or of the
  layout's makes no difference. -/
  table_eq : l.table = t
  /-- Nor does it whether they are written with regard to their table or without. -/
  writeMatching_eq : ∀ (r : Row) (w : Writer), r.table = t → r.writeMatching l w = r.write l w
  /-- A row is written exactly if there is room for it and each value fits its column. -/
  exists_write_iff : ∀ (r : Row) (data : Bytes) (offset : Nat), r.table = t →
    ((∃ data' stop, r.write l (.start data offset) = .start data' stop) ↔
      offset + l.rowSize ≤ data.size ∧ List.Forall₂ Column.Fits l.columns r.columns)
  /-- Then the writer stands behind the row, and no other bytes have changed. -/
  of_write : ∀ (r : Row) (data : Bytes) (offset : Nat) (data' : Bytes) (stop : Nat), r.table = t →
    r.write l (.start data offset) = .start data' stop →
      stop = offset + l.rowSize ∧ data'.size = data.size ∧
        ∀ i, i < offset ∨ offset + l.rowSize ≤ i → data'[i]? = data[i]?
  /-- The row is read where it was written. -/
  read_of_write : ∀ (r : Row) (data : Bytes) (offset : Nat) (data' : Bytes) (stop : Nat),
    r.table = t → r.write l (.start data offset) = .start data' stop →
      Row.read t l data' r.rid offset = (.ok { r with offset }, stop)
  /-- A row can be read exactly if its bytes are there. -/
  exists_read_iff : ∀ (data : Bytes) (rid : UInt32) (offset : Nat),
    (∃ r stop, Row.read t l data rid offset = (.ok r, stop)) ↔ offset + l.rowSize ≤ data.size
  /-- A row that is written where it was read changes nothing. -/
  write_of_read : ∀ (data : Bytes) (rid : UInt32) (offset : Nat) (r : Row) (stop : Nat),
    Row.read t l data rid offset = (.ok r, stop) →
      r.write l (.start data r.offset) = .start data stop
  /-- In another buffer it gives the bytes that it was read from. -/
  window?_of_read : ∀ (data : Bytes) (rid : UInt32) (offset : Nat) (r : Row) (stop : Nat)
    (target : Bytes), Row.read t l data rid offset = (.ok r, stop) →
      offset + l.rowSize ≤ target.size →
        ∃ target', r.write l (.start target r.offset) = .start target' stop ∧
          target'.window? offset l.rowSize = data.window? offset l.rowSize
  /-- With regard to its table, a row is not written through a layout of another table. -/
  writeMatching_of_ne : ∀ (r : Row) (l' : Layout) (data : Bytes) (offset : Nat), r.table = t →
    l'.table ≠ t → r.writeMatching l' (.start data offset) =
      ⟨data, offset, some (.malformed (.layoutMismatch t l'.table))⟩

namespace Layout

variable {l : Layout} {t : TableId}

/-- A regular layout of a table writes and reads its rows. -/
theorem IsRegular.isRowCodec (hl : l.IsRegular t) (ht : l.table = t) : l.IsRowCodec t where
  length_columns := hl.length_columns
  table_eq := ht
  writeMatching_eq r w hr := if_pos (hr.trans ht.symm)
  exists_write_iff r data offset hr := by
    constructor
    · rintro ⟨data', stop, h⟩
      exact ((Row.write_eq_start_iff hl hr).mp h).1
    · intro h
      exact ⟨_, _, (Row.write_eq_start_iff hl hr).mpr ⟨h, rfl, rfl⟩⟩
  of_write r data offset data' stop hr h := by
    obtain ⟨⟨hroom, -⟩, rfl, rfl⟩ := (Row.write_eq_start_iff hl hr).mp h
    refine ⟨rfl, Bytes.size_overlay .., fun i hi => ?_⟩
    have hlen := Row.length_bytes hl hr
    rw [Bytes.getElem?_overlay (by rw [hlen]; exact hroom), if_neg (by rw [hlen]; omega)]
  read_of_write r data offset data' stop hr h := by
    obtain ⟨⟨hroom, hfits⟩, rfl, rfl⟩ := (Row.write_eq_start_iff hl hr).mp h
    exact (Row.read_eq_ok_iff hl).mpr
      ⟨⟨hr, rfl, rfl, rfl⟩, hfits, Row.window?_overlay hl hr hroom⟩
  exists_read_iff _ rid _ := (Row.exists_read_iff rid).trans hl.canRead_iff
  write_of_read data rid offset r stop h := by
    obtain ⟨⟨hr, -, rfl, rfl⟩, hfits, hwindow⟩ := (Row.read_eq_ok_iff hl).mp h
    have hroom := (Bytes.window?_eq_some_iff.mp hwindow).1
    have hsame := Bytes.overlay_of_window? hwindow
    exact (Row.write_eq_start_iff hl hr).mpr ⟨⟨hroom, hfits⟩, hsame.symm, rfl⟩
  window?_of_read data rid offset r stop target h hroom := by
    obtain ⟨⟨hr, -, rfl, rfl⟩, hfits, hwindow⟩ := (Row.read_eq_ok_iff hl).mp h
    refine ⟨_, (Row.write_eq_start_iff hl hr).mpr ⟨⟨hroom, hfits⟩, rfl, rfl⟩, ?_⟩
    rw [Row.window?_overlay hl hr hroom, hwindow]
  writeMatching_of_ne r l' data offset hr ht' := by
    subst hr
    exact if_neg ht'.symm

/-- **Every layout of a stream writes and reads the rows of its table.** -/
theorem isRowCodec_resolve (w : Widths) (t : TableId) : (resolve w t).IsRowCodec t :=
  (isRegular_resolve w t).isRowCodec rfl

/-- Widths of a stream without rows and with small heaps. -/
def smallWidths : Widths := ⟨.replicate 0, ⟨0⟩⟩

/-- A row with two columns of one byte is written into the middle of a buffer and read there; a
value that is too large for such a column is not written. -/
theorem isRowCodec_constant :
    ∃ data', (Row.ofValues .constant 7 [255, 1, 0x0203, 0x0405]).write
        (resolve smallWidths .constant) (.start (.zeros 9) 2) = .start data' 8 ∧
      data' = #[0, 0, 255, 1, 3, 2, 5, 4, 0] ∧
      Row.read .constant (resolve smallWidths .constant) data' 7 2 =
        (.ok { Row.ofValues .constant 7 [255, 1, 0x0203, 0x0405] with offset := 2 }, 8) ∧
      ¬∃ data' stop, (Row.ofValues .constant 7 [256, 1, 0x0203, 0x0405]).write
        (resolve smallWidths .constant) (.start (.zeros 9) 2) = .start data' stop := by
  have hcodec := isRowCodec_resolve smallWidths .constant
  have hwrite : (Row.ofValues .constant 7 [255, 1, 0x0203, 0x0405]).write
      (resolve smallWidths .constant) (.start (.zeros 9) 2) =
        .start #[0, 0, 255, 1, 3, 2, 5, 4, 0] 8 := rfl
  refine ⟨_, hwrite, rfl, hcodec.read_of_write _ _ 2 _ 8 rfl hwrite, ?_⟩
  rw [hcodec.exists_write_iff _ _ 2 rfl]
  rintro ⟨-, hfits⟩
  cases hfits with
  | cons hbyte _ => exact Nat.lt_irrefl 256 hbyte

end Layout

end ManagedImage
