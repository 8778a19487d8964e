import ManagedImage.Proofs.Bytes.Windows
import ManagedImage.Proofs.Stream.Accepting

/-!
# The codec of headers

What reading and writing a header come to, for all masks and all buffers.  The row count of a bit
stands behind those of the lower bits of the mask, whether or not the bits belong to defined tables,
and a header takes as many bytes as its mask and its flags say, when it is read and when it is
written.

## Main definitions

* `TableMask.below` — the bits of a mask below some bit.
* `StreamHeader.StandsIn` — where the fields of a header stand.
* `StreamHeader.IsMade` — a header that has been read, or made for some row counts.
* `StreamHeader.Reads`, `StreamHeader.Writes` — what reading and writing come to.

## Main results

* `Writer.foldl_put` — writing piece by piece is writing all at once.
* `StreamHeader.write_eq` — writing a header is writing its bytes.
* `StreamHeader.reads_and_writes` — the codec, in both directions.
-/

namespace ManagedImage

/-! ### Writing piece by piece -/

namespace Writer

variable {w : Writer} {pieces : List (List UInt8)}

theorem error?_foldl_put_of_stopped (h : w.error?.isSome) : pieces.foldl put w = w := by
  induction pieces with
  | nil => rfl
  | cons bytes pieces ih => rw [List.foldl_cons, put_of_stopped h, ih]

/-- Pieces that there is room for are written one behind the other. -/
theorem foldl_put (h : w.error? = none) (hfits : w.offset + pieces.flatten.length ≤ w.data.size) :
    pieces.foldl put w =
      ⟨w.data.overlay w.offset pieces.flatten, w.offset + pieces.flatten.length, none⟩ := by
  induction pieces generalizing w with
  | nil =>
    obtain ⟨data, offset, error?⟩ := w
    obtain rfl : error? = none := h
    rfl
  | cons bytes pieces ih =>
    rw [List.flatten_cons, List.length_append, ← Nat.add_assoc] at hfits
    have hput : w.put bytes = ⟨w.data.overlay w.offset bytes, w.offset + bytes.length, none⟩ := by
      rw [put_of_running h, if_pos (Nat.le_of_add_right_le hfits)]
    rw [List.foldl_cons, hput, ih rfl (by rwa [Bytes.size_overlay]), List.flatten_cons,
      Bytes.overlay_patch_append, List.length_append, Nat.add_assoc]

/-- Pieces that there is no room for stop the writer. -/
theorem error?_foldl_put (h : w.error? = none)
    (hlarge : w.data.size < w.offset + pieces.flatten.length) (hle : w.offset ≤ w.data.size) :
    (pieces.foldl put w).error? = some .outOfBounds := by
  induction pieces generalizing w with
  | nil => exact absurd hle (Nat.not_le.mpr hlarge)
  | cons bytes pieces ih =>
    rw [List.flatten_cons, List.length_append, ← Nat.add_assoc] at hlarge
    rw [List.foldl_cons, put_of_running h]
    split
    · next hfits => exact ih rfl (by rwa [Bytes.size_overlay]) (by rwa [Bytes.size_overlay])
    · rw [error?_foldl_put_of_stopped rfl]

end Writer

/-! ### Masks -/

namespace TableMask

variable {m : TableMask} {n k : Nat}

/-- The bits of the mask below bit `n`. -/
def below (m : TableMask) (n : Nat) : TableMask := ⟨m.bits &&& UInt64.ofNat (2 ^ n - 1)⟩

theorem has_below (hn : n < 64) : (m.below n).has k = (m.has k && decide (k < n)) := by
  have hlt : 2 ^ n - 1 < 2 ^ 64 :=
    Nat.lt_of_le_of_lt (Nat.sub_le _ _) (Nat.pow_lt_pow_right (by decide) hn)
  rw [has, below, UInt64.toNat_and, Nat.testBit_and, UInt64.toNat_ofNat_of_lt' hlt,
    Nat.testBit_two_pow_sub_one, has]

/-- The rank of a bit is how many bits are set below it. -/
theorem count_below (hn : n < 64) : (m.below n).count = m.rank n := by
  have hrange : List.range 64 = List.range n ++ List.range' n (64 - n) := by
    have happend := List.range'_append_1 (s := 0) (m := n) (n := 64 - n)
    rw [Nat.zero_add, Nat.add_sub_cancel' (Nat.le_of_lt hn)] at happend
    rw [List.range_eq_range', List.range_eq_range', happend]
  have hlow : (List.range n).filter (m.below n).has = (List.range n).filter m.has := by
    refine List.filter_congr fun k hk => ?_
    rw [has_below hn, decide_eq_true (List.mem_range.mp hk), Bool.and_true]
  have hhigh : (List.range' n (64 - n)).filter (m.below n).has = [] := by
    rw [List.filter_eq_nil_iff]
    intro k hk
    rw [has_below hn, decide_eq_false (Nat.not_lt.mpr (List.mem_range'_1.mp hk).1), Bool.and_false]
    exact Bool.false_ne_true
  rw [count, members, hrange, List.filter_append, hlow, hhigh, List.append_nil, rank]

/-- Each bit of the mask has its place among them. -/
theorem rank_lt_count (h : m.has n) : m.rank n < m.count := by
  obtain ⟨after, hmembers⟩ := members_eq_append h
  rw [count, hmembers, List.length_append, List.length_cons, rank]
  omega

end TableMask

/-! ### Headers -/

namespace StreamHeader

variable {h : StreamHeader} {data buffer : Bytes}

/-- The bytes of a header, field by field. -/
def pieces (h : StreamHeader) : List (List UInt8) :=
  [LittleEndian.encode 4 h.reserved.toNat, LittleEndian.encode 1 h.major.toNat,
    LittleEndian.encode 1 h.minor.toNat, LittleEndian.encode 1 h.flags.bits.toNat,
    LittleEndian.encode 1 h.log2.toNat, LittleEndian.encode 8 h.valid.bits.toNat,
    LittleEndian.encode 8 h.sorted.bits.toNat] ++
  (h.valid.members.map (fun n => LittleEndian.encode 4 (h.countAt n).toNat) ++
    (h.extra?.map fun x => LittleEndian.encode 4 x.toNat).toList)

theorem flatten_pieces (h : StreamHeader) : h.pieces.flatten = h.bytes := by
  have hextra : (h.extra?.map fun x => LittleEndian.encode 4 x.toNat).toList.flatten =
      h.extraBytes := by
    rw [extraBytes]
    cases h.extra? <;> simp
  rw [pieces, bytes, List.flatten_append, List.flatten_append, hextra, countBytes,
    List.flatMap_def, fixedBytes]
  simp

theorem foldl_pieces (h : StreamHeader) (w : Writer) : h.pieces.foldl Writer.put w = h.write w := by
  rw [pieces, List.foldl_append, List.foldl_append, List.foldl_map]
  unfold write
  cases h.extra? <;> rfl

/-- **Writing a header is writing its bytes**, where there is room for them. -/
theorem write_eq (hfits : h.size ≤ buffer.size) :
    h.write (.start buffer 0) = ⟨buffer.overlay 0 h.bytes, h.size, none⟩ := by
  have hlen : (Writer.start buffer 0).offset + h.pieces.flatten.length = h.size := by
    rw [flatten_pieces, length_bytes]
    exact Nat.zero_add _
  have hput := Writer.foldl_put (w := .start buffer 0) rfl (hlen.trans_le hfits)
  rw [hlen, foldl_pieces, flatten_pieces] at hput
  exact hput

theorem error?_write (hlarge : buffer.size < h.size) :
    (h.write (.start buffer 0)).error? = some .outOfBounds := by
  rw [← foldl_pieces]
  refine Writer.error?_foldl_put rfl ?_ (Nat.zero_le _)
  rw [flatten_pieces, length_bytes]
  exact Nat.lt_of_lt_of_eq hlarge (Nat.zero_add _).symm

/-! ### Reading what was written -/

/-- A header that has been read is one that reading gives back. -/
theorem IsRead.isBuilt (hread : h.IsRead data) : h.IsBuilt :=
  ⟨hread.extraData, fun _ _ => hread.countAt_eq_zero⟩

/-- A buffer that starts with the bytes of a header is read as the header. -/
theorem read_overlay (hbuilt : h.IsBuilt) (hfits : h.size ≤ buffer.size) :
    read (buffer.overlay 0 h.bytes) = .ok h := by
  have hlen : 0 + h.bytes.length ≤ buffer.size := by rwa [Nat.zero_add, length_bytes]
  have hbuffer : buffer.overlay 0 h.bytes =
      (h.bytes ++ buffer.toList.drop h.bytes.length).toArray := by
    refine Array.ext_getElem? fun i => ?_
    rw [Bytes.getElem?_overlay hlen, Nat.zero_add, Nat.sub_zero]
    simp only [List.getElem?_toArray]
    split
    · next hi => rw [List.getElem?_append_left hi.2]
    · next hi =>
      have hle : h.bytes.length ≤ i := Nat.le_of_not_lt fun hlt => hi ⟨Nat.zero_le i, hlt⟩
      rw [List.getElem?_append_right hle, List.getElem?_drop, Nat.add_sub_cancel' hle,
        Array.getElem?_toList]
  rw [hbuffer]
  exact read_bytes hbuilt _

/-- The bytes of a header that has been read are those that it was read from. -/
theorem IsRead.getElem?_bytes (hread : h.IsRead data) {i : Nat} (hi : i < h.size) :
    h.bytes[i]? = data[i]? := by
  have hcopies := hread.copies_write
  have hfits : h.size ≤ (Bytes.zeros data.size).size := by
    rw [Bytes.size_zeros]
    exact hcopies.le
  have hlen : 0 + h.bytes.length ≤ (Bytes.zeros data.size).size := by
    rwa [Nat.zero_add, length_bytes]
  rw [← hcopies.getElem? i hi, write_eq hfits, Bytes.getElem?_overlay hlen,
    if_pos ⟨Nat.zero_le i, by rwa [Nat.zero_add, length_bytes]⟩, Nat.sub_zero]

/-! ### Where the fields stand -/

/-- The fields of the header stand in the bytes where they should, and its mask and its flags say
which of them there are. -/
structure StandsIn (h : StreamHeader) (data : Bytes) : Prop where
  reserved : data.number? 0 4 = some h.reserved.toNat
  major : data.number? 4 1 = some h.major.toNat
  minor : data.number? 5 1 = some h.minor.toNat
  flags : data.number? 6 1 = some h.flags.bits.toNat
  log2 : data.number? 7 1 = some h.log2.toNat
  valid : data.number? 8 8 = some h.valid.bits.toNat
  sorted : data.number? 16 8 = some h.sorted.bits.toNat
  /-- The row count of a bit, of a defined table or not, stands behind those of the lower bits. -/
  counts : ∀ n, h.valid.has n →
    data.number? (24 + 4 * (h.valid.below n).count) 4 = some (h.countAt n).toNat
  /-- A bit that is not set has no rows. -/
  clear : ∀ n, ¬h.valid.has n → h.countAt n = 0
  /-- The extra word is there if the flag is set. -/
  extra : h.extra?.isSome ↔ h.flags.bits &&& 0x40 ≠ 0
  /-- It stands behind the row counts. -/
  extraWord : ∀ x, h.extra? = some x → data.number? (24 + 4 * h.valid.count) 4 = some x.toNat

theorem IsRead.standsIn (hread : h.IsRead data) : h.StandsIn data where
  reserved := hread.reserved
  major := hread.major
  minor := hread.minor
  flags := hread.flags
  log2 := hread.log2
  valid := hread.valid
  sorted := hread.sorted
  counts n hn := by
    have hlt := TableMask.lt_of_has hn
    have hrank := TableMask.rank_lt_count hn
    have hle : 24 + 4 * h.valid.count ≤ data.size :=
      Nat.le_trans (Nat.le_add_right _ _) hread.copies_write.le
    have hcount : h.countAt n =
        UInt32.ofNat (data.numberD (fixedSize + 4 * h.valid.rank n) 4) := by
      rw [countAt, readCounts_eq hread.counts, announcedCounts, Vector.getElem?_ofFn, dif_pos hlt,
        if_pos hn, Option.getD_some]
    have hend : 24 + 4 * h.valid.rank n + 4 ≤ data.size := by omega
    rw [hcount, TableMask.count_below hlt]
    exact number?_toUInt32 hend
  clear n hn := hread.countAt_eq_zero fun hmem => hn (TableMask.mem_members_iff.mp hmem)
  extra := by
    rw [hread.extraData]
    exact bne_iff_ne
  extraWord := hread.extra

/-! ### The codec -/

/-- A header that has been read, or made for some row counts. -/
inductive IsMade : StreamHeader → Prop where
  /-- It has been read. -/
  | read {data : Bytes} {h : StreamHeader} (hread : read data = .ok h) : IsMade h
  /-- It has been made for some row counts. -/
  | ofCounts (major minor : UInt8) (flags : StreamFlags) (rows : PerTable UInt32)
      (sorted : TableMask) (extra? : Option UInt32) :
    IsMade (ofCounts major minor flags rows sorted extra?)

theorem IsMade.isBuilt (hmade : h.IsMade) : h.IsBuilt := by
  cases hmade with
  | read hread => exact (isRead_of_read hread).isBuilt
  | ofCounts => exact isBuilt_ofCounts ..

/-- What reading a header from some bytes comes to. -/
structure Reads (data : Bytes) : Prop where
  /-- Without the fixed part, the bytes are malformed. -/
  malformed : (∃ cause, read data = .error (.malformed cause)) ↔ data.size < 24
  /-- Without all that the fixed part announces, the bytes end too early. -/
  outOfBounds : read data = .error .outOfBounds ↔ 24 ≤ data.size ∧ data.size < announcedSize data
  /-- Otherwise there is a header, and its fields stand in the bytes. -/
  ok : 24 ≤ data.size → announcedSize data ≤ data.size →
    ∃ h, read data = .ok h ∧ h.StandsIn data ∧ h.size = announcedSize data

/-- What writing a header into a buffer comes to. -/
structure Writes (h : StreamHeader) (buffer : Bytes) : Prop where
  /-- A buffer that is shorter than the header ends too early. -/
  outOfBounds : (h.write (.start buffer 0)).result (h.write (.start buffer 0)).offset =
    .error .outOfBounds ↔ buffer.size < h.size
  /-- Otherwise all of the header is written, the bytes behind it stay, reading gives the header
  back, and if it has been read then its bytes are those that it was read from. -/
  ok : h.size ≤ buffer.size → ∃ buffer', h.write (.start buffer 0) = ⟨buffer', h.size, none⟩ ∧
    buffer'.size = buffer.size ∧ (∀ i, h.size ≤ i → buffer'[i]? = buffer[i]?) ∧
    read buffer' = .ok h ∧
    ∀ data, read data = .ok h → ∀ i < h.size, buffer'[i]? = data[i]?

/-- There is a value, unless the bytes end too early. -/
def EndsEarly {α : Type} (x : Except Error α) : Prop := x = .error .outOfBounds ∨ ∃ a, x = .ok a

namespace EndsEarly

variable {α β : Type} {x : Except Error α} {f : α → Except Error β}

theorem ok (a : α) : EndsEarly (.ok a : Except Error α) := .inr ⟨a, rfl⟩

theorem bind (hx : EndsEarly x) (hf : ∀ a, EndsEarly (f a)) : EndsEarly (x >>= f) := by
  rcases hx with rfl | ⟨a, rfl⟩
  · exact .inl rfl
  · exact hf a

end EndsEarly

theorem endsEarly_field (data : Bytes) (offset width : Nat) :
    EndsEarly (field data offset width) := by
  rw [field]
  cases data.number? offset width with
  | none => exact .inl rfl
  | some n => exact .ok n

theorem endsEarly_readCounts (data : Bytes) (bits : List Nat) (offset : Nat)
    (counts : Vector UInt32 64) : EndsEarly (readCounts data bits offset counts) := by
  induction bits generalizing offset counts with
  | nil => exact .ok _
  | cons n bits ih => exact (endsEarly_field ..).bind fun _ => ih ..

/-- With the fixed part there, nothing is malformed. -/
theorem endsEarly_read (hfixed : 24 ≤ data.size) : EndsEarly (read data) := by
  have hnot : ¬data.size < fixedSize := Nat.not_lt.mpr hfixed
  unfold read
  rw [if_neg hnot]
  refine (endsEarly_field data 0 4).bind fun reserved => ?_
  refine (endsEarly_field data 4 1).bind fun major => ?_
  refine (endsEarly_field data 5 1).bind fun minor => ?_
  refine (endsEarly_field data 6 1).bind fun flags => ?_
  refine (endsEarly_field data 7 1).bind fun log2 => ?_
  refine (endsEarly_field data 8 8).bind fun valid => ?_
  refine (endsEarly_field data 16 8).bind fun sorted => ?_
  refine (endsEarly_readCounts ..).bind fun counts => ?_
  dsimp only
  split
  · exact (endsEarly_field ..).bind fun extra => .ok _
  · exact .ok _

theorem read_eq_malformed (hshort : data.size < fixedSize) :
    read data = .error (.malformed (.streamTooShort data.size)) := by
  unfold read
  rw [if_pos hshort]
  rfl

/-- What reading comes to, for all bytes. -/
theorem reads (data : Bytes) : Reads data := by
  have hok (hfixed : 24 ≤ data.size) (hsize : announcedSize data ≤ data.size) :
      read data = .ok (announced data) := read_eq_ok_iff.mpr ⟨⟨hfixed, hsize⟩, rfl⟩
  refine ⟨⟨?_, fun hshort => ⟨_, read_eq_malformed hshort⟩⟩, ⟨fun h => ?_, ?_⟩, ?_⟩
  · rintro ⟨cause, h⟩
    by_contra hfixed
    rcases endsEarly_read (Nat.le_of_not_lt hfixed) with he | ⟨_, ha⟩
    · exact nomatch h.symm.trans he
    · exact nomatch h.symm.trans ha
  · have hfixed : 24 ≤ data.size := by
      by_contra hfixed
      exact nomatch h.symm.trans (read_eq_malformed (Nat.lt_of_not_le hfixed))
    refine ⟨hfixed, Nat.lt_of_not_le fun hsize => ?_⟩
    exact nomatch h.symm.trans (hok hfixed hsize)
  · rintro ⟨hfixed, hshort⟩
    refine (endsEarly_read hfixed).resolve_right ?_
    rintro ⟨h, hread⟩
    exact absurd (read_eq_ok_iff.mp hread).1.2 (Nat.not_le.mpr hshort)
  · intro hfixed hsize
    have hread := hok hfixed hsize
    exact ⟨_, hread, (isRead_of_read hread).standsIn, size_announced⟩

/-- What writing comes to, for all headers that there are and all buffers. -/
theorem writes (hmade : h.IsMade) (buffer : Bytes) : h.Writes buffer := by
  by_cases hfits : h.size ≤ buffer.size
  · have hlen : 0 + h.bytes.length ≤ buffer.size := by rwa [Nat.zero_add, length_bytes]
    have hbyte := Bytes.getElem?_overlay hlen
    rw [Nat.zero_add, length_bytes] at hbyte
    refine ⟨?_, fun _ => ⟨_, write_eq hfits, Bytes.size_overlay .., fun i hi => ?_,
      read_overlay hmade.isBuilt hfits, fun data hread i hi => ?_⟩⟩
    · rw [write_eq hfits]
      exact iff_of_false (by simp [Writer.result]) (Nat.not_lt.mpr hfits)
    · rw [hbyte, if_neg fun hin => absurd hi (Nat.not_le.mpr hin.2)]
    · rw [hbyte, if_pos ⟨Nat.zero_le i, hi⟩, Nat.sub_zero, (isRead_of_read hread).getElem?_bytes hi]
  · have hlarge := Nat.lt_of_not_le hfits
    refine ⟨iff_of_true ?_ hlarge, fun h => absurd h hfits⟩
    rw [Writer.result, error?_write hlarge]

/-- **The codec of headers.**  Reading fails with malformed bytes exactly if the fixed part is not
there, and for want of bytes exactly if it is there and something that it announces is not;
otherwise it gives a header, whose row counts stand in the order of their bits.  Writing a header
that has been read, or made for some row counts, fails for want of bytes exactly if the buffer is
shorter than the header; otherwise it writes as many bytes as the header is long, which are read as
the header again, and are those that it was read from, if it was. -/
theorem reads_and_writes :
    (∀ data, Reads data) ∧ ∀ h : StreamHeader, h.IsMade → ∀ buffer, h.Writes buffer :=
  ⟨reads, fun _ => writes⟩

/-- The header of a stream with three modules, and seven rows of a table that is not defined. -/
def undefinedTable : Bytes := #[0, 0, 0, 0, 2, 0, 0x40, 1,
  0x01, 0, 0, 0, 0, 0x20, 0, 0, 0, 0, 0, 0, 0, 0, 0, 0,
  3, 0, 0, 0, 7, 0, 0, 0, 9, 0, 0, 0]

/-- It does not fit in a buffer that is one byte shorter. -/
theorem reads_and_writes_undefinedTable :
    ∃ h, read undefinedTable = .ok h ∧ h.StandsIn undefinedTable ∧ h.size = 36 ∧
      (h.write (.start (.zeros 35) 0)).result (h.write (.start (.zeros 35) 0)).offset =
        .error .outOfBounds ∧
      ∃ buffer', h.write (.start (.zeros 40) 0) = ⟨buffer', 36, none⟩ ∧ read buffer' = .ok h := by
  obtain ⟨hreads, hwrites⟩ := reads_and_writes
  have hsize : announcedSize undefinedTable = 36 := by decide +kernel
  obtain ⟨h, hread, hstands, hlen⟩ := (hreads undefinedTable).ok (by decide) (by rw [hsize]; decide)
  rw [hsize] at hlen
  have hmade := IsMade.read hread
  obtain ⟨buffer', hwrite, -, -, hback, -⟩ :=
    (hwrites h hmade (.zeros 40)).ok (by rw [hlen]; decide)
  refine ⟨h, hread, hstands, hlen, ?_, buffer', hlen ▸ hwrite, hback⟩
  exact (hwrites h hmade (.zeros 35)).outOfBounds.mpr (by rw [hlen]; decide)

end StreamHeader

end ManagedImage
