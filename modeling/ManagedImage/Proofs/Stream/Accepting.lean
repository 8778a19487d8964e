import ManagedImage.Proofs.Stream.HeaderBytes
import ManagedImage.Proofs.Stream.Tiling

/-!
# Which streams are decoded

Whether some bytes can be decoded is a matter of their length and of what their header says:
all bytes that the header announces must be there, and the configuration must put up with it.

## Main definitions

* `StreamHeader.announced` — the header at the start of some bytes, whatever they are.
* `TablesStream.IsWellFormed` — the bytes hold all that their header announces.
* `Config.IsLaxer` — a configuration that puts up with more.

## Main results

* `StreamHeader.read_eq_ok_iff` — a header is read where its bytes are there.
* `TablesStream.exists_carve_iff` — tables are carved out where their bytes are there.
* `TablesStream.decodes_iff_isWellFormed` — a stream is decoded exactly if it is well-formed.
-/

namespace ManagedImage

/-- The number of `width` bytes at `offset`; zero if the buffer ends too early. -/
def Bytes.numberD (data : Bytes) (offset width : Nat) : Nat := (data.number? offset width).getD 0

/-- How many numbers below `n` are in the mask. -/
def TableMask.rank (m : TableMask) (n : Nat) : Nat := ((List.range n).filter m.has).length

namespace StreamHeader

/-- The row counts behind the fixed part of a header: that of bit `n` stands behind those of the
lower bits of the mask. -/
def announcedCounts (data : Bytes) (valid : TableMask) : Vector UInt32 64 :=
  Vector.ofFn fun n =>
    if valid.has n.val then UInt32.ofNat (data.numberD (fixedSize + 4 * valid.rank n.val) 4) else 0

/-- The header at the start of some bytes, with zero for all that is not there. -/
def announced (data : Bytes) : StreamHeader :=
  let flags := StreamFlags.mk (UInt8.ofNat (data.numberD 6 1))
  let valid := TableMask.mk (UInt64.ofNat (data.numberD 8 8))
  { reserved := UInt32.ofNat (data.numberD 0 4)
    major := UInt8.ofNat (data.numberD 4 1)
    minor := UInt8.ofNat (data.numberD 5 1)
    flags
    log2 := UInt8.ofNat (data.numberD 7 1)
    valid
    sorted := TableMask.mk (UInt64.ofNat (data.numberD 16 8))
    counts := announcedCounts data valid
    extra? :=
      if flags.extraData then some (UInt32.ofNat (data.numberD (fixedSize + 4 * valid.count) 4))
      else none }

/-- How many bytes the header takes that the fixed part announces. -/
def announcedSize (data : Bytes) : Nat :=
  24 + 4 * (announced data).valid.count + if (announced data).flags.extraData then 4 else 0

end StreamHeader

/-- The first configuration puts up with all that the second one puts up with. -/
structure Config.IsLaxer (lax config : Config) : Prop where
  /-- Unknown tables are allowed if they were. -/
  allowUnknownTables : config.allowUnknownTables → lax.allowUnknownTables
  /-- The header is checked only if it was. -/
  strictHeader : lax.strictHeader → config.strictHeader

/-- The bytes hold all that their header announces, and the configuration puts up with it. -/
structure TablesStream.IsWellFormed (config : Config) (data : Bytes) : Prop where
  /-- The fixed part of the header is there. -/
  fixed : 24 ≤ data.size
  /-- The row counts are there, and so is the extra word. -/
  header : StreamHeader.announcedSize data ≤ data.size
  /-- A strict configuration insists on a known version. -/
  strict : config.strictHeader → (StreamHeader.announced data).reserved = 0 ∧
    ((StreamHeader.announced data).major = 1 ∨ (StreamHeader.announced data).major = 2)
  /-- The highest number of a defined table is `0x2C`. -/
  defined : ¬config.allowUnknownTables → ∀ n, (StreamHeader.announced data).valid.has n → n ≤ 0x2C
  /-- The rows of all tables are there. -/
  tables : StreamHeader.announcedSize data +
    ((StreamHeader.announced data).valid.tables.map (StreamHeader.announced data).tableSize).sum ≤
      data.size

/-! ### Masks -/

namespace TableMask

variable {m : TableMask} {n : Nat}

theorem lt_of_has (h : m.has n) : n < 64 := by
  by_contra hn
  have hlt : m.bits.toNat < 2 ^ n :=
    Nat.lt_of_lt_of_le m.bits.toNat_lt (Nat.pow_le_pow_right (by decide) (Nat.le_of_not_lt hn))
  rw [has, Nat.testBit_lt_two_pow hlt] at h
  exact absurd h (by simp)

theorem mem_members_iff : n ∈ m.members ↔ m.has n :=
  ⟨fun h => (List.mem_filter.mp h).2,
    fun h => List.mem_filter.mpr ⟨List.mem_range.mpr (lt_of_has h), h⟩⟩

/-- In front of a number stand the lower ones. -/
theorem members_eq_append (h : m.has n) :
    ∃ after, m.members = (List.range n).filter m.has ++ n :: after := by
  have hrange : List.range 64 = List.range n ++ n :: List.range' (n + 1) (63 - n) := by
    have happend := List.range'_append_1 (s := 0) (m := n) (n := (63 - n) + 1)
    have hlen : n + ((63 - n) + 1) = 64 := by
      have hn := lt_of_has h
      omega
    rw [Nat.zero_add, hlen, List.range'_succ] at happend
    rw [List.range_eq_range', List.range_eq_range', happend]
  exact ⟨(List.range' (n + 1) (63 - n)).filter m.has, by
    rw [members, hrange, List.filter_append, List.filter_cons_of_pos h]⟩

end TableMask

/-! ### Headers -/

namespace StreamHeader

variable {data : Bytes} {offset width n k stop : Nat} {bits before after : List Nat}
  {counts counts' : Vector UInt32 64} {valid : TableMask} {h : StreamHeader}

theorem numberD_eq (hn : data.number? offset width = some n) : data.numberD offset width = n := by
  rw [Bytes.numberD, hn, Option.getD_some]

theorem number?_toUInt8 (hle : offset + 1 ≤ data.size) :
    data.number? offset 1 = some (UInt8.ofNat (data.numberD offset 1)).toNat := by
  obtain ⟨n, hn⟩ := Bytes.exists_number? hle
  rw [numberD_eq hn, number?_of_byte (field_eq_ok_iff.mpr hn)]

theorem number?_toUInt32 (hle : offset + 4 ≤ data.size) :
    data.number? offset 4 = some (UInt32.ofNat (data.numberD offset 4)).toNat := by
  obtain ⟨n, hn⟩ := Bytes.exists_number? hle
  rw [numberD_eq hn, number?_of_word (field_eq_ok_iff.mpr hn)]

theorem number?_toUInt64 (hle : offset + 8 ≤ data.size) :
    data.number? offset 8 = some (UInt64.ofNat (data.numberD offset 8)).toNat := by
  obtain ⟨n, hn⟩ := Bytes.exists_number? hle
  rw [numberD_eq hn, number?_of_long (field_eq_ok_iff.mpr hn)]

/-- Row counts are read where they are there. -/
theorem exists_readCounts (counts : Vector UInt32 64)
    (hle : offset + 4 * bits.length ≤ data.size) :
    ∃ counts', readCounts data bits offset counts = .ok (counts', offset + 4 * bits.length) := by
  induction bits generalizing offset counts with
  | nil => exact ⟨counts, rfl⟩
  | cons n bits ih =>
    rw [List.length_cons, Nat.mul_succ, Nat.add_comm (4 * bits.length), ← Nat.add_assoc] at hle ⊢
    obtain ⟨k, hk⟩ := Bytes.exists_number? (Nat.le_trans (Nat.le_add_right _ _) hle)
    obtain ⟨counts', hcounts⟩ := ih _ hle
    exact ⟨counts', by rw [readCounts, field_eq_ok_iff.mpr hk]; exact hcounts⟩

/-- The row count of a bit stands behind those of the bits in front of it. -/
theorem getElem?_readCounts_of_mem
    (hread : readCounts data (before ++ n :: after) offset counts = .ok (counts', stop))
    (hnodup : (before ++ n :: after).Nodup) (hn : n < 64) :
    counts'[n]? = some (UInt32.ofNat (data.numberD (offset + 4 * before.length) 4)) := by
  induction before generalizing offset counts with
  | nil =>
    obtain ⟨k, hk, hread⟩ := exists_of_bind_eq_ok hread
    have hafter : n ∉ after := (List.nodup_cons.mp hnodup).1
    rw [getElem?_readCounts hread hafter, Vector.getElem?_setIfInBounds_self_of_lt hn,
      List.length_nil, Nat.mul_zero, Nat.add_zero, numberD_eq (field_eq_ok_iff.mp hk)]
  | cons m before ih =>
    obtain ⟨k, -, hread⟩ := exists_of_bind_eq_ok hread
    rw [ih hread (List.nodup_cons.mp hnodup).2, List.length_cons, Nat.mul_succ,
      Nat.add_comm (4 * before.length), Nat.add_assoc]

/-- The row counts that are read are those announced. -/
theorem readCounts_eq
    (hread : readCounts data valid.members fixedSize (Vector.replicate 64 0) =
      .ok (counts, stop)) : counts = announcedCounts data valid := by
  apply Vector.ext
  intro n hn
  rw [announcedCounts, Vector.getElem_ofFn]
  apply Option.some.inj
  rw [← Vector.getElem?_eq_getElem hn]
  by_cases hvalid : valid.has n
  · obtain ⟨after, hmembers⟩ := TableMask.members_eq_append hvalid
    have hnodup := valid.nodup_members
    rw [hmembers] at hread hnodup
    rw [getElem?_readCounts_of_mem hread hnodup hn, if_pos hvalid, TableMask.rank]
  · have hmem : n ∉ valid.members := fun hmem => hvalid (TableMask.mem_members_iff.mp hmem)
    rw [getElem?_readCounts hread hmem, Vector.getElem?_replicate, if_pos hn, if_neg hvalid]

theorem extra?_announced : (announced data).extra? =
    if (announced data).flags.extraData then
      some (UInt32.ofNat (data.numberD (fixedSize + 4 * (announced data).valid.count) 4))
    else none := rfl

theorem size_announced : (announced data).size = announcedSize data := by
  rw [size, extra?_announced, announcedSize]
  cases (announced data).flags.extraData <;> rfl

/-- A header that has been read is the one announced. -/
theorem IsRead.eq_announced (hread : h.IsRead data) : h = announced data := by
  have hcounts := readCounts_eq hread.counts
  have hextra : h.extra? = if h.flags.extraData then
      some (UInt32.ofNat (data.numberD (fixedSize + 4 * h.valid.count) 4)) else none := by
    rw [← hread.extraData]
    cases hx : h.extra? with
    | none => rfl
    | some x => rw [numberD_eq (hread.extra x hx), UInt32.ofNat_toNat]; rfl
  rw [announced]
  simp only [numberD_eq hread.reserved, numberD_eq hread.major, numberD_eq hread.minor,
    numberD_eq hread.flags, numberD_eq hread.log2, numberD_eq hread.valid, numberD_eq hread.sorted,
    UInt32.ofNat_toNat, UInt8.ofNat_toNat, UInt64.ofNat_toNat, ← hcounts, ← hextra]

/-- The header announced can be read where all its bytes are there. -/
theorem isRead_announced (hfixed : 24 ≤ data.size) (hsize : announcedSize data ≤ data.size) :
    (announced data).IsRead data := by
  have hcounts : fixedSize + 4 * (announced data).valid.count ≤ data.size :=
    Nat.le_trans (Nat.le_add_right _ _) hsize
  obtain ⟨counts, hread⟩ := exists_readCounts (Vector.replicate 64 0) hcounts
  exact {
    reserved := number?_toUInt32 (Nat.le_trans (by decide) hfixed)
    major := number?_toUInt8 (Nat.le_trans (by decide) hfixed)
    minor := number?_toUInt8 (Nat.le_trans (by decide) hfixed)
    flags := number?_toUInt8 (Nat.le_trans (by decide) hfixed)
    log2 := number?_toUInt8 (Nat.le_trans (by decide) hfixed)
    valid := number?_toUInt64 (Nat.le_trans (by decide) hfixed)
    sorted := number?_toUInt64 (Nat.le_trans (by decide) hfixed)
    counts := by
      have hcounts : (announced data).counts = counts := (readCounts_eq hread).symm
      rw [hcounts]
      exact hread
    extra := fun x hx => by
      obtain ⟨hflag, hx⟩ := Option.ite_none_right_eq_some.mp (extra?_announced.symm.trans hx)
      obtain rfl := Option.some.inj hx
      rw [announcedSize, if_pos hflag] at hsize
      exact number?_toUInt32 hsize
    extraData := by
      rw [extra?_announced]
      cases (announced data).flags.extraData <;> rfl }

/-- **A header is read where all its bytes are there**, and it is the one announced. -/
theorem read_eq_ok_iff :
    read data = .ok h ↔
      (24 ≤ data.size ∧ announcedSize data ≤ data.size) ∧ h = announced data := by
  constructor
  · intro hread
    have hread := isRead_of_read hread
    obtain rfl := hread.eq_announced
    obtain ⟨bytes, hbytes, -⟩ := Option.map_eq_some_iff.mp hread.sorted
    exact ⟨⟨(Bytes.window?_eq_some_iff.mp hbytes).1, size_announced ▸ hread.copies_write.le⟩, rfl⟩
  · rintro ⟨⟨hfixed, hsize⟩, rfl⟩
    exact (isRead_announced hfixed hsize).read_eq

theorem failsOnFormat_field : FailsAs [.format] (field data offset width) := by
  rw [field]
  cases data.number? offset width with
  | none => exact .error (List.mem_singleton_self _)
  | some n => exact .ok n

theorem failsOnFormat_readCounts : FailsAs [.format] (readCounts data bits offset counts) := by
  induction bits generalizing offset counts with
  | nil => exact .ok _
  | cons n bits ih => exact failsOnFormat_field.bind fun _ => ih

/-- A header that cannot be read is malformed. -/
theorem failsOnFormat_read : FailsAs [.format] (read data) := by
  unfold read
  dsimp only
  split
  · exact .error (List.mem_singleton_self _)
  refine failsOnFormat_field.bind fun reserved => ?_
  refine failsOnFormat_field.bind fun major => ?_
  refine failsOnFormat_field.bind fun minor => ?_
  refine failsOnFormat_field.bind fun flags => ?_
  refine failsOnFormat_field.bind fun log2 => ?_
  refine failsOnFormat_field.bind fun valid => ?_
  refine failsOnFormat_field.bind fun sorted => ?_
  refine failsOnFormat_readCounts.bind fun counts => ?_
  split
  · exact failsOnFormat_field.bind fun extra => .ok _
  · exact .ok _

end StreamHeader

/-! ### Streams -/

namespace TablesStream

variable {data : Bytes} {header : StreamHeader} {config lax : Config} {s : TablesStream}
  {layouts : PerTable Layout} {tables : List TableId} {offset : Nat}
  {found : PerTable (Option CarvedTable)}

theorem unknownBits_eq_nil_iff :
    header.unknownBits = [] ↔ ∀ n, header.valid.has n → n ≤ 0x2C := by
  rw [StreamHeader.unknownBits, List.filter_eq_nil_iff]
  simp only [TableMask.mem_members_iff, decide_eq_true_eq, Nat.not_le]
  exact forall₂_congr fun n _ => Nat.lt_succ_iff

/-- Which headers a configuration puts up with. -/
theorem checkHeader_eq_ok_iff :
    checkHeader config header = .ok () ↔
      (config.strictHeader → header.reserved = 0 ∧ (header.major = 1 ∨ header.major = 2)) ∧
      (¬config.allowUnknownTables → ∀ n, header.valid.has n → n ≤ 0x2C) := by
  have hstrict : (config.strictHeader → header.reserved = 0 ∧
      (header.major = 1 ∨ header.major = 2)) ↔ ¬(config.strictHeader ∧
        (header.reserved ≠ 0 ∨ header.major ≠ 1 ∧ header.major ≠ 2)) := by tauto
  have hdefined : (¬config.allowUnknownTables → header.unknownBits = []) ↔
      ¬(¬config.allowUnknownTables ∧ header.unknownBits ≠ []) := by tauto
  rw [← unknownBits_eq_nil_iff, hstrict, hdefined, checkHeader]
  split
  · next hrejected => exact iff_of_false nofun fun h => h.1 hrejected
  · next hversion =>
    split
    · next hrejected => exact iff_of_false nofun fun h => h.2 hrejected
    · next hknown => exact iff_of_true rfl ⟨hversion, hknown⟩

theorem failsOnFormat_checkHeader : FailsAs [.format] (checkHeader config header) := by
  rw [checkHeader]
  split
  · exact .error (List.mem_singleton_self _)
  · split
    · exact .error (List.mem_singleton_self _)
    · exact .ok _

/-- **Tables are carved out where their bytes are there.** -/
theorem exists_carve_iff (found : PerTable (Option CarvedTable)) (hoffset : offset ≤ data.size) :
    (∃ carved, carve data header (Layout.resolveAll header.widths) tables offset found =
      .ok carved) ↔ offset + (tables.map header.tableSize).sum ≤ data.size := by
  induction tables generalizing offset found with
  | nil => exact iff_of_true ⟨_, rfl⟩ hoffset
  | cons t tables ih =>
    have hget : (Layout.resolveAll header.widths).get t = Layout.resolve header.widths t := by
      rw [Layout.resolveAll, PerTable.get_ofFn]
    rw [List.map_cons, List.sum_cons, ← Nat.add_assoc, carve, hget]
    split
    · next hle =>
      have hsize : (header.rowCount t).toNat * (Layout.resolve header.widths t).rowSize ≤
          (data.extract offset (offset + (header.rowCount t).toNat *
            (Layout.resolve header.widths t).rowSize)).size := by
        rw [Array.size_extract, Nat.min_eq_left hle, Nat.add_sub_cancel_left]
      rw [Rows.ofBytes, dif_pos hsize]
      exact ih _ hle
    · next hlt =>
      refine iff_of_false ?_ fun h => hlt (Nat.le_trans (Nat.le_add_right _ _) h)
      rintro ⟨carved, h⟩
      cases h

theorem failsOnFormat_ofBytes {t : TableId} {layout : Layout} {count : UInt32} :
    FailsAs [.format] (Rows.ofBytes t layout count data) := by
  rw [Rows.ofBytes]
  split
  · exact .ok _
  · exact .error (List.mem_singleton_self _)

theorem failsOnFormat_carve : FailsAs [.format] (carve data header layouts tables offset found) := by
  induction tables generalizing offset found with
  | nil => exact .ok _
  | cons t tables ih =>
    rw [carve]
    split
    · exact failsOnFormat_ofBytes.bind fun rows => ih
    · exact .error (List.mem_singleton_self _)

/-- A stream that cannot be decoded is malformed. -/
theorem failsOnFormat_decode : FailsAs [.format] (decode config data) :=
  StreamHeader.failsOnFormat_read.bind fun _ => failsOnFormat_checkHeader.bind fun _ =>
    failsOnFormat_carve.bind fun _ => .ok _

/-- A stream is decoded from a header that can be read and is accepted and tables that can be carved
out. -/
theorem decode_of_carve {stop : Nat} (hheader : StreamHeader.read data = .ok header)
    (hcheck : checkHeader config header = .ok ())
    (hcarve : carve data header (Layout.resolveAll header.widths) header.valid.tables header.size
      (PerTable.replicate none) = .ok (found, stop)) :
    decode config data = .ok ⟨data, header, header.widths, Layout.resolveAll header.widths, found,
      stop⟩ := by
  simp only [decode, hheader, hcheck, hcarve, bind, Except.bind, pure, Except.pure]

/-- Decodable are the bytes that hold all that their header announces. -/
theorem exists_decode_iff :
    (∃ s, decode config data = .ok s) ↔ IsWellFormed config data := by
  constructor
  · rintro ⟨s, h⟩
    obtain ⟨header, hheader, h⟩ := exists_of_bind_eq_ok h
    obtain ⟨⟨⟩, hcheck, h⟩ := exists_of_bind_eq_ok h
    obtain ⟨carved, hcarve, -⟩ := exists_of_bind_eq_ok h
    obtain ⟨⟨hfixed, hsize⟩, rfl⟩ := StreamHeader.read_eq_ok_iff.mp hheader
    obtain ⟨hstrict, hdefined⟩ := checkHeader_eq_ok_iff.mp hcheck
    have htables := (exists_carve_iff _ (StreamHeader.size_announced ▸ hsize)).mp ⟨carved, hcarve⟩
    exact ⟨hfixed, hsize, hstrict, hdefined, StreamHeader.size_announced ▸ htables⟩
  · intro h
    have hheader := StreamHeader.read_eq_ok_iff.mpr ⟨⟨h.fixed, h.header⟩, rfl⟩
    have hcheck := checkHeader_eq_ok_iff.mpr ⟨h.strict, h.defined⟩
    obtain ⟨⟨tables, stop⟩, hcarve⟩ := (exists_carve_iff (PerTable.replicate none)
      (StreamHeader.size_announced ▸ h.header)).mpr (StreamHeader.size_announced ▸ h.tables)
    exact ⟨_, decode_of_carve hheader hcheck hcarve⟩

/-- What one configuration decodes, a laxer one decodes to the same stream. -/
theorem decode_of_isLaxer (hlax : lax.IsLaxer config) (h : decode config data = .ok s) :
    decode lax data = .ok s := by
  obtain ⟨header, hheader, h⟩ := exists_of_bind_eq_ok h
  obtain ⟨⟨⟩, hcheck, h⟩ := exists_of_bind_eq_ok h
  obtain ⟨⟨tables, stop⟩, hcarve, h⟩ := exists_of_bind_eq_ok h
  obtain ⟨hstrict, hdefined⟩ := checkHeader_eq_ok_iff.mp hcheck
  have hcheck' : checkHeader lax header = .ok () :=
    checkHeader_eq_ok_iff.mpr ⟨fun hlax' => hstrict (hlax.strictHeader hlax'),
      fun hlax' => hdefined (mt hlax.allowUnknownTables hlax')⟩
  exact (decode_of_carve hheader hcheck' hcarve).trans h

/-- **The decoder accepts exactly the well-formed streams.**  All others it rejects because of their
format, and a configuration that puts up with more changes nothing about what is decoded. -/
theorem decodes_iff_isWellFormed (config : Config) (data : Bytes) :
    ((∃ s, decode config data = .ok s) ↔ IsWellFormed config data) ∧
      (∀ e, decode config data = .error e → e.category = .format) ∧
      ∀ lax : Config, lax.IsLaxer config → ∀ s, decode config data = .ok s →
        decode lax data = .ok s :=
  ⟨exists_decode_iff, fun e h => List.mem_singleton.mp (failsOnFormat_decode e h),
    fun _ hlax _ h => decode_of_isLaxer hlax h⟩

theorem isLaxer_lenient_strict : Config.lenient.IsLaxer .strict := ⟨fun _ => rfl, nofun⟩

/-- The lenient configuration decodes what the strict one does, but not with the last five bytes
missing. -/
theorem decodes_iff_isWellFormed_padded :
    (∃ s, decode .strict padded = .ok s ∧ decode .lenient padded = .ok s) ∧
      IsWellFormed .strict padded ∧ ¬IsWellFormed .lenient (padded.extract 0 65) ∧
      ∃ e, decode .lenient (padded.extract 0 65) = .error e ∧ e.category = .format := by
  have hpadded : (decode .strict padded).isOk = true := by decide +kernel
  have hcut : (decode .lenient (padded.extract 0 65)).isOk = false := by decide +kernel
  obtain ⟨haccepts, -, hlax⟩ := decodes_iff_isWellFormed .strict padded
  obtain ⟨hcuts, hformat, -⟩ := decodes_iff_isWellFormed .lenient (padded.extract 0 65)
  cases h : decode .strict padded with
  | error e => exact absurd hpadded (by simp [h, Except.isOk, Except.toBool])
  | ok s =>
    cases h' : decode .lenient (padded.extract 0 65) with
    | ok s' => exact absurd hcut (by simp [h', Except.isOk, Except.toBool])
    | error e =>
      have hcut' : ¬∃ s', decode .lenient (padded.extract 0 65) = .ok s' := by simp [h']
      exact ⟨⟨s, rfl, hlax .lenient isLaxer_lenient_strict s h⟩, haccepts.mp ⟨s, h⟩,
        mt hcuts.mpr hcut', e, rfl, hformat e h'⟩

end TablesStream

end ManagedImage
