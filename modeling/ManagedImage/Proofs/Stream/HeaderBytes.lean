import ManagedImage.Proofs.Bytes.Appending
import ManagedImage.Proofs.Stream.Header

/-!
# Writing headers and reading them again

The header of a stream that is built says what the builder was told, and reading it gives it back.

## Main definitions

* `StreamHeader.IsBuilt` — the parts of a header that depend on each other fit together.
* `StreamHeader.bytes` — the bytes of a header.

## Main results

* `StreamHeader.writes_write` — writing a header gives its bytes.
* `StreamHeader.read_bytes` — reading the bytes gives the header.
* `StreamHeader.isBuilt_ofCounts` — the header for some row counts is such a header.
-/

namespace ManagedImage

namespace TableMask

theorem toNat_bit (t : TableId) : (bit t).toNat = 2 ^ t.index := by cases t <;> rfl

/-- The bits of some tables are added one by one. -/
theorem testBit_foldl (tables : List TableId) (bits : UInt64) (n : Nat) :
    (tables.foldl (fun bits t => bits ||| bit t) bits).toNat.testBit n =
      (bits.toNat.testBit n || tables.any (·.index == n)) := by
  induction tables generalizing bits with
  | nil => simp
  | cons t tables ih =>
    have hbit : (2 ^ t.index).testBit n = (t.index == n) := by
      rw [Nat.testBit_two_pow]
      rfl
    rw [List.foldl_cons, ih, UInt64.toNat_or, Nat.testBit_or, toNat_bit, hbit, List.any_cons,
      Bool.or_assoc]

/-- The mask of some tables has the numbers of these tables. -/
theorem has_ofTables (p : TableId → Bool) (n : Nat) :
    (ofTables p).has n = (TableId.ofIndex? n).any p := by
  rw [has, ofTables, testBit_foldl, UInt64.toNat_zero, Nat.zero_testBit, Bool.false_or,
    Bool.eq_iff_iff, List.any_eq_true, Option.any_eq_true]
  constructor
  · rintro ⟨t, ht, hn⟩
    obtain rfl := eq_of_beq hn
    exact ⟨t, t.ofIndex?_index, (List.mem_filter.mp ht).2⟩
  · rintro ⟨t, ht, hp⟩
    refine ⟨t, List.mem_filter.mpr ⟨t.mem_all, hp⟩, beq_iff_eq.mpr ?_⟩
    exact TableId.index_of_ofIndex? ht

theorem contains_ofTables (p : TableId → Bool) (t : TableId) : (ofTables p).contains t = p t := by
  rw [contains, has_ofTables, TableId.ofIndex?_index, Option.any_some]

end TableMask

namespace StreamHeader

variable {h : StreamHeader} {data : Bytes} {w : Writer} {out rest : List UInt8}

/-- The parts of a header that depend on each other fit together. -/
structure IsBuilt (h : StreamHeader) : Prop where
  /-- The extra word is there if the flags say so. -/
  extraData : h.extra?.isSome = h.flags.extraData
  /-- A bit that is not in the mask has no rows. -/
  countAt : ∀ n < 64, n ∉ h.valid.members → h.countAt n = 0

/-- The bytes of the row counts. -/
def countBytes (h : StreamHeader) : List UInt8 :=
  h.valid.members.flatMap fun n => LittleEndian.encode 4 (h.countAt n).toNat

/-- The bytes of the extra word. -/
def extraBytes (h : StreamHeader) : List UInt8 :=
  (h.extra?.map fun x => LittleEndian.encode 4 x.toNat).getD []

/-- The bytes in front of the row counts. -/
def fixedBytes (h : StreamHeader) : List UInt8 :=
  LittleEndian.encode 4 h.reserved.toNat ++ (LittleEndian.encode 1 h.major.toNat ++
    (LittleEndian.encode 1 h.minor.toNat ++ (LittleEndian.encode 1 h.flags.bits.toNat ++
    (LittleEndian.encode 1 h.log2.toNat ++ (LittleEndian.encode 8 h.valid.bits.toNat ++
    LittleEndian.encode 8 h.sorted.bits.toNat)))))

/-- The bytes of a header. -/
def bytes (h : StreamHeader) : List UInt8 := h.fixedBytes ++ (h.countBytes ++ h.extraBytes)

theorem length_fixedBytes : h.fixedBytes.length = fixedSize := by
  simp [fixedBytes, fixedSize]

theorem length_countBytes : h.countBytes.length = 4 * h.valid.count := by
  simp [countBytes, TableMask.count, List.length_flatMap, Nat.mul_comm]

theorem length_bytes : h.bytes.length = h.size := by
  rw [bytes, List.length_append, List.length_append, length_fixedBytes, length_countBytes, size,
    ← Nat.add_assoc]
  congr 1
  rw [extraBytes]
  cases h.extra? <;> simp

/-! ### Writing -/

theorem writes_counts (f : Nat → Nat) (bits : List Nat)
    (hw : w.Writes out (bits.flatMap (fun n => LittleEndian.encode 4 (f n)) ++ rest)) :
    (bits.foldl (fun w n => w.putNumber 4 (f n)) w).Writes
      (out ++ bits.flatMap fun n => LittleEndian.encode 4 (f n)) rest := by
  induction bits generalizing w out with
  | nil => simpa using hw
  | cons n bits ih =>
    rw [List.flatMap_cons, List.append_assoc] at hw
    rw [List.foldl_cons, List.flatMap_cons, ← List.append_assoc]
    exact ih hw.putNumber

/-- **Writing a header gives its bytes.** -/
theorem writes_write (hw : w.Writes out (h.bytes ++ rest)) :
    (h.write w).Writes (out ++ h.bytes) rest := by
  simp only [bytes, fixedBytes, List.append_assoc] at hw
  have hfixed := hw.putNumber.putNumber.putNumber.putNumber.putNumber.putNumber.putNumber
  have hcounts := writes_counts (fun n => (h.countAt n).toNat) h.valid.members hfixed
  rw [write, bytes, fixedBytes, extraBytes]
  rw [extraBytes] at hcounts
  cases hextra : h.extra? with
  | some x =>
    rw [hextra] at hcounts
    simpa [countBytes] using Writer.Writes.putNumber hcounts
  | none =>
    rw [hextra] at hcounts
    simpa [countBytes] using hcounts

/-! ### Reading -/

/-- Row counts are read where they were written. -/
theorem readCounts_bytes (f : Nat → UInt32) (bits : List Nat) (before after : List UInt8)
    (counts : Vector UInt32 64) :
    readCounts (before ++ (bits.flatMap (fun n => LittleEndian.encode 4 (f n).toNat)
        ++ after)).toArray bits before.length counts
      = .ok (bits.foldl (fun counts n => counts.setIfInBounds n (f n)) counts,
          before.length + 4 * bits.length) := by
  induction bits generalizing before counts with
  | nil => rfl
  | cons n bits ih =>
    have hfield : field (before ++ (LittleEndian.encode 4 (f n).toNat
        ++ (bits.flatMap (fun n => LittleEndian.encode 4 (f n).toNat) ++ after))).toArray
        before.length 4 = .ok (f n).toNat :=
      field_eq_ok_iff.mpr (Bytes.number?_append (f n).toNat_lt before _)
    have hrest := ih (before ++ LittleEndian.encode 4 (f n).toNat) (counts.setIfInBounds n (f n))
    rw [List.length_append, LittleEndian.length_encode, List.append_assoc] at hrest
    rw [List.flatMap_cons, List.append_assoc, readCounts, hfield]
    change readCounts _ bits _ (counts.setIfInBounds n (UInt32.ofNat (f n).toNat)) = _
    rw [UInt32.ofNat_toNat, hrest, List.foldl_cons, List.length_cons, Nat.mul_succ,
      Nat.add_comm (4 * bits.length), Nat.add_assoc]

/-- The row counts of a header are those that are set one by one. -/
theorem getElem?_foldl_set (f : Nat → UInt32) (bits : List Nat) (counts : Vector UInt32 64)
    {n : Nat} (hn : n < 64) :
    (bits.foldl (fun counts n => counts.setIfInBounds n (f n)) counts)[n]? =
      if n ∈ bits then some (f n) else counts[n]? := by
  induction bits generalizing counts with
  | nil => simp
  | cons m bits ih =>
    rw [List.foldl_cons, ih]
    by_cases hmem : n ∈ bits
    · rw [if_pos hmem, if_pos (List.mem_cons_of_mem m hmem)]
    · rw [if_neg hmem]
      by_cases hm : n = m
      · subst hm
        rw [if_pos List.mem_cons_self, Vector.getElem?_setIfInBounds_self_of_lt hn]
      · rw [if_neg (by simp [hm, hmem]), Vector.getElem?_setIfInBounds_ne (Ne.symm hm)]

/-- A header whose parts stand in the bytes is read from them. -/
theorem IsRead.read_eq (hread : h.IsRead data) : read data = .ok h := by
  have hsize : fixedSize ≤ data.size := by
    have hwindow := Bytes.window?_of_number? hread.sorted
    exact (Bytes.window?_eq_some_iff.mp hwindow).1
  have hfield {offset width n : Nat} (hn : data.number? offset width = some n) :
      field data offset width = .ok n := field_eq_ok_iff.mpr hn
  unfold read
  rw [if_neg (Nat.not_lt.mpr hsize)]
  simp only [hfield hread.reserved, hfield hread.major, hfield hread.minor, hfield hread.flags,
    hfield hread.log2, hfield hread.valid, hfield hread.sorted, bind, Except.bind,
    UInt32.ofNat_toNat, UInt8.ofNat_toNat, UInt64.ofNat_toNat, hread.counts, ← hread.extraData]
  cases hextra : h.extra? with
  | some x =>
    simp only [hfield (hread.extra x hextra), Option.isSome_some, if_true, UInt32.ofNat_toNat]
    rw [← hextra]
    rfl
  | none =>
    rw [if_neg (by simp), ← hextra]
    rfl

/-- The row counts of a header are read from its bytes. -/
theorem readCounts_countBytes (hbuilt : h.IsBuilt) (after : List UInt8) :
    readCounts (h.bytes ++ after).toArray h.valid.members fixedSize (Vector.replicate 64 0)
      = .ok (h.counts, fixedSize + 4 * h.valid.count) := by
  have hcounts : h.valid.members.foldl (fun counts n => counts.setIfInBounds n (h.countAt n))
      (Vector.replicate 64 0) = h.counts := by
    apply Vector.ext
    intro n hn
    have hget := getElem?_foldl_set h.countAt h.valid.members (Vector.replicate 64 0) hn
    have hcount : h.countAt n = h.counts[n] := by
      rw [countAt, Vector.getElem?_eq_getElem hn, Option.getD_some]
    rw [Vector.getElem?_eq_getElem hn] at hget
    split at hget
    · rw [Option.some.inj hget, hcount]
    · next hmem =>
      rw [Vector.getElem?_replicate, if_pos hn] at hget
      rw [Option.some.inj hget, ← hcount, hbuilt.countAt n hn hmem]
  have hread := readCounts_bytes h.countAt h.valid.members h.fixedBytes (h.extraBytes ++ after)
    (Vector.replicate 64 0)
  rw [hcounts, length_fixedBytes] at hread
  rw [bytes, List.append_assoc, List.append_assoc]
  exact hread

/-- The extra word of a header is read from its bytes. -/
theorem number?_extraBytes {x : UInt32} (hx : h.extra? = some x) (after : List UInt8) :
    Bytes.number? (h.bytes ++ after).toArray (fixedSize + 4 * h.valid.count) 4 = some x.toNat := by
  have hlt : x.toNat < 256 ^ 4 := x.toNat_lt
  have hword := Bytes.number?_append hlt (h.fixedBytes ++ h.countBytes) after
  rw [List.length_append, length_fixedBytes, length_countBytes] at hword
  rw [bytes, extraBytes, hx, ← List.append_assoc, List.append_assoc]
  exact hword

/-- A header stands in its bytes. -/
theorem isRead_bytes (hbuilt : h.IsBuilt) (after : List UInt8) :
    h.IsRead (h.bytes ++ after).toArray := by
  -- each field stands behind those that were written before it
  have hfield (before : List UInt8) (width n : Nat) (rest : List UInt8) (hn : n < 256 ^ width)
      (heq : h.fixedBytes = before ++ (LittleEndian.encode width n ++ rest)) :
      Bytes.number? (h.bytes ++ after).toArray before.length width = some n := by
    rw [bytes, heq, List.append_assoc, List.append_assoc, List.append_assoc]
    exact Bytes.number?_append hn before _
  let reserved := LittleEndian.encode 4 h.reserved.toNat
  let major := LittleEndian.encode 1 h.major.toNat
  let minor := LittleEndian.encode 1 h.minor.toNat
  let flags := LittleEndian.encode 1 h.flags.bits.toNat
  let log2 := LittleEndian.encode 1 h.log2.toNat
  let valid := LittleEndian.encode 8 h.valid.bits.toNat
  let sorted := LittleEndian.encode 8 h.sorted.bits.toNat
  exact {
    reserved := hfield [] 4 _ _ h.reserved.toNat_lt rfl
    major := hfield reserved 1 _ _ h.major.toNat_lt rfl
    minor := hfield (reserved ++ major) 1 _ _ h.minor.toNat_lt rfl
    flags := hfield (reserved ++ major ++ minor) 1 _ _ h.flags.bits.toNat_lt rfl
    log2 := hfield (reserved ++ major ++ minor ++ flags) 1 _ _ h.log2.toNat_lt rfl
    valid := hfield (reserved ++ major ++ minor ++ flags ++ log2) 8 _ _ h.valid.bits.toNat_lt rfl
    sorted := hfield (reserved ++ major ++ minor ++ flags ++ log2 ++ valid) 8 _ []
      h.sorted.bits.toNat_lt rfl
    counts := readCounts_countBytes hbuilt after
    extra := fun x hx => number?_extraBytes hx after
    extraData := hbuilt.extraData }

/-- **Reading the bytes of a header gives the header.** -/
theorem read_bytes (hbuilt : h.IsBuilt) (after : List UInt8) :
    read (h.bytes ++ after).toArray = .ok h := (isRead_bytes hbuilt after).read_eq

/-! ### The header for some row counts -/

/-- The flag for the extra word is set as asked for. -/
theorem extraData_withExtraData (f : StreamFlags) (present : Bool) :
    (f.withExtraData present).extraData = present := by
  have hbits : ∀ bits : UInt8, (bits ||| 0x40) &&& 0x40 ≠ 0 ∧ (bits &&& 0xBF) &&& 0x40 = 0 := by
    decide +kernel
  obtain ⟨hset, hclear⟩ := hbits f.bits
  cases present with
  | true => exact bne_iff_ne.mpr hset
  | false => exact bne_eq_false_iff_eq.mpr hclear

/-- The other flags stay. -/
theorem withExtraData_and (f : StreamFlags) (present : Bool) :
    (f.withExtraData present).bits &&& 0xBF = f.bits &&& 0xBF := by
  have hbits : ∀ bits : UInt8, (bits ||| 0x40) &&& 0xBF = bits &&& 0xBF ∧
      (bits &&& 0xBF) &&& 0xBF = bits &&& 0xBF := by
    decide +kernel
  cases present with
  | true => exact (hbits f.bits).1
  | false => exact (hbits f.bits).2

section OfCounts

variable (major minor : UInt8) (flags : StreamFlags) (rows : PerTable UInt32) (sorted : TableMask)
  (extra? : Option UInt32)

theorem countAt_ofCounts {n : Nat} (hn : n < 64) :
    (ofCounts major minor flags rows sorted extra?).countAt n =
      ((TableId.ofIndex? n).map rows.get).getD 0 := by
  rw [countAt, ofCounts, Vector.getElem?_ofFn, dif_pos hn, Option.getD_some]
  dsimp only
  cases TableId.ofIndex? n <;> rfl

theorem rowCount_ofCounts (t : TableId) :
    (ofCounts major minor flags rows sorted extra?).rowCount t = rows.get t := by
  have ht : t.index < 64 := Nat.lt_trans t.index_lt (by decide)
  rw [rowCount, countAt_ofCounts _ _ _ _ _ _ ht, TableId.ofIndex?_index]
  rfl

/-- The tables that have rows are present. -/
theorem contains_valid_ofCounts (t : TableId) :
    (ofCounts major minor flags rows sorted extra?).valid.contains t = (rows.get t != 0) :=
  TableMask.contains_ofTables _ t

/-- **The header for some row counts** is one that reading gives back. -/
theorem isBuilt_ofCounts : (ofCounts major minor flags rows sorted extra?).IsBuilt where
  extraData := (extraData_withExtraData flags extra?.isSome).symm
  countAt n hn hmem := by
    rw [countAt_ofCounts _ _ _ _ _ _ hn]
    cases ht : TableId.ofIndex? n with
    | none => rfl
    | some t =>
      by_contra hrows
      have hvalid : (ofCounts major minor flags rows sorted extra?).valid.has n = true := by
        change (TableMask.ofTables _).has n = true
        rw [TableMask.has_ofTables, ht]
        exact bne_iff_ne.mpr hrows
      exact hmem (List.mem_filter.mpr ⟨List.mem_range.mpr hn, hvalid⟩)

end OfCounts

end StreamHeader

end ManagedImage
