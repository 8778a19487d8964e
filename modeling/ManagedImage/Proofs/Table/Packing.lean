import ManagedImage.Table.CodedIndex
import Mathlib.Data.Nat.Bitwise

/-!
# Packing and splitting coded indexes

A coded index is a number with two parts: the row number is the quotient by a power of two, and the
tag is the remainder.  So what packing and splitting do can be said without shifts and masks, and
each undoes the other, because every table has one tag at most.

## Main definitions

* `CodedKind.tag` — the tag of a packed number.
* `CodedKind.IsCodec` — packing and splitting undo each other.

## Main results

* `CodedKind.tagOf?_eq_some_iff` — each table has one tag, and each tag one table.
* `CodedKind.toNat_pack` — a packed number has its two parts.
* `CodedKind.encode_eq_ok_iff`, `CodedKind.decode_eq_ok_iff` — packing and splitting by the parts.
* `CodedKind.encode_eq_ok_iff_decode` — **what packs to a number is what the number splits into.**
* `CodedKind.isCodec` — packing and splitting, for all tables, rows and numbers.
-/

namespace ManagedImage

namespace CodedKind

variable {k : CodedKind} {t : TableId} {r v : UInt32} {n : Nat}

/-! ### Tags and tables -/

theorem tagBits_le (k : CodedKind) : k.tagBits ≤ 5 := by
  cases k <;> decide

/-- No table has two slots; only reserved slots come more than once. -/
theorem pairwise_slots (k : CodedKind) : k.slots.Pairwise fun a b => a = b → a = none := by
  cases k <;> decide

theorem eq_of_slots {m : Nat} (hn : k.slots[n]? = some (some t))
    (hm : k.slots[m]? = some (some t)) : n = m := by
  obtain ⟨hnlt, hn⟩ := List.getElem?_eq_some_iff.mp hn
  obtain ⟨hmlt, hm⟩ := List.getElem?_eq_some_iff.mp hm
  have hpair := List.pairwise_iff_getElem.mp k.pairwise_slots
  rcases Nat.lt_trichotomy n m with hlt | heq | hgt
  · have hnone := hpair n m hnlt hmlt hlt (hn.trans hm.symm)
    rw [hn] at hnone
    cases hnone
  · exact heq
  · have hnone := hpair m n hmlt hnlt hgt (hm.trans hn.symm)
    rw [hm] at hnone
    cases hnone

/-- **The tag of a table is the slot that holds it.** -/
theorem tagOf?_eq_some_iff : k.tagOf? t = some n ↔ k.slots[n]? = some (some t) := by
  rw [tagOf?, List.idxOf?_eq_some_iff, List.getElem?_eq_some_iff]
  constructor
  · rintro ⟨hlt, hn, -⟩
    exact ⟨hlt, hn⟩
  · rintro ⟨hlt, hn⟩
    refine ⟨hlt, hn, fun m hm hslot => ?_⟩
    -- an earlier slot would hold the table too
    have heq : m = n :=
      eq_of_slots (List.getElem?_eq_some_iff.mpr ⟨hm.trans hlt, hslot⟩)
        (List.getElem?_eq_some_iff.mpr ⟨hlt, hn⟩)
    omega

theorem mem_tables_iff : t ∈ k.tables ↔ ∃ n : Nat, k.slots[n]? = some (some t) := by
  rw [tables, List.mem_filterMap, ← List.mem_iff_getElem?]
  simp

theorem tagOf?_eq_none_iff : k.tagOf? t = none ↔ t ∉ k.tables := by
  rw [mem_tables_iff, Option.eq_none_iff_forall_ne_some, not_exists]
  simp only [ne_eq, tagOf?_eq_some_iff]

/-- The tag bits number all slots. -/
theorem lt_of_slots {slot : Option TableId} (hn : k.slots[n]? = some slot) : n < 2 ^ k.tagBits := by
  have hlt : n < k.slots.length := (List.getElem?_eq_some_iff.mp hn).1
  have hle := k.slots_length_le.1
  rw [Nat.shiftLeft_eq, Nat.one_mul] at hle
  omega

/-! ### The two parts of a number -/

theorem toNat_tagBits (k : CodedKind) : (UInt32.ofNat k.tagBits).toNat % 32 = k.tagBits := by
  have hle := k.tagBits_le
  rw [UInt32.toNat_ofNat_of_lt' (by change _ < 2 ^ 32; omega)]
  omega

theorem toNat_shiftRight (k : CodedKind) (v : UInt32) :
    (v >>> UInt32.ofNat k.tagBits).toNat = v.toNat / 2 ^ k.tagBits := by
  rw [UInt32.toNat_shiftRight, toNat_tagBits, Nat.shiftRight_eq_div_pow]

theorem toNat_tagMask (k : CodedKind) : k.tagMask.toNat = 2 ^ k.tagBits - 1 := by
  cases k <;> rfl

/-- The tag of a packed number: its low bits. -/
def tag (k : CodedKind) (v : UInt32) : Nat := v.toNat % 2 ^ k.tagBits

theorem toNat_and_tagMask (k : CodedKind) (v : UInt32) : (v &&& k.tagMask).toNat = k.tag v := by
  rw [UInt32.toNat_and, toNat_tagMask, Nat.and_two_pow_sub_one_eq_mod, tag]

/-- A row number fits above the tag if shifting it loses no bit. -/
theorem le_iff_mul_lt (k : CodedKind) (r : UInt32) :
    r ≤ (0xFFFFFFFF : UInt32) >>> UInt32.ofNat k.tagBits ↔ r.toNat * 2 ^ k.tagBits < 2 ^ 32 := by
  have hpos := Nat.two_pow_pos k.tagBits
  rw [UInt32.le_iff_toNat_le, toNat_shiftRight, Nat.le_div_iff_mul_le hpos]
  change _ ≤ 2 ^ 32 - 1 ↔ _
  omega

/-- **A packed number has its two parts.** -/
theorem toNat_pack (hr : r.toNat * 2 ^ k.tagBits < 2 ^ 32) (hn : n < 2 ^ k.tagBits) :
    ((r <<< UInt32.ofNat k.tagBits) ||| UInt32.ofNat n).toNat = r.toNat * 2 ^ k.tagBits + n := by
  have hle : 2 ^ k.tagBits ≤ 2 ^ 5 := Nat.pow_le_pow_right (by decide) k.tagBits_le
  have hsmall : n < UInt32.size := by change _ < 2 ^ 32; omega
  rw [UInt32.toNat_or, UInt32.toNat_shiftLeft, toNat_tagBits, UInt32.toNat_ofNat_of_lt' hsmall,
    Nat.shiftLeft_eq, Nat.mod_eq_of_lt hr, ← Nat.shiftLeft_eq, Nat.shiftLeft_add_eq_or_of_lt hn]

/-! ### Packing and splitting -/

/-- A number with the two parts is what they are packed to. -/
theorem encode_eq_ok_iff :
    k.encode t r = .ok v ↔
      ∃ n : Nat, k.slots[n]? = some (some t) ∧ v.toNat = r.toNat * 2 ^ k.tagBits + n := by
  unfold encode
  cases htag : k.tagOf? t with
  | none =>
    have hslots : ∀ n : Nat, k.slots[n]? ≠ some (some t) := by
      intro n hn
      rw [tagOf?_eq_some_iff.mpr hn] at htag
      cases htag
    simp [hslots]
  | some n =>
    have hslot := tagOf?_eq_some_iff.mp htag
    have hn := lt_of_slots hslot
    dsimp only
    split
    · next hlarge =>
      -- the parts make a number that has too many bits
      have hfits : ¬r.toNat * 2 ^ k.tagBits < 2 ^ 32 := by
        rw [← le_iff_mul_lt]
        exact UInt32.not_le.mpr hlarge
      constructor
      · intro h
        cases h
      · rintro ⟨m, -, hv⟩
        have := v.toNat_lt
        omega
    · next hsmall =>
      have hfits := (le_iff_mul_lt k r).mp (UInt32.not_lt.mp hsmall)
      rw [Except.ok.injEq, ← UInt32.toNat_inj, toNat_pack hfits hn]
      constructor
      · intro h
        exact ⟨n, hslot, h.symm⟩
      · rintro ⟨m, hm, hv⟩
        rw [hv, eq_of_slots hm hslot]

/-- A number splits into the two parts that it has. -/
theorem decode_eq_ok_iff :
    k.decode v = .ok ⟨t, r⟩ ↔
      k.slots[k.tag v]? = some (some t) ∧ r.toNat = v.toNat / 2 ^ k.tagBits := by
  unfold decode
  dsimp only
  rw [toNat_and_tagMask]
  cases hslot : k.slots[k.tag v]? with
  | none => simp
  | some slot =>
    cases slot with
    | none => simp
    | some table =>
      simp only [Except.ok.injEq, CodedIndex.mk.injEq, Option.some.injEq]
      rw [← UInt32.toNat_inj, toNat_shiftRight]
      exact and_congr_right fun _ => eq_comm

/-- **What packs to a number is what the number splits into.** -/
theorem encode_eq_ok_iff_decode : k.encode t r = .ok v ↔ k.decode v = .ok ⟨t, r⟩ := by
  have hpos := Nat.two_pow_pos k.tagBits
  rw [encode_eq_ok_iff, decode_eq_ok_iff, tag]
  constructor
  · rintro ⟨n, hn, hv⟩
    -- the tag is smaller than the divisor, so it is the remainder
    have hlt := lt_of_slots hn
    rw [hv, Nat.add_comm, Nat.add_mul_mod_self_right, Nat.mod_eq_of_lt hlt,
      Nat.add_mul_div_right _ _ hpos, Nat.div_eq_of_lt hlt, Nat.zero_add]
    exact ⟨hn, rfl⟩
  · rintro ⟨hslot, hr⟩
    refine ⟨_, hslot, ?_⟩
    rw [hr, Nat.mul_comm, Nat.div_add_mod]

/-! ### The codec -/

/-- Packing and splitting undo each other, and each of them says when it can be done. -/
structure IsCodec (k : CodedKind) : Prop where
  /-- A row can be packed if its table is one of the kind's and its number fits above the tag. -/
  exists_encode_iff : ∀ t r, (∃ v, k.encode t r = .ok v) ↔
    t ∈ k.tables ∧ r ≤ (0xFFFFFFFF : UInt32) >>> UInt32.ofNat k.tagBits
  /-- What has been packed is split into what it was. -/
  decode_of_encode : ∀ t r v, k.encode t r = .ok v → k.decode v = .ok ⟨t, r⟩
  /-- A number can be split if its tag chooses a slot that is not reserved. -/
  exists_decode_iff : ∀ v, (∃ i, k.decode v = .ok i) ↔ ∃ t, k.slots[k.tag v]? = some (some t)
  /-- What has been split is packed to what it was. -/
  encode_of_decode : ∀ v i, k.decode v = .ok i → k.encode i.table i.row = .ok v
  /-- No packed number has a reserved tag. -/
  not_reserved : ∀ t r v, k.encode t r = .ok v → k.slots[k.tag v]? ≠ some none
  /-- No two rows are packed to one number. -/
  injective : ∀ t r t' r' v, k.encode t r = .ok v → k.encode t' r' = .ok v → t = t' ∧ r = r'

theorem exists_encode_iff :
    (∃ v, k.encode t r = .ok v) ↔
      t ∈ k.tables ∧ r ≤ (0xFFFFFFFF : UInt32) >>> UInt32.ofNat k.tagBits := by
  unfold encode
  cases htag : k.tagOf? t with
  | none =>
    have hnot := tagOf?_eq_none_iff.mp htag
    simp [hnot]
  | some n =>
    have hmem : t ∈ k.tables := mem_tables_iff.mpr ⟨n, tagOf?_eq_some_iff.mp htag⟩
    dsimp only
    split
    · next hlarge => simp [UInt32.not_le.mpr hlarge]
    · next hsmall => simp [hmem, UInt32.not_lt.mp hsmall]

theorem exists_decode_iff :
    (∃ i, k.decode v = .ok i) ↔ ∃ t, k.slots[k.tag v]? = some (some t) := by
  constructor
  · rintro ⟨⟨t, r⟩, h⟩
    exact ⟨t, (decode_eq_ok_iff.mp h).1⟩
  · rintro ⟨t, ht⟩
    refine ⟨⟨t, v >>> UInt32.ofNat k.tagBits⟩, decode_eq_ok_iff.mpr ⟨ht, ?_⟩⟩
    exact toNat_shiftRight k v

/-- **Packing and splitting undo each other**, for every table and row and for every number. -/
theorem isCodec (k : CodedKind) : k.IsCodec where
  exists_encode_iff _ _ := exists_encode_iff
  decode_of_encode _ _ _ h := encode_eq_ok_iff_decode.mp h
  exists_decode_iff _ := exists_decode_iff
  encode_of_decode _ _ h := encode_eq_ok_iff_decode.mpr h
  not_reserved t r v h := by
    have hslot := (decode_eq_ok_iff.mp (encode_eq_ok_iff_decode.mp h)).1
    rw [hslot]
    simp
  injective t r t' r' v h h' := by
    have hsame := (encode_eq_ok_iff_decode.mp h).symm.trans (encode_eq_ok_iff_decode.mp h')
    simpa using hsame

end CodedKind

end ManagedImage
