import ManagedImage.Proofs.Graph.Opening

/-!
# Rows and their names

A token keeps the low 24 bits of a row number.  So a number may name another row than the one with
that number, and rows with greater numbers have no name at all.

## Main results

* `Token.row_ofRow`, `Token.tableId?_ofRow` — what is left of the parts of a token.
* `MetadataImage.entityAt?_eq_some_iff` — which entity a row number names.
-/

namespace ManagedImage

namespace Token

theorem toNat_and_maxRow (n : UInt32) : (n &&& maxRow).toNat = n.toNat % 2 ^ 24 := by
  rw [UInt32.toNat_and]
  exact Nat.and_two_pow_sub_one_eq_mod n.toNat 24

/-- A row number of 24 bits is kept. -/
theorem and_maxRow_of_le {n : UInt32} (h : n ≤ maxRow) : n &&& maxRow = n := by
  have hlt : n.toNat < 2 ^ 24 := Nat.lt_succ_of_le (UInt32.le_iff_toNat_le.mp h)
  apply UInt32.toNat_inj.mp
  rw [toNat_and_maxRow, Nat.mod_eq_of_lt hlt]

theorem and_maxRow_le (n : UInt32) : n &&& maxRow ≤ maxRow := by
  have hlt : n.toNat % 2 ^ 24 < 2 ^ 24 := Nat.mod_lt _ (by decide)
  rw [UInt32.le_iff_toNat_le, toNat_and_maxRow]
  exact Nat.le_of_lt_succ hlt

/-- The number of the table stands above the row number. -/
theorem toNat_ofRow (t : TableId) (rid : UInt32) :
    (ofRow t rid).value.toNat = t.index * 2 ^ 24 + rid.toNat % 2 ^ 24 := by
  have hlow : rid.toNat % 2 ^ 24 < 2 ^ 24 := Nat.mod_lt _ (by decide)
  have hhigh : (UInt32.ofNat t.index <<< 24).toNat = t.index <<< 24 := by cases t <;> rfl
  rw [ofRow, UInt32.toNat_or, toNat_and_maxRow, hhigh, ← Nat.shiftLeft_add_eq_or_of_lt hlow,
    Nat.shiftLeft_eq]

theorem row_ofRow (t : TableId) (rid : UInt32) : (ofRow t rid).row = rid &&& maxRow := by
  apply UInt32.toNat_inj.mp
  rw [row, toNat_and_maxRow, toNat_ofRow, toNat_and_maxRow, Nat.mul_add_mod_self_right, Nat.mod_mod]

theorem tableId?_ofRow (t : TableId) (rid : UInt32) : (ofRow t rid).tableId? = some t := by
  have hbyte : (ofRow t rid).tableByte.toNat = t.index := by
    have hlow : rid.toNat % 2 ^ 24 < 2 ^ 24 := Nat.mod_lt _ (by decide)
    have hindex : t.index < 45 := t.index_lt
    rw [tableByte, UInt32.toNat_toUInt8, UInt32.toNat_shiftRight, toNat_ofRow]
    rw [show (24 : UInt32).toNat % 32 = 24 from rfl, Nat.shiftRight_eq_div_pow]
    omega
  rw [tableId?, hbyte, TableId.ofIndex?_index]

end Token

namespace TablesStream

/-- A row has the number that it was asked for by. -/
theorem rid_of_row? {s : TablesStream} {t : TableId} {rid : UInt32} {r : Row}
    (h : s.row? t rid = some r) : r.rid = rid := by
  unfold row? row Rows.row at h
  cases hrows : s.rows? t with
  | none =>
    rw [hrows] at h
    exact absurd h (by simp [Except.toOption])
  | some rows =>
    rw [hrows] at h
    dsimp only at h
    split at h
    · exact absurd h (by simp [Except.toOption])
    · rcases hread : Row.read rows.table rows.layout rows.data rid
        ((rid.toNat - 1) * rows.layout.rowSize) with ⟨e | r', stop⟩ <;> rw [hread] at h
      · exact absurd h (by simp [Except.toOption])
      · obtain rfl := Option.some.inj h
        exact (Row.of_read hread).2.1

end TablesStream

namespace MetadataImage

variable {image : MetadataImage} {k : EntityKind} {rid : UInt32}

/-- **The entity that a row number names** has the low 24 bits of the number for its own. -/
theorem entityAt?_eq_some_iff {r : Ref k} :
    image.entityAt? k rid = some r ↔
      r.id = .row (rid &&& Token.maxRow) ∧ rid &&& Token.maxRow ≠ 0 ∧
        rid &&& Token.maxRow ≤ image.tables.rowCount k.table := by
  have hkind : (Token.ofRow k.table rid).tableId?.bind EntityKind.ofTable? = some k := by
    rw [Token.tableId?_ofRow, Option.bind_some, EntityKind.ofTable?_table]
  rw [entityAt?, resolve?, hkind]
  dsimp only
  rw [Token.row_ofRow]
  split
  · next hout =>
    refine ⟨fun h => absurd h (by simp), fun ⟨_, hpos, hle⟩ => ?_⟩
    exact absurd hout (not_or.mpr ⟨hpos, UInt32.not_lt.mpr hle⟩)
  · next hin =>
    obtain ⟨hpos, hle⟩ := not_or.mp hin
    rw [Option.bind_some, AnyRef.as?_eq_some_iff]
    constructor
    · intro h
      exact ⟨(congrArg AnyRef.id h).symm, hpos, UInt32.not_lt.mp hle⟩
    · rintro ⟨hid, -, -⟩
      rw [Ref.any, hid]

/-- What has a name is named by its own row number. -/
theorem Names.entityAt? {r : Ref k} (h : image.Names r.any) :
    ∃ rid, r.id = .row rid ∧ rid ≤ Token.maxRow ∧ image.entityAt? k rid = some r := by
  obtain ⟨t, ht⟩ := h
  unfold resolve? at ht
  split at ht
  · exact absurd ht (by simp)
  · split at ht
    · exact absurd ht (by simp)
    · next kind _ hin =>
      obtain ⟨rfl, hid⟩ : kind = k ∧ Identity.row t.row = r.id := by
        simpa [Ref.any] using ht
      obtain ⟨hpos, hle⟩ := not_or.mp hin
      have hmax : t.row ≤ Token.maxRow := Token.and_maxRow_le t.value
      refine ⟨t.row, hid.symm, hmax, ?_⟩
      rw [entityAt?_eq_some_iff, Token.and_maxRow_of_le hmax]
      exact ⟨hid.symm, hpos, UInt32.not_lt.mp hle⟩

/-- The row of an entity that the image offers, with its number. -/
theorem Offers.exists_row_rid {r : AnyRef} (h : image.Offers r)
    (hdecoded : image.tables.IsDecoded) :
    ∃ row, image.rowOf? r = some row ∧ row.rid = r.id.rid := by
  obtain ⟨row, hrow⟩ := h.exists_row hdecoded
  obtain ⟨rid, hid, -, -⟩ := h
  refine ⟨row, hrow, ?_⟩
  rw [rowOf?, hid] at hrow
  rw [hid]
  exact TablesStream.rid_of_row? hrow

end MetadataImage

end ManagedImage
