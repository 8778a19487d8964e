import ManagedImage.Proofs.Members.Agreement

/-!
# The records of an image

A record is a row that names two types by their row numbers: the one that it nests and the one that
it nests it in.  The index of an image looks for the first record that nests a type; if no type is
nested twice, that is the only one.

## Main definitions

* `MetadataImage.NestsOnce` — the records name types of the image, and no two nest one type.
* `MetadataImage.Nests` — what a record says: it nests one type in another one.

## Main results

* `OwnerIndex.mem_nestingRows_iff`, `OwnerIndex.pairwise_nestingRows` — the records are the rows of
  their table, in order.
* `MetadataImage.exists_rowOf?_iff` — the rows of a table are those of its entities.
* `MetadataImage.NestsOnce.enclosingRid?_eq_some_iff` — **the type that encloses a type is told by the
  only record that nests it.**
-/

namespace ManagedImage

/-! ### Rows and their numbers -/

namespace TablesStream

/-- A row of a table is a row of the rows of that table. -/
theorem row?_eq (s : TablesStream) (t : TableId) (rid : UInt32) :
    s.row? t rid = (s.rows? t).bind (·.get? rid) := by
  rw [row?, row]
  cases s.rows? t <;> rfl

end TablesStream

namespace OwnerIndex

variable {s : TablesStream} {t : TableId} {rid : UInt32} {row : Row}

/-- Row numbers come in order. -/
theorem pairwise_rids (s : TablesStream) (t : TableId) : (rids s t).Pairwise (· < ·) := by
  unfold rids
  cases s.rows? t with
  | none => exact List.Pairwise.nil
  | some rows =>
    refine List.pairwise_map.mpr (List.pairwise_lt_range.imp_of_mem fun hi hj hij => ?_)
    rw [UInt32.lt_iff_toNat_lt, Rows.toNat_rid (List.mem_range.mp hi),
      Rows.toNat_rid (List.mem_range.mp hj)]
    exact Nat.succ_lt_succ hij

/-- A row that can be read has a row number. -/
theorem mem_rids_of_row? (h : s.row? t rid = some row) : rid ∈ rids s t := by
  rw [TablesStream.row?_eq] at h
  obtain ⟨rows, hrows, h⟩ := Option.bind_eq_some_iff.mp h
  rw [rids, hrows]
  refine Rows.mem_rids_iff.mpr ?_
  by_contra hout
  have hout : rid = 0 ∨ rows.count < rid := by
    rwa [not_and_or, not_not, UInt32.not_le] at hout
  rw [Rows.get?, Rows.row, if_pos hout] at h
  cases h

/-- The nesting records are the rows of their table. -/
theorem mem_nestingRows_iff : row ∈ nestingRows s ↔ s.row? .nestedClass row.rid = some row := by
  have hmem : row ∈ nestingRows s ↔
      ∃ rid ∈ rids s .nestedClass, s.row? .nestedClass rid = some row := by
    simp only [TablesStream.row?_eq]
    unfold nestingRows rids
    cases s.rows? .nestedClass with
    | none => simp
    | some rows => simp [Rows.readable_eq]
  rw [hmem]
  constructor
  · rintro ⟨rid, -, h⟩
    rwa [TablesStream.rid_of_row? h]
  · intro h
    exact ⟨row.rid, mem_rids_of_row? h, h⟩

/-- The nesting records come in the order of their numbers. -/
theorem pairwise_nestingRows (s : TablesStream) :
    (nestingRows s).Pairwise fun row row' => row.rid < row'.rid := by
  have hrids := pairwise_rids s .nestedClass
  unfold nestingRows
  unfold rids at hrids
  cases hrows : s.rows? .nestedClass with
  | none => exact List.Pairwise.nil
  | some rows =>
    rw [hrows] at hrids
    rw [Option.map_some, Option.getD_some, Rows.readable_eq]
    refine hrids.filterMap _ fun rid rid' hlt row hrow row' hrow' => ?_
    have hrid : ∀ {rid : UInt32} {row : Row}, rows.get? rid = some row → row.rid = rid := by
      intro rid row h
      refine TablesStream.rid_of_row? (s := s) (t := .nestedClass) ?_
      rwa [TablesStream.row?_eq, hrows]
    rwa [hrid hrow, hrid hrow']

end OwnerIndex

namespace MetadataImage

variable {image : MetadataImage} {config : Config} {source : MetadataStreams} {k : EntityKind}
  {r : Ref k} {row : Row} {type : UInt32} {M : Ref .module} {T T' E E' : Ref .typeDef}
  {R R' : Ref .nestedClass}

/-! ### What the records say -/

/-- The row of an entity has the number of the entity. -/
theorem rowOf?_eq_some_iff :
    image.rowOf? r.any = some row ↔
      r = ⟨.row row.rid⟩ ∧ image.tables.row? k.table row.rid = some row := by
  obtain ⟨id⟩ := r
  cases id with
  | authored n => simp [rowOf?, Ref.any]
  | row rid =>
    rw [rowOf?]
    simp only [Ref.any, Ref.mk.injEq, Identity.row.injEq]
    constructor
    · intro h
      obtain rfl := TablesStream.rid_of_row? h
      exact ⟨rfl, h⟩
    · rintro ⟨rfl, h⟩
      exact h

/-- The row has the number that it was asked for by. -/
theorem rid_of_rowOf? {rid : UInt32} (h : image.rowOf? (⟨.row rid⟩ : Ref k).any = some row) :
    row.rid = rid :=
  (Identity.row.inj (congrArg Ref.id (rowOf?_eq_some_iff.mp h).1)).symm

/-- The row of a record is one of the nesting records. -/
theorem rowOf?_record_iff {record : Row} :
    image.rowOf? R.any = some record ↔
      record ∈ OwnerIndex.nestingRows image.tables ∧ R = ⟨.row record.rid⟩ := by
  rw [rowOf?_eq_some_iff, OwnerIndex.mem_nestingRows_iff, and_comm]
  rfl

/-- The rows of a table are those of its entities. -/
theorem exists_rowOf?_iff (h : image.tables.IsDecoded) :
    (∃ row, image.rowOf? r.any = some row) ↔
      ∃ rid ∈ OwnerIndex.rids image.tables k.table, r = ⟨.row rid⟩ := by
  constructor
  · rintro ⟨row, hrow⟩
    obtain ⟨hr, hrow⟩ := rowOf?_eq_some_iff.mp hrow
    exact ⟨row.rid, OwnerIndex.mem_rids_of_row? hrow, hr⟩
  · rintro ⟨rid, hrid, rfl⟩
    exact Offers.exists_row ⟨rid, rfl, (mem_rids h).mp hrid⟩ h

/-- The nesting records name types of the image, and no two nest one type. -/
structure NestsOnce (image : MetadataImage) : Prop where
  /-- What a record nests is there. -/
  nested : ∀ record ∈ OwnerIndex.nestingRows image.tables,
    record.column 0 ∈ OwnerIndex.rids image.tables .typeDef
  /-- What it is nested in is there. -/
  enclosing : ∀ record ∈ OwnerIndex.nestingRows image.tables,
    record.column 1 ∈ OwnerIndex.rids image.tables .typeDef
  /-- No type is nested twice. -/
  nodup : ((OwnerIndex.nestingRows image.tables).map (·.column 0)).Nodup

theorem nestsOnce_iff : image.NestsOnce ↔
    (∀ record ∈ OwnerIndex.nestingRows image.tables,
      record.column 0 ∈ OwnerIndex.rids image.tables .typeDef ∧
        record.column 1 ∈ OwnerIndex.rids image.tables .typeDef) ∧
      ((OwnerIndex.nestingRows image.tables).map (·.column 0)).Nodup :=
  ⟨fun h => ⟨fun record hmem => ⟨h.nested record hmem, h.enclosing record hmem⟩, h.nodup⟩,
    fun h => ⟨fun record hmem => (h.1 record hmem).1, fun record hmem => (h.1 record hmem).2, h.2⟩⟩

instance (image : MetadataImage) : Decidable image.NestsOnce :=
  decidable_of_iff _ nestsOnce_iff.symm

/-- The record `R` nests the type `T` in the type `E`. -/
def Nests (image : MetadataImage) (R : Ref .nestedClass) (T E : Ref .typeDef) : Prop :=
  ∃ record ∈ OwnerIndex.nestingRows image.tables,
    R = ⟨.row record.rid⟩ ∧ T = ⟨.row (record.column 0)⟩ ∧ E = ⟨.row (record.column 1)⟩

/-- A record nests one type in one. -/
theorem Nests.eq_of_record (h : image.Nests R T E) (h' : image.Nests R T' E') :
    T = T' ∧ E = E' := by
  obtain ⟨record, hmem, rfl, rfl, rfl⟩ := h
  obtain ⟨record', hmem', hrid, rfl, rfl⟩ := h'
  rw [OwnerIndex.mem_nestingRows_iff] at hmem hmem'
  obtain rfl : record = record' := by
    rw [Identity.row.inj (congrArg Ref.id hrid), hmem'] at hmem
    exact (Option.some.inj hmem).symm
  exact ⟨rfl, rfl⟩

/-- A type is nested by one record. -/
theorem NestsOnce.eq_of_type (honce : image.NestsOnce) (h : image.Nests R T E)
    (h' : image.Nests R' T E') : R = R' := by
  obtain ⟨record, hmem, rfl, rfl, -⟩ := h
  obtain ⟨record', hmem', rfl, hnested, -⟩ := h'
  have hcolumn : record.column 0 = record'.column 0 := by simpa using hnested
  rw [List.inj_on_of_nodup_map honce.nodup hmem hmem' hcolumn]

/-- The type that encloses a type is told by the only record that nests it. -/
theorem NestsOnce.enclosingRid?_eq_some_iff (honce : image.NestsOnce) {enclosing : UInt32} :
    image.enclosingRid? type = some enclosing ↔
      ∃ record ∈ OwnerIndex.nestingRows image.tables,
        record.column 0 = type ∧ record.column 1 = enclosing := by
  rw [enclosingRid?, Option.map_eq_some_iff]
  refine exists_congr fun record => ?_
  rw [← and_assoc]
  refine and_congr_left fun _ => ⟨fun hfind => ?_, fun ⟨hmem, hnested⟩ => ?_⟩
  · exact ⟨List.mem_of_find?_eq_some hfind, by simpa using List.find?_some hfind⟩
  · cases hfind : (OwnerIndex.nestingRows image.tables).find? (·.column 0 == type) with
    | none => exact absurd hnested (by simpa using List.find?_eq_none.mp hfind record hmem)
    | some found =>
      have hfound : found.column 0 = type := by simpa using List.find?_some hfind
      rw [List.inj_on_of_nodup_map honce.nodup (List.mem_of_find?_eq_some hfind) hmem
        (hfound.trans hnested.symm)]

end MetadataImage

end ManagedImage
