import ManagedImage.Proofs.Stream.Building
import ManagedImage.Proofs.Table.Packing

/-!
# References that are in range

The width of a reference is chosen from row counts and flags, before any value is seen.  It is wide
enough for every reference to a row that is there: a small table has no row number above two bytes,
and where all tables of a coded index are small enough, no row number reaches the bits that the tag
takes from it.  So a builder whose references are all in range can be built, however many rows its
tables have.

## Main definitions

* `StreamBuilder.Admits` — a value is one that a column may hold: a reference in range, or a number.
* `StreamBuilder.RefersInRange` — so are all values of all rows.

## Main results

* `Widths.le_of_encode` — small coded indexes have sixteen bits.
* `StreamBuilder.Admits.fits` — what a column may hold fits it.
* `StreamBuilder.build_of_refersInRange` — **references in range are never too wide.**
-/

namespace ManagedImage

/-- Whether the indexes into a heap take four bytes. -/
def HeapKind.isLarge (f : StreamFlags) : HeapKind → Bool
  | string => f.largeStrings
  | guid => f.largeGuids
  | blob => f.largeBlobs

section Width

variable (w : Widths)

theorem ColumnKind.width_heap (heap : HeapKind) :
    (ColumnKind.heap heap).width w = Widths.bytes (heap.isLarge w.flags) := by
  cases heap <;> rfl

theorem ColumnKind.width_table (t : TableId) :
    (ColumnKind.table t).width w = Widths.bytes (w.isLarge t) := rfl

theorem ColumnKind.width_coded (kind : CodedKind) :
    (ColumnKind.coded kind).width w = Widths.bytes (w.isLargeCoded kind) := rfl

end Width

/-- The flag for the extra word changes no width. -/
theorem HeapKind.isLarge_withExtraData (heap : HeapKind) (f : StreamFlags) (present : Bool) :
    heap.isLarge (f.withExtraData present) = heap.isLarge f := by
  have hother : ∀ {mask : UInt8}, 0xBF &&& mask = mask →
      (f.withExtraData present).bits &&& mask = f.bits &&& mask := by
    intro mask hmask
    rw [← hmask, ← UInt8.and_assoc, StreamHeader.withExtraData_and, UInt8.and_assoc]
  cases heap with
  | string => rw [isLarge, StreamFlags.largeStrings, hother (by decide)]; rfl
  | guid => rw [isLarge, StreamFlags.largeGuids, hother (by decide)]; rfl
  | blob => rw [isLarge, StreamFlags.largeBlobs, hother (by decide)]; rfl

/-! ### Widths -/

/-- Two bytes hold sixteen bits, and four bytes hold all. -/
theorem Column.fits_of_small (name : String) (kind : ColumnKind) {large : Bool} {v : UInt32}
    (h : large = false → v.toNat ≤ 0xFFFF) :
    (⟨name, kind, Widths.bytes large⟩ : Column).Fits v := by
  cases large with
  | false =>
    have hsmall := h rfl
    change v.toNat < 256 ^ 2
    omega
  | true => exact v.toNat_lt

namespace Widths

variable {w : Widths} {kind : CodedKind} {t : TableId} {r v : UInt32}

/-- A small table has no row number of more than sixteen bits. -/
theorem le_of_isLarge (hr : v ≤ w.rows.get t) (hsmall : w.isLarge t = false) :
    v.toNat ≤ 0xFFFF := by
  rw [isLarge, decide_eq_false_iff_not] at hsmall
  rw [UInt32.le_iff_toNat_le] at hr
  omega

/-- **A small coded index has sixteen bits**, if it refers to a row that is there. -/
theorem le_of_encode (h : kind.encode t r = .ok v) (hr : r ≤ w.rows.get t)
    (hsmall : w.isLargeCoded kind = false) : v.toNat ≤ 0xFFFF := by
  obtain ⟨n, hslot, hv⟩ := CodedKind.encode_eq_ok_iff.mp h
  have hn := CodedKind.lt_of_slots hslot
  -- the table is one of those that are small enough
  have hall : ∀ slot ∈ kind.slots, w.slotRows slot < 0xFFFF >>> kind.tagBits := by
    rw [isLargeCoded, Bool.not_eq_false'] at hsmall
    simpa using hsmall
  have hrows : (w.rows.get t).toNat < 0xFFFF / 2 ^ kind.tagBits := by
    rw [← Nat.shiftRight_eq_div_pow]
    exact hall (some t) (List.mem_of_getElem? hslot)
  rw [UInt32.le_iff_toNat_le] at hr
  have hmul : (r.toNat + 1) * 2 ^ kind.tagBits ≤ 0xFFFF := by
    rw [← Nat.le_div_iff_mul_le (Nat.two_pow_pos _)]
    omega
  rw [Nat.succ_mul] at hmul
  omega

end Widths

/-! ### Rows of references -/

namespace StreamBuilder

variable {b : StreamBuilder} {v : UInt32} {kind : ColumnKind}

/-- A column may hold a number of its width, an index into a heap that needs no more than two bytes
or has large indexes, the number of a row that is there, or none, and a packed one likewise. -/
def Admits (b : StreamBuilder) (v : UInt32) : ColumnKind → Prop
  | .fixed width => v.toNat < 256 ^ width
  | .heap heap => v ≤ 0xFFFF ∨ heap.isLarge b.flags = true
  | .table t => v ≤ b.rowCount t
  | .coded kind => v = 0 ∨ ∃ t r, kind.encode t r = .ok v ∧ r ≤ b.rowCount t

/-- Every column of every row holds what it may hold. -/
def RefersInRange (b : StreamBuilder) : Prop :=
  ∀ t, ∀ values ∈ (b.rows.get t).toList,
    List.Forall₂ (fun (column : String × ColumnKind) v => b.Admits v column.2) t.columns values

theorem get_rows_widths (b : StreamBuilder) (t : TableId) :
    b.widths.rows.get t = b.rowCount t := PerTable.get_ofFn _ t

theorem isLarge_flags_widths (b : StreamBuilder) (heap : HeapKind) :
    heap.isLarge b.widths.flags = heap.isLarge b.flags :=
  heap.isLarge_withExtraData b.flags _

/-- A reference to nothing is in range. -/
theorem admits_zero (b : StreamBuilder) (kind : ColumnKind) : b.Admits 0 kind := by
  cases kind with
  | fixed width => exact Nat.pow_pos (by decide)
  | heap heap => exact .inl (UInt32.zero_le)
  | table t => exact UInt32.zero_le
  | coded kind => exact .inl rfl

/-- **What a column may hold fits it**, whatever the row counts are. -/
theorem Admits.fits (name : String) (h : b.Admits v kind) :
    (⟨name, kind, kind.width b.widths⟩ : Column).Fits v := by
  cases kind with
  | fixed width => exact h
  | heap heap =>
    rw [ColumnKind.width_heap, isLarge_flags_widths]
    apply Column.fits_of_small
    intro hsmall
    rcases h with hle | hlarge
    · exact UInt32.le_iff_toNat_le.mp hle
    · rw [hsmall] at hlarge
      cases hlarge
  | table t =>
    rw [Admits, ← get_rows_widths] at h
    rw [ColumnKind.width_table]
    exact Column.fits_of_small name _ (Widths.le_of_isLarge h)
  | coded kind =>
    rw [ColumnKind.width_coded]
    apply Column.fits_of_small
    intro hsmall
    rcases h with rfl | ⟨t, r, hencode, hr⟩
    · exact Nat.zero_le _
    · rw [← get_rows_widths] at hr
      exact Widths.le_of_encode hencode hr hsmall

theorem RefersInRange.fits (h : b.RefersInRange) : b.Fits := by
  intro t values hvalues
  change List.Forall₂ _ (t.columns.map _) values
  rw [List.forall₂_map_left_iff]
  exact (h t values hvalues).imp fun column v hv => hv.fits column.1

theorem RefersInRange.isSized (h : b.RefersInRange)
    (hcount : ∀ t, (b.rows.get t).size < 2 ^ 32) : b.IsSized where
  size_lt := hcount
  length_eq t values hvalues := (h t values hvalues).length_eq.symm.trans t.length_columns

/-- **References in range are never too wide.**  In every state of a builder where they are, all
values fit the columns whose widths follow from the row counts, and the stream can be built, if each
of the counts is one that the header can hold. -/
theorem build_of_refersInRange (h : b.RefersInRange) :
    b.Fits ∧ ((∀ t, (b.rows.get t).size < 2 ^ 32) → ∃ data, b.build = .ok data) :=
  ⟨h.fits, fun hcount => ⟨_, build_of_fits (h.isSized hcount) h.fits⟩⟩

/-- The rows of some tables, with row counts at the limits: row numbers of one table just need four
bytes, and a coded index that refers to the last row of another one just fits into two. -/
def limitRows : TableId → Array (List UInt32)
  | .field => .replicate 0x10000 [0, 0, 0]
  | .assemblyRef => .replicate 0x3FFE [0, 0, 0, 0, 0, 0, 0, 0, 0]
  | .typeRef => #[[0xFFFA, 0, 0]]
  | .typeDef => #[[0, 0, 0, 0, 0x10000, 0]]
  | _ => #[]

/-- A builder with these rows. -/
def atLimits : StreamBuilder := { empty with rows := .ofFn limitRows }

theorem rowCount_atLimits (t : TableId) :
    atLimits.rowCount t = UInt32.ofNat (min (limitRows t).size 0xFFFFFFFF) := by
  rw [rowCount, atLimits, PerTable.get_ofFn]

theorem refersInRange_atLimits : atLimits.RefersInRange := by
  have hzero := admits_zero atLimits
  intro t values hvalues
  rw [atLimits, PerTable.get_ofFn] at hvalues
  cases t with
  | field =>
    rw [limitRows, Array.toList_replicate] at hvalues
    rw [List.eq_of_mem_replicate hvalues]
    simp [TableId.columns, hzero]
  | assemblyRef =>
    rw [limitRows, Array.toList_replicate] at hvalues
    rw [List.eq_of_mem_replicate hvalues]
    simp [TableId.columns, hzero]
  | typeRef =>
    have hscope : atLimits.Admits 0xFFFA (.coded .resolutionScope) := by
      refine .inr ⟨.assemblyRef, 0x3FFE, by decide, ?_⟩
      rw [rowCount_atLimits, limitRows, Array.size_replicate]
      decide
    rw [List.mem_singleton.mp hvalues]
    simp [TableId.columns, hzero, hscope]
  | typeDef =>
    have hfields : atLimits.Admits 0x10000 (.table .field) := by
      rw [Admits, rowCount_atLimits, limitRows, Array.size_replicate]
      decide
    rw [List.mem_singleton.mp hvalues]
    simp [TableId.columns, hzero, hfields]
  | _ => exact absurd hvalues List.not_mem_nil

theorem build_atLimits :
    atLimits.RefersInRange ∧ (∀ t, (atLimits.rows.get t).size < 2 ^ 32) ∧
      ∃ data, atLimits.build = .ok data := by
  have hcount : ∀ t, (atLimits.rows.get t).size < 2 ^ 32 := by
    intro t
    rw [atLimits, PerTable.get_ofFn]
    cases t with
    | field =>
      rw [limitRows, Array.size_replicate]
      decide
    | assemblyRef =>
      rw [limitRows, Array.size_replicate]
      decide
    | _ => decide
  exact ⟨refersInRange_atLimits, hcount,
    (build_of_refersInRange refersInRange_atLimits).2 hcount⟩

end StreamBuilder

end ManagedImage
