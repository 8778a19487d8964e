import ManagedImage.Proofs.Stream.References
import ManagedImage.Proofs.Stream.Tiling

/-!
# Widths of coded indexes and the rule of the standard

The standard makes a coded index two bytes wide while the bits above its tag can number all rows of
every table that it may refer to.  Here one number more is kept free: the index is two bytes wide
while they can number one row more than there are.  So the two rules differ where the fullest of the
tables has just as many rows as sixteen bits can number, and nowhere else.

## Main definitions

* `CodedKind.IsShort` — a row number, packed with its tag, has sixteen bits.
* `Widths.standardCodedBytes`, `Layout.standard` — the width of a coded index and the layout of a
  table by the standard's rule.
* `Widths.IsAtLimit` — the fullest table has just as many rows as sixteen bits can number.
* `Widths.KeepsOneFree` — what the width of a coded index is, and where it is not the standard's.

## Main results

* `CodedKind.isShort_iff` — which row numbers have sixteen bits with their tag.
* `Widths.codedBytes_eq_standard_iff` — **the width is the standard's, unless at the limit.**
* `Widths.keepsOneFree` — all of it, for all row counts and kinds.
-/

namespace ManagedImage

/-! ### Packed row numbers of sixteen bits -/

namespace CodedKind

variable {kind : CodedKind} {t : TableId} {r : UInt32} {n : Nat}

/-- The row number can be packed with the tag of its table into sixteen bits. -/
def IsShort (kind : CodedKind) (t : TableId) (r : UInt32) : Prop :=
  ∃ v, kind.encode t r = .ok v ∧ v.toNat < 2 ^ 16

/-- The bits above the tag and the tag are sixteen. -/
theorem two_pow_mul_tag (kind : CodedKind) :
    2 ^ (16 - kind.tagBits) * 2 ^ kind.tagBits = 2 ^ 16 := by
  have hle := kind.tagBits_le
  rw [← Nat.pow_add, Nat.sub_add_cancel (by omega)]

/-- **A row number has sixteen bits with its tag** if it has no more than the bits above the tag. -/
theorem isShort_iff (ht : t ∈ kind.tables) :
    kind.IsShort t r ↔ r.toNat < 2 ^ (16 - kind.tagBits) := by
  have hpos := Nat.two_pow_pos kind.tagBits
  have hbits := kind.two_pow_mul_tag
  constructor
  · rintro ⟨v, hencode, hv⟩
    obtain ⟨-, hr⟩ := decode_eq_ok_iff.mp (encode_eq_ok_iff_decode.mp hencode)
    rw [hr, Nat.div_lt_iff_lt_mul hpos, hbits]
    exact hv
  · intro hr
    have hmul : r.toNat * 2 ^ kind.tagBits < 2 ^ 16 := by
      rw [← hbits]
      exact Nat.mul_lt_mul_of_pos_right hr hpos
    have hfits : r.toNat * 2 ^ kind.tagBits < 2 ^ 32 := Nat.lt_trans hmul (by decide)
    obtain ⟨v, hencode⟩ := exists_encode_iff.mpr ⟨ht, (le_iff_mul_lt kind r).mpr hfits⟩
    obtain ⟨-, hrow⟩ := decode_eq_ok_iff.mp (encode_eq_ok_iff_decode.mp hencode)
    refine ⟨v, hencode, ?_⟩
    rw [← hbits, ← Nat.div_lt_iff_lt_mul hpos, ← hrow]
    exact hr

/-- All row numbers up to `n` have sixteen bits with their tag if `n` has. -/
theorem forall_isShort_iff (ht : t ∈ kind.tables) :
    (∀ r : UInt32, r.toNat ≤ n → kind.IsShort t r) ↔ n < 2 ^ (16 - kind.tagBits) := by
  constructor
  · intro hall
    by_contra hn
    -- the first number that is too large is among them
    have hpow : 2 ^ (16 - kind.tagBits) ≤ 2 ^ 16 := Nat.pow_le_pow_right (by decide) (by omega)
    have hfirst : (UInt32.ofNat (2 ^ (16 - kind.tagBits))).toNat = 2 ^ (16 - kind.tagBits) :=
      UInt32.toNat_ofNat_of_lt' (Nat.lt_of_le_of_lt hpow (by decide))
    have hshort := hall (UInt32.ofNat (2 ^ (16 - kind.tagBits))) (by omega)
    rw [isShort_iff ht, hfirst] at hshort
    exact Nat.lt_irrefl _ hshort
  · intro hn r hr
    exact (isShort_iff ht).mpr (Nat.lt_of_le_of_lt hr hn)

end CodedKind

/-! ### The two rules -/

namespace Widths

variable {w : Widths} {kind : CodedKind}

/-- The width of a coded index by the standard's rule. -/
def standardCodedBytes (w : Widths) (kind : CodedKind) : Nat :=
  if ∀ t ∈ kind.tables, (w.rows.get t).toNat < 2 ^ (16 - kind.tagBits) then 2 else 4

/-- The fullest of the tables that the index may refer to has just as many rows as the bits above
the tag can number. -/
def IsAtLimit (w : Widths) (kind : CodedKind) : Prop :=
  (∀ t ∈ kind.tables, (w.rows.get t).toNat < 2 ^ (16 - kind.tagBits)) ∧
    ∃ t ∈ kind.tables, (w.rows.get t).toNat + 1 = 2 ^ (16 - kind.tagBits)

theorem standardCodedBytes_eq_two_iff :
    w.standardCodedBytes kind = 2 ↔
      ∀ t ∈ kind.tables, (w.rows.get t).toNat < 2 ^ (16 - kind.tagBits) := by
  rw [standardCodedBytes]
  split
  · next h => exact iff_of_true rfl h
  · next h => exact iff_of_false (by decide) h

/-- The largest number above the tag, in its two forms. -/
theorem shiftRight_tagBits (kind : CodedKind) :
    0xFFFF >>> kind.tagBits = 2 ^ (16 - kind.tagBits) - 1 := by
  cases kind <;> rfl

/-- A coded index is two bytes wide while one row more could be numbered; reserved slots count as
empty tables. -/
theorem codedBytes_eq_two_iff :
    w.codedBytes kind = 2 ↔
      ∀ t ∈ kind.tables, (w.rows.get t).toNat + 1 < 2 ^ (16 - kind.tagBits) := by
  have hlimit : 1 < 2 ^ (16 - kind.tagBits) := by cases kind <;> decide
  have htwo : w.codedBytes kind = 2 ↔ w.isLargeCoded kind = false := by
    rw [codedBytes]
    cases w.isLargeCoded kind <;> decide
  rw [htwo, isLargeCoded, Bool.not_eq_false', List.all_eq_true, CodedKind.tables]
  simp only [decide_eq_true_eq, shiftRight_tagBits, List.mem_filterMap]
  constructor
  · rintro hall t ⟨slot, hslot, rfl⟩
    have hrows : (w.rows.get t).toNat < _ := hall (some t) hslot
    omega
  · intro hall slot hslot
    cases slot with
    | none =>
      change 0 < _
      omega
    | some t =>
      have hrows := hall t ⟨some t, hslot, rfl⟩
      change (w.rows.get t).toNat < _
      omega

/-- Both rules know two widths only. -/
theorem two_or_four (w : Widths) (kind : CodedKind) :
    (w.codedBytes kind = 2 ∨ w.codedBytes kind = 4) ∧
      (w.standardCodedBytes kind = 2 ∨ w.standardCodedBytes kind = 4) := by
  refine ⟨bytes_eq _, ?_⟩
  rw [standardCodedBytes]
  split
  · exact Or.inl rfl
  · exact Or.inr rfl

/-- Keeping one number free makes no index shorter. -/
theorem standardCodedBytes_eq_two (h : w.codedBytes kind = 2) : w.standardCodedBytes kind = 2 :=
  standardCodedBytes_eq_two_iff.mpr fun t ht =>
    Nat.lt_trans (Nat.lt_succ_self _) (codedBytes_eq_two_iff.mp h t ht)

/-- At the limit the standard has two bytes, and only there is this too few here. -/
theorem isAtLimit_iff :
    w.IsAtLimit kind ↔ w.codedBytes kind = 4 ∧ w.standardCodedBytes kind = 2 := by
  have hfour : w.codedBytes kind = 4 ↔ ¬w.codedBytes kind = 2 := by
    rcases (two_or_four w kind).1 with h | h <;> rw [h] <;> decide
  rw [hfour, codedBytes_eq_two_iff, standardCodedBytes_eq_two_iff, IsAtLimit, and_comm]
  refine and_congr_left fun hall => ?_
  constructor
  · rintro ⟨t, ht, hrows⟩ hfree
    exact absurd (hfree t ht) (by omega)
  · intro hnot
    obtain ⟨t, hnot⟩ := not_forall.mp hnot
    obtain ⟨ht, hrows⟩ := Classical.not_imp.mp hnot
    have hlt := hall t ht
    exact ⟨t, ht, by omega⟩

/-- **The width of a coded index is the standard's, unless at the limit.** -/
theorem codedBytes_eq_standard_iff :
    w.codedBytes kind = w.standardCodedBytes kind ↔ ¬w.IsAtLimit kind := by
  rw [isAtLimit_iff]
  obtain ⟨htwo | hfour, hstandard | hstandard⟩ := two_or_four w kind
  · simp [htwo, hstandard]
  · -- the standard would have four bytes where there are two
    have hshort := standardCodedBytes_eq_two htwo
    rw [hstandard] at hshort
    cases hshort
  · simp [hfour, hstandard]
  · simp [hfour, hstandard]

end Widths

/-! ### Layouts by the two rules -/

/-- The width of a column by the standard's rules. -/
def ColumnKind.standardWidth (w : Widths) : ColumnKind → Nat
  | fixed width => width
  | heap h => if h.isLarge w.flags then 4 else 2
  | table t => if (w.rows.get t).toNat < 2 ^ 16 then 2 else 4
  | coded kind => w.standardCodedBytes kind

/-- The layout of `table` by the standard's rules. -/
def Layout.standard (w : Widths) (table : TableId) : Layout :=
  ofColumns table (table.columns.map fun (name, kind) => ⟨name, kind, kind.standardWidth w⟩)

variable {w : Widths} {t : TableId}

/-- Only coded indexes can have another width than by the standard's rules. -/
theorem ColumnKind.width_eq_standard_iff (c : ColumnKind) :
    c.width w = c.standardWidth w ↔ ∀ kind, c = .coded kind → ¬w.IsAtLimit kind := by
  cases c with
  | fixed width =>
    refine iff_of_true rfl ?_
    rintro kind ⟨⟩
  | heap heap =>
    rw [width_heap, standardWidth, Widths.bytes]
    refine iff_of_true rfl ?_
    rintro kind ⟨⟩
  | table u =>
    refine iff_of_true ?_ ?_
    · rw [width_table, standardWidth, Widths.bytes, Widths.isLarge]
      by_cases hsmall : (w.rows.get u).toNat < 2 ^ 16
      · rw [if_pos hsmall, if_neg (by simp; omega)]
      · rw [if_neg hsmall, if_pos (by simp; omega)]
    · rintro kind ⟨⟩
  | coded kind =>
    change w.codedBytes kind = w.standardCodedBytes kind ↔ _
    rw [Widths.codedBytes_eq_standard_iff]
    constructor
    · rintro hnot kind' ⟨⟩
      exact hnot
    · intro hall
      exact hall kind rfl

/-- The layout of a table is the standard's if none of its coded indexes is at the limit. -/
theorem Layout.resolve_eq_standard_iff :
    resolve w t = standard w t ↔
      ∀ column ∈ t.columns, ∀ kind, column.2 = .coded kind → ¬w.IsAtLimit kind := by
  have hcolumns : resolve w t = standard w t ↔
      ∀ column ∈ t.columns, column.2.width w = column.2.standardWidth w := by
    constructor
    · intro h
      have hmap := List.map_inj_left.mp (congrArg Layout.columns h)
      intro column hcolumn
      exact congrArg Column.size (hmap column hcolumn)
    · intro hall
      rw [resolve, standard]
      refine congrArg (ofColumns t) (List.map_congr_left fun column hcolumn => ?_)
      exact congrArg (Column.mk column.1 column.2) (hall column hcolumn)
  rw [hcolumns]
  exact forall₂_congr fun column _ => column.2.width_eq_standard_iff

/-- The widths of coded indexes keep one number free, and are the standard's otherwise. -/
structure Widths.KeepsOneFree (w : Widths) : Prop where
  /-- There are two widths. -/
  two_or_four : ∀ kind, w.codedBytes kind = 2 ∨ w.codedBytes kind = 4
  /-- An index is short while the bits above the tag can number one row more than there are. -/
  eq_two_iff : ∀ kind, w.codedBytes kind = 2 ↔
    ∀ t ∈ kind.tables, (w.rows.get t).toNat + 1 < 2 ^ (16 - kind.tagBits)
  /-- That is, while the number behind the last row still has sixteen bits with its tag. -/
  eq_two_iff_isShort : ∀ kind, w.codedBytes kind = 2 ↔
    ∀ t ∈ kind.tables, ∀ r : UInt32, r.toNat ≤ (w.rows.get t).toNat + 1 → kind.IsShort t r
  /-- By the standard's rule it is short while the last row has. -/
  standard_iff_isShort : ∀ kind, w.standardCodedBytes kind = 2 ↔
    ∀ t ∈ kind.tables, ∀ r : UInt32, r.toNat ≤ (w.rows.get t).toNat → kind.IsShort t r
  /-- So the two are the same, unless at the limit. -/
  eq_standard_iff : ∀ kind, w.codedBytes kind = w.standardCodedBytes kind ↔ ¬w.IsAtLimit kind
  /-- There an index is long that is short by the standard's rule. -/
  isAtLimit_iff : ∀ kind, w.IsAtLimit kind ↔
    w.codedBytes kind = 4 ∧ w.standardCodedBytes kind = 2
  /-- A stream with these widths is decoded with the standard's layout of a table if none of the
  coded indexes in the table is at the limit. -/
  layout_eq_iff : ∀ (config : Config) (data : Bytes) (s : TablesStream),
    TablesStream.decode config data = .ok s → s.header.widths = w → ∀ t,
      (s.layouts.get t = Layout.standard w t ↔
        ∀ column ∈ t.columns, ∀ kind, column.2 = .coded kind → ¬w.IsAtLimit kind)

/-- **What the width of a coded index is**, and where it is not the standard's, for all row counts
and all kinds. -/
theorem Widths.keepsOneFree (w : Widths) : w.KeepsOneFree where
  two_or_four kind := (w.two_or_four kind).1
  eq_two_iff _ := codedBytes_eq_two_iff
  eq_two_iff_isShort kind := by
    rw [codedBytes_eq_two_iff]
    exact forall₂_congr fun t ht => (CodedKind.forall_isShort_iff ht).symm
  standard_iff_isShort kind := by
    rw [standardCodedBytes_eq_two_iff]
    exact forall₂_congr fun t ht => (CodedKind.forall_isShort_iff ht).symm
  eq_standard_iff _ := codedBytes_eq_standard_iff
  isAtLimit_iff _ := Widths.isAtLimit_iff
  layout_eq_iff config data s h hw t := by
    rw [TablesStream.get_layouts (TablesStream.layouts_of_decode h), hw]
    exact Layout.resolve_eq_standard_iff

/-- A stream with as many type specifications as fourteen bits can number, and no other rows. -/
def typeSpecWidths : Widths where
  rows := .ofFn fun t => if t = .typeSpec then 0x3FFF else 0
  flags := ⟨0⟩

theorem rows_typeSpecWidths (t : TableId) :
    (typeSpecWidths.rows.get t).toNat = if t = .typeSpec then 0x3FFF else 0 := by
  rw [typeSpecWidths, PerTable.get_ofFn]
  split <;> rfl

/-- All rows of all tables have sixteen bits with their tags, and yet the index has four bytes. -/
theorem codedBytes_typeSpecWidths :
    typeSpecWidths.codedBytes .typeDefOrRef = 4 ∧
      typeSpecWidths.standardCodedBytes .typeDefOrRef = 2 ∧
      ¬∀ (w : Widths) (kind : CodedKind), w.codedBytes kind = w.standardCodedBytes kind := by
  have hlimit : typeSpecWidths.IsAtLimit .typeDefOrRef := by
    refine ⟨fun t _ => ?_, .typeSpec, by decide, ?_⟩
    · rw [rows_typeSpecWidths]
      split <;> decide
    · rw [rows_typeSpecWidths]
      rfl
  obtain ⟨hfour, htwo⟩ := Widths.isAtLimit_iff.mp hlimit
  refine ⟨hfour, htwo, fun hall => ?_⟩
  exact Widths.codedBytes_eq_standard_iff.mp (hall _ _) hlimit

end ManagedImage
