import ManagedImage.Proofs.Bytes.Copying
import ManagedImage.Table.Rows

/-!
# When a row can be read

A layout that was put together by hand may have too few columns, columns of a width that cannot be
read, and more columns than the rows need.  Reading goes through as many columns as a row has
values, and comes through exactly if so many are there, each has a width that can be read, and all
their bytes are there.  A read that fails has moved forwards, past the columns in front of the one
that failed.  With the layout that a stream gives a table, nothing but bytes can be missing.

## Main definitions

* `Column.IsPlain` — the column is one, two or four bytes wide.
* `Layout.IsRegular` — the layout fits a table and has no gaps.
* `Layout.stride` — the bytes that are read for a row.
* `Layout.CanRead` — a row can be read at an offset.

## Main results

* `Column.exists_readAll_iff`, `Row.exists_read_iff` — **when a row can be read.**
* `Row.of_read`, `Row.le_read` — where a read ends.
* `Row.exists_read` — a row with a regular layout can be read.
-/

namespace ManagedImage

/-! ### Columns -/

namespace Column

/-- The column has a width that can be read and written. -/
@[reducible] def IsPlain (c : Column) : Prop := c.size = 1 ∨ c.size = 2 ∨ c.size = 4

variable {c : Column} {columns : List Column} {data : Bytes} {offset stop n : Nat} {v : UInt32}
  {vs : { vs : List UInt32 // vs.length = n }}

/-- A column of another width cannot be read. -/
theorem isPlain_of_read (h : c.read data offset = .ok v) : c.IsPlain := by
  by_contra hc
  rw [read, if_neg hc] at h
  exact absurd h (by simp)

theorem exists_read (hc : c.IsPlain) (h : offset + c.size ≤ data.size) :
    ∃ v, c.read data offset = .ok v := by
  obtain ⟨n, hn⟩ := Bytes.exists_number? h
  exact ⟨_, by rw [read, if_pos hc, hn]⟩

/-- What has been read from a column is the number there. -/
theorem number?_of_read (h : c.read data offset = .ok v) :
    data.number? offset c.size = some v.toNat := by
  have hc := isPlain_of_read h
  rw [read, if_pos hc] at h
  cases hn : data.number? offset c.size with
  | none =>
    rw [hn] at h
    exact absurd h (by simp)
  | some n =>
    rw [hn] at h
    obtain rfl := Except.ok.inj h
    have hlt : n < 256 ^ c.size := Bytes.number?_lt hn
    have hbound : n < 2 ^ 32 := by rcases hc with hc | hc | hc <;> rw [hc] at hlt <;> omega
    rw [UInt32.toNat_ofNat_of_lt' hbound]

/-- What has been read from a column can be written to it. -/
theorem encode_of_read (h : c.read data offset = .ok v) :
    c.encode v = .ok (LittleEndian.encode c.size v.toNat) := by
  have hlt : v.toNat < 256 ^ c.size := Bytes.number?_lt (number?_of_read h)
  rw [encode]
  -- a number that has been read from so many bytes fits them
  rcases isPlain_of_read h with hc | hc | hc <;> rw [hc] at hlt ⊢
  · exact if_pos hlt
  · exact if_pos hlt
  · rfl

theorem exists_read_iff :
    (∃ v, c.read data offset = .ok v) ↔ c.IsPlain ∧ offset + c.size ≤ data.size := by
  constructor
  · rintro ⟨v, hv⟩
    have hwindow := Bytes.window?_of_number? (number?_of_read hv)
    exact ⟨isPlain_of_read hv, (Bytes.window?_eq_some_iff.mp hwindow).1⟩
  · rintro ⟨hc, hle⟩
    exact exists_read hc hle

/-- The first column is read, and then the others behind it. -/
theorem exists_of_readAll_cons {vs : { vs : List UInt32 // vs.length = n + 1 }}
    (h : readAll data (n + 1) (c :: columns) offset = (.ok vs, stop)) :
    ∃ v vs', c.read data offset = .ok v ∧
      readAll data n columns (offset + c.size) = (.ok vs', stop) ∧ vs.1 = v :: vs'.1 := by
  rw [readAll] at h
  cases hv : c.read data offset with
  | error e =>
    rw [hv] at h
    cases h
  | ok v =>
    rw [hv] at h
    dsimp only at h
    rcases hrest : readAll data n columns (offset + c.size) with ⟨e | ⟨vs', hvs'⟩, stop'⟩ <;>
      rw [hrest] at h
    · cases h
    · obtain ⟨rfl, rfl⟩ : ⟨v :: vs', congrArg (· + 1) hvs'⟩ = vs ∧ stop' = stop := by
        simpa using h
      exact ⟨v, ⟨vs', hvs'⟩, rfl, rfl, rfl⟩

theorem exists_readAll_cons_iff :
    (∃ vs stop, readAll data (n + 1) (c :: columns) offset = (.ok vs, stop)) ↔
      (∃ v, c.read data offset = .ok v) ∧
        ∃ vs stop, readAll data n columns (offset + c.size) = (.ok vs, stop) := by
  constructor
  · rintro ⟨vs, stop, h⟩
    obtain ⟨v, vs', hv, hrest, -⟩ := exists_of_readAll_cons h
    exact ⟨⟨v, hv⟩, vs', stop, hrest⟩
  · rintro ⟨⟨v, hv⟩, vs, stop, hrest⟩
    refine ⟨⟨v :: vs.1, congrArg (· + 1) vs.2⟩, stop, ?_⟩
    rw [readAll, hv]
    dsimp only
    rw [hrest]

/-- A read goes through as many columns as there are values to be read. -/
theorem stop_eq_of_readAll (h : readAll data n columns offset = (.ok vs, stop)) :
    stop = offset + totalSize (columns.take n) := by
  induction n generalizing columns offset with
  | zero => exact (congrArg Prod.snd h).symm
  | succ n ih =>
    cases columns with
    | nil => cases h
    | cons c columns =>
      obtain ⟨v, vs', -, hrest, -⟩ := exists_of_readAll_cons h
      rw [ih hrest, List.take_succ_cons, totalSize, Nat.add_assoc]

/-- No read moves backwards, not even one that fails. -/
theorem le_readAll (data : Bytes) (n : Nat) (columns : List Column) (offset : Nat) :
    offset ≤ (readAll data n columns offset).2 := by
  induction n generalizing columns offset with
  | zero => exact Nat.le_refl offset
  | succ n ih =>
    cases columns with
    | nil => exact Nat.le_refl offset
    | cons c columns =>
      rw [readAll]
      cases c.read data offset with
      | error e => exact Nat.le_refl offset
      | ok v =>
        have hrest := ih columns (offset + c.size)
        dsimp only
        rcases hread : readAll data n columns (offset + c.size) with ⟨e | vs, stop⟩ <;>
          rw [hread] at hrest <;> exact Nat.le_of_add_right_le hrest

/-- **When values can be read**: there are columns enough, of widths that can be read, and all their
bytes are there. -/
theorem exists_readAll_iff :
    (∃ vs stop, readAll data n columns offset = (.ok vs, stop)) ↔
      n ≤ columns.length ∧ (∀ c ∈ columns.take n, c.IsPlain) ∧
        (n = 0 ∨ offset + totalSize (columns.take n) ≤ data.size) := by
  induction n generalizing columns offset with
  | zero => exact iff_of_true ⟨_, _, rfl⟩ ⟨Nat.zero_le _, by simp, Or.inl rfl⟩
  | succ n ih =>
    cases columns with
    | nil =>
      refine iff_of_false ?_ fun h => absurd h.1 (Nat.not_succ_le_zero n)
      rintro ⟨vs, stop, h⟩
      cases h
    | cons c columns =>
      rw [exists_readAll_cons_iff, ih, exists_read_iff, List.length_cons, List.take_succ_cons,
        List.forall_mem_cons, totalSize]
      constructor
      · rintro ⟨⟨hc, hle⟩, hn, hplain, hroom⟩
        refine ⟨by omega, ⟨hc, hplain⟩, Or.inr ?_⟩
        rcases hroom with rfl | hroom
        · rw [List.take_zero, totalSize]
          exact hle
        · omega
      · rintro ⟨hn, ⟨hc, hplain⟩, hroom⟩
        exact ⟨⟨hc, by omega⟩, by omega, hplain, by omega⟩

end Column

/-! ### Layouts -/

/-- Every column has a plain width in a stream. -/
theorem Column.isPlain_of_mem_resolve {w : Widths} {t : TableId} {c : Column}
    (h : c ∈ (Layout.resolve w t).columns) : c.IsPlain := by
  obtain ⟨⟨name, kind⟩, hmem, rfl⟩ := List.mem_map.mp h
  have hbytes : ∀ large, Widths.bytes large = 1 ∨ Widths.bytes large = 2 ∨ Widths.bytes large = 4 :=
    fun large => Or.inr (Widths.bytes_eq large)
  cases kind with
  | fixed width => exact TableId.fixed_width_of_mem hmem
  | heap heap => cases heap <;> exact hbytes _
  | table table => exact hbytes _
  | coded kind => exact hbytes _

/-- The layout has the columns that the rows of table `t` need, each of a width that can be read,
one right after the other and nothing behind them. -/
structure Layout.IsRegular (l : Layout) (t : TableId) : Prop where
  /-- Every column can be read. -/
  plain : ∀ c ∈ l.columns, c.IsPlain
  /-- There is one column for each field of a row. -/
  length_columns : l.columns.length = t.arity
  /-- A row is as long as its columns. -/
  rowSize_eq : l.rowSize = Column.totalSize l.columns

/-- The layouts of a stream are regular. -/
theorem Layout.isRegular_resolve (w : Widths) (t : TableId) : (resolve w t).IsRegular t where
  plain _ := Column.isPlain_of_mem_resolve
  length_columns := length_columns_resolve w t
  rowSize_eq := rowSize_resolve w t

namespace Layout

/-- The bytes that are read for a row of table `t`. -/
def stride (l : Layout) (t : TableId) : Nat := Column.totalSize (l.columns.take t.arity)

/-- A row of table `t` can be read at `offset` of `data`. -/
structure CanRead (l : Layout) (t : TableId) (data : Bytes) (offset : Nat) : Prop where
  /-- There is a column for each field of the row. -/
  arity_le : t.arity ≤ l.columns.length
  /-- These columns have widths that can be read. -/
  plain : ∀ c ∈ l.columns.take t.arity, c.IsPlain
  /-- Their bytes are there. -/
  room : offset + l.stride t ≤ data.size

variable {l : Layout} {t : TableId} {data : Bytes} {offset offset' : Nat}

/-- Where a row can be read at some offset, one can be read at every lower offset. -/
theorem CanRead.of_le (h : l.CanRead t data offset') (hle : offset ≤ offset') :
    l.CanRead t data offset :=
  ⟨h.arity_le, h.plain, Nat.le_trans (Nat.add_le_add_right hle _) h.room⟩

theorem IsRegular.stride_eq (h : l.IsRegular t) : l.stride t = l.rowSize := by
  rw [stride, ← h.length_columns, List.take_length, h.rowSize_eq]

/-- With a regular layout, nothing but bytes can be missing. -/
theorem IsRegular.canRead_iff (h : l.IsRegular t) :
    l.CanRead t data offset ↔ offset + l.rowSize ≤ data.size := by
  rw [← h.stride_eq]
  constructor
  · exact CanRead.room
  · exact fun hroom =>
      ⟨h.length_columns.ge, fun c hc => h.plain c (List.mem_of_mem_take hc), hroom⟩

end Layout

/-! ### Rows -/

namespace Row

variable {t : TableId} {l : Layout} {data : Bytes} {rid : UInt32} {offset stop : Nat} {r : Row}

/-- A row consists of the values that its columns hold. -/
theorem readAll_of_read (h : read t l data rid offset = (.ok r, stop)) :
    ∃ vs, vs.1 = r.columns ∧ Column.readAll data t.arity l.columns offset = (.ok vs, stop) := by
  rw [read] at h
  rcases hread : Column.readAll data t.arity l.columns offset with ⟨e | ⟨vs, hvs⟩, stop'⟩ <;>
    rw [hread] at h
  · cases h
  · obtain ⟨rfl, rfl⟩ : ⟨t, rid, offset, vs, hvs⟩ = r ∧ stop' = stop := by simpa using h
    exact ⟨_, rfl, rfl⟩

/-- **When a row can be read.** -/
theorem exists_read_iff (rid : UInt32) :
    (∃ r stop, read t l data rid offset = (.ok r, stop)) ↔ l.CanRead t data offset := by
  have hvalues : (∃ r stop, read t l data rid offset = (.ok r, stop)) ↔
      ∃ vs stop, Column.readAll data t.arity l.columns offset = (.ok vs, stop) := by
    constructor
    · rintro ⟨r, stop, h⟩
      obtain ⟨vs, -, hvs⟩ := readAll_of_read h
      exact ⟨vs, stop, hvs⟩
    · rintro ⟨vs, stop, h⟩
      exact ⟨⟨t, rid, offset, vs.1, vs.2⟩, stop, by rw [read, h]⟩
  rw [hvalues, Column.exists_readAll_iff, or_iff_right (Nat.ne_of_gt t.arity_pos)]
  constructor
  · rintro ⟨hle, hplain, hroom⟩
    exact ⟨hle, hplain, hroom⟩
  · intro h
    exact ⟨h.arity_le, h.plain, h.room⟩

/-- A read tells the row where it was read, and ends behind it. -/
theorem of_read (h : read t l data rid offset = (.ok r, stop)) :
    r.table = t ∧ r.rid = rid ∧ r.offset = offset ∧ stop = offset + l.stride t := by
  obtain ⟨vs, -, hvs⟩ := readAll_of_read h
  have hstop := Column.stop_eq_of_readAll hvs
  rw [read, hvs] at h
  obtain rfl := Except.ok.inj (Prod.mk.inj h).1
  exact ⟨rfl, rfl, rfl, hstop⟩

/-- A read that fails ends where it began, or further on. -/
theorem le_read (t : TableId) (l : Layout) (data : Bytes) (rid : UInt32) (offset : Nat) :
    offset ≤ (read t l data rid offset).2 := by
  have hle := Column.le_readAll data t.arity l.columns offset
  rw [read]
  rcases hread : Column.readAll data t.arity l.columns offset with ⟨e | vs, stop⟩ <;>
    rw [hread] at hle <;> exact hle

/-- A row with a regular layout can be read where all its bytes are there. -/
theorem exists_read (hl : l.IsRegular t) (rid : UInt32) (h : offset + l.rowSize ≤ data.size) :
    ∃ r : Row, r.table = t ∧ r.rid = rid ∧ r.offset = offset ∧
      read t l data rid offset = (.ok r, offset + l.rowSize) := by
  obtain ⟨r, stop, hread⟩ := (exists_read_iff rid).mpr (hl.canRead_iff.mpr h)
  obtain ⟨htable, hrid, hoffset, hstop⟩ := of_read hread
  rw [hl.stride_eq] at hstop
  exact ⟨r, htable, hrid, hoffset, hstop ▸ hread⟩

end Row

end ManagedImage
