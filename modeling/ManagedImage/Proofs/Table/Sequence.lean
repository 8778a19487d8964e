import ManagedImage.Proofs.Table.Copying
import Mathlib.Logic.Function.Iterate

/-!
# Rows in sequence, by number, and in any order

A cursor reaches the rows of a table by adding up what it has read, while a row number leads to its
row by a multiplication.  With a regular layout both come to the same places, so that the rows are
the same however they are asked for: one after the other, each by its number, or all of them in
whatever order several workers take them.

## Main definitions

* `Rows.cursorAfter`, `Rows.yielded` — where the cursor is after some calls, and what a call gives.
* `Rows.rowsIn`, `Rows.forEachIn` — rows taken in a given order.
* `Rows.AccessAgrees` — all ways to the rows lead to the same rows.

## Main results

* `Rows.next_cursorAt` — one call gives the next row, and the cursor stands in front of the one
  behind it.
* `Rows.cursorAfter_eq` — where the cursor is after any number of calls.
* `Rows.accessAgrees_of_ofBytes` — **all ways to the rows of a regular layout agree.**
-/

namespace ManagedImage

namespace Rows

variable {t : Rows} {k : Nat} {rid : UInt32} {r : Row}

/-! ### Rows by number -/

/-- The number of the row behind the first `k` rows. -/
def ridAt (k : Nat) : UInt32 := UInt32.ofNat (k + 1)

theorem ridAt_mem_rids (hk : k < t.count.toNat) : ridAt k ∈ t.rids :=
  List.mem_map.mpr ⟨k, List.mem_range.mpr hk, rfl⟩

theorem get?_eq_some_iff : t.get? rid = some r ↔ t.row rid = .ok r := by
  rw [get?]
  cases t.row rid <;> simp [Except.toOption]

/-- A number leads to a row if it is one of the table's. -/
theorem isSome_get?_iff (h : t.layout.IsRegular t.table) : (t.get? rid).isSome ↔ rid ∈ t.rids := by
  constructor
  · intro hsome
    obtain ⟨r, hr⟩ := Option.isSome_iff_exists.mp hsome
    rw [get?_eq_some_iff, row] at hr
    split at hr
    · cases hr
    · next hin =>
      obtain ⟨hpos, hle⟩ := not_or.mp hin
      exact mem_rids_iff.mpr ⟨hpos, UInt32.not_lt.mp hle⟩
  · intro hrid
    obtain ⟨r, -, -, -, hrow, -⟩ := exists_row h hrid
    rw [get?_eq_some_iff.mpr hrow]
    rfl

/-! ### Rows in sequence -/

/-- The cursor after `k` calls. -/
def cursorAfter (t : Rows) (k : Nat) : RowCursor := (fun c => (t.next c).2)^[k] .first

/-- What the call behind the first `k` calls gives. -/
def yielded (t : Rows) (k : Nat) : Option Row := (t.next (t.cursorAfter k)).1

theorem cursorAfter_succ (t : Rows) (k : Nat) :
    t.cursorAfter (k + 1) = (t.next (t.cursorAfter k)).2 :=
  Function.iterate_succ_apply' ..

/-- The place in front of the row behind the first `k` rows. -/
def cursorAt (t : Rows) (k : Nat) : RowCursor := ⟨k, k * t.layout.rowSize⟩

/-- **One call gives the next row**: the one that its number leads to, at the place where the
columns read so far end. -/
theorem next_cursorAt (h : t.layout.IsRegular t.table) (hk : k < t.count.toNat) :
    ∃ r : Row, r.table = t.table ∧ r.rid = ridAt k ∧ r.offset = k * t.layout.rowSize ∧
      t.row (ridAt k) = .ok r ∧ t.next (t.cursorAt k) = (some r, t.cursorAt (k + 1)) := by
  obtain ⟨r, htable, hrid, hoffset, hrow, hread⟩ := exists_row h (ridAt_mem_rids hk)
  rw [ridAt, toNat_rid hk, Nat.add_sub_cancel] at hoffset hread
  refine ⟨r, htable, hrid, hoffset, hrow, ?_⟩
  rw [next, cursorAt, if_neg (Nat.not_le.mpr hk)]
  simp only [hread]
  rfl

/-- Behind the last row a call gives nothing and moves nothing. -/
theorem next_cursorAt_count (t : Rows) :
    t.next (t.cursorAt t.count.toNat) = (none, t.cursorAt t.count.toNat) :=
  if_pos (Nat.le_refl _)

/-- The cursor moves row by row and stops behind the last row. -/
theorem cursorAfter_eq (h : t.layout.IsRegular t.table) (k : Nat) :
    t.cursorAfter k = t.cursorAt (min k t.count.toNat) := by
  induction k with
  | zero => rw [Nat.zero_min, cursorAt, Nat.zero_mul]; rfl
  | succ k ih =>
    rw [cursorAfter_succ, ih]
    rcases Nat.lt_or_ge k t.count.toNat with hlt | hge
    · obtain ⟨r, -, -, -, -, hnext⟩ := next_cursorAt h hlt
      rw [Nat.min_eq_left hlt.le, hnext, Nat.min_eq_left hlt]
    · rw [Nat.min_eq_right hge, next_cursorAt_count, Nat.min_eq_right (Nat.le_succ_of_le hge)]

/-- The rows collected from a place on are those that the numbers from there on lead to. -/
theorem collect_cursorAt (h : t.layout.IsRegular t.table) {left : Nat}
    (hleft : k + left ≤ t.count.toNat) (found : Array Row) :
    (t.collect left (t.cursorAt k) found).toList =
      found.toList ++ (List.range' k left).filterMap fun i => t.get? (ridAt i) := by
  induction left generalizing k found with
  | zero => simp [collect]
  | succ left ih =>
    obtain ⟨r, -, -, -, hrow, hnext⟩ := next_cursorAt h (show k < t.count.toNat by omega)
    rw [collect, hnext]
    dsimp only
    rw [ih (by omega), List.range'_succ, List.filterMap_cons, get?_eq_some_iff.mpr hrow,
      Array.toList_push, List.append_assoc]
    rfl

/-- The rows in sequence are those found number by number. -/
theorem toList_toArray (h : t.layout.IsRegular t.table) :
    t.toArray.toList = t.rids.filterMap t.get? := by
  have hfirst : RowCursor.first = t.cursorAt 0 := by rw [cursorAt, Nat.zero_mul]; rfl
  rw [toArray, hfirst, collect_cursorAt h (Nat.zero_add _).le, ← List.range_eq_range', rids,
    List.filterMap_map]
  rfl

/-! ### Rows in any order -/

/-- The rows with the given numbers, as far as they can be read. -/
def rowsIn (t : Rows) (order : List UInt32) : List Row := order.filterMap t.get?

/-- Applies `op` to the rows with the given numbers, up to the first failure. -/
def forEachIn (t : Rows) (order : List UInt32) (op : Row → Except Error Unit) : Except Error Unit :=
  forM order fun rid => t.row rid >>= op

variable {order : List UInt32} {op : Row → Except Error Unit} {e : Error}

theorem forEachIn_cons (t : Rows) (rid : UInt32) (order : List UInt32)
    (op : Row → Except Error Unit) :
    t.forEachIn (rid :: order) op = (t.row rid >>= op) >>= fun _ => t.forEachIn order op :=
  List.forM_cons ..

/-- Rows are gone over if each of them is there and is accepted. -/
theorem forEachIn_eq_ok_iff_forall :
    t.forEachIn order op = .ok () ↔ ∀ rid ∈ order, (t.row rid >>= op) = .ok () := by
  induction order with
  | nil => exact iff_of_true rfl fun _ h => absurd h List.not_mem_nil
  | cons rid order ih =>
    rw [forEachIn_cons, List.forall_mem_cons, ← ih]
    cases hfirst : t.row rid >>= op with
    | error e => exact iff_of_false (by intro h; cases h) (by rintro ⟨h, -⟩; cases h)
    | ok u => exact (and_iff_right rfl).symm

/-- A failure is the failure at one of the rows. -/
theorem exists_mem_of_forEachIn_eq_error (h : t.forEachIn order op = .error e) :
    ∃ rid ∈ order, (t.row rid >>= op) = .error e := by
  induction order with
  | nil => cases h
  | cons rid order ih =>
    rw [forEachIn_cons] at h
    rcases eq_error_or_of_bind_eq_error h with hfirst | ⟨_, -, hrest⟩
    · exact ⟨rid, List.mem_cons_self, hfirst⟩
    · obtain ⟨rid', hrid', hfail⟩ := ih hrest
      exact ⟨rid', List.mem_cons_of_mem rid hrid', hfail⟩

/-- In every order, all rows are gone over exactly if `op` accepts all of them. -/
theorem forEachIn_eq_ok_iff (h : t.layout.IsRegular t.table) (horder : order.Perm t.rids) :
    t.forEachIn order op = .ok () ↔ ∀ rid r, t.row rid = .ok r → op r = .ok () := by
  rw [forEachIn_eq_ok_iff_forall]
  constructor
  · intro hall rid r hrow
    have hmem : rid ∈ t.rids := by
      rw [← isSome_get?_iff h, get?_eq_some_iff.mpr hrow]
      rfl
    have hop := hall rid (horder.mem_iff.mpr hmem)
    rwa [hrow] at hop
  · intro hall rid hrid
    obtain ⟨r, -, -, -, hrow, -⟩ := exists_row h (horder.mem_iff.mp hrid)
    rw [hrow]
    exact hall rid r hrow

/-- A failure is that of `op` at some row, since all rows can be read. -/
theorem exists_of_forEachIn_eq_error (h : t.layout.IsRegular t.table) (horder : order.Perm t.rids)
    (herror : t.forEachIn order op = .error e) : ∃ rid r, t.row rid = .ok r ∧ op r = .error e := by
  obtain ⟨rid, hrid, hfail⟩ := exists_mem_of_forEachIn_eq_error herror
  obtain ⟨r, -, -, -, hrow, -⟩ := exists_row h (horder.mem_iff.mp hrid)
  rw [hrow] at hfail
  exact ⟨rid, r, hrow, hfail⟩

theorem mem_toArray_iff (h : t.layout.IsRegular t.table) :
    r ∈ t.toArray ↔ ∃ rid, t.row rid = .ok r := by
  rw [← Array.mem_toList_iff, toList_toArray h, List.mem_filterMap]
  constructor
  · rintro ⟨rid, -, hget⟩
    exact ⟨rid, get?_eq_some_iff.mp hget⟩
  · rintro ⟨rid, hrow⟩
    refine ⟨rid, ?_, get?_eq_some_iff.mpr hrow⟩
    rw [← isSome_get?_iff h, get?_eq_some_iff.mpr hrow]
    rfl

/-- A call gives the row that the next number leads to. -/
theorem yielded_eq_get? (h : t.layout.IsRegular t.table) (hk : k < t.count.toNat) :
    t.yielded k = t.get? (ridAt k) := by
  obtain ⟨r, -, -, -, hrow, hnext⟩ := next_cursorAt h hk
  rw [yielded, cursorAfter_eq h, Nat.min_eq_left hk.le, hnext, get?_eq_some_iff.mpr hrow]

/-- The sequence is made of what the calls give. -/
theorem map_some_toArray (h : t.layout.IsRegular t.table) :
    t.toArray.toList.map some = (List.range t.count.toNat).map t.yielded := by
  have hcalls : (List.range t.count.toNat).map t.yielded = t.rids.map t.get? := by
    rw [rids, List.map_map]
    exact List.map_congr_left fun k hk => yielded_eq_get? h (List.mem_range.mp hk)
  rw [hcalls, toList_toArray h, List.map_filterMap_some_eq_filter_map_isSome, List.filter_eq_self]
  -- no number of the table is left out
  intro found hfound
  obtain ⟨rid, hrid, rfl⟩ := List.mem_map.mp hfound
  exact (isSome_get?_iff h).mpr hrid

/-! ### Agreement -/

/-- All ways to the rows of a table lead to the same rows. -/
structure AccessAgrees (t : Rows) : Prop where
  /-- Call after call gives the row that the next number leads to, with its place. -/
  yielded_eq : ∀ k < t.count.toNat, ∃ r, t.yielded k = some r ∧ t.row (ridAt k) = .ok r ∧
    r.table = t.table ∧ r.rid.toNat = k + 1 ∧ r.offset = k * t.layout.rowSize
  /-- All later calls give nothing. -/
  yielded_eq_none : ∀ k, t.count.toNat ≤ k → t.yielded k = none
  /-- Every call takes one row off those that are left, as long as there are any. -/
  remaining_eq : ∀ k, t.remaining (t.cursorAfter k) = t.count.toNat - min k t.count.toNat
  /-- The sequence is made of what the calls give. -/
  toArray_eq : t.toArray.toList.map some = (List.range t.count.toNat).map t.yielded
  /-- Rows that are found by number, in whatever order, are those of the sequence. -/
  rowsIn_perm : ∀ order, order.Perm t.rids → (t.rowsIn order).Perm t.toArray.toList
  /-- Those that are found number by number are the sequence itself. -/
  readable_eq : t.readable = t.toArray.toList
  /-- A number leads to a row if it is one of the table's. -/
  isSome_get?_iff : ∀ rid, (t.get? rid).isSome ↔ 1 ≤ rid.toNat ∧ rid.toNat ≤ t.count.toNat
  /-- Going over the rows, in whatever order, succeeds if every row is accepted. -/
  forEachIn_eq_ok_iff : ∀ order op, order.Perm t.rids →
    (t.forEachIn order op = .ok () ↔ ∀ r ∈ t.toArray, op r = .ok ())
  /-- It fails as it does at some row. -/
  exists_of_forEachIn : ∀ order op e, order.Perm t.rids → t.forEachIn order op = .error e →
    ∃ r ∈ t.toArray, op r = .error e
  /-- The order may be that of the numbers. -/
  forEach_eq : ∀ op, t.forEach op = t.forEachIn t.rids op

theorem accessAgrees (h : t.layout.IsRegular t.table) : t.AccessAgrees where
  yielded_eq k hk := by
    obtain ⟨r, htable, hrid, hoffset, hrow, hnext⟩ := next_cursorAt h hk
    refine ⟨r, ?_, hrow, htable, by rw [hrid, ridAt, toNat_rid hk], hoffset⟩
    rw [yielded, cursorAfter_eq h, Nat.min_eq_left hk.le, hnext]
  yielded_eq_none k hk := by
    rw [yielded, cursorAfter_eq h, Nat.min_eq_right hk, next_cursorAt_count]
  remaining_eq k := by rw [cursorAfter_eq h]; rfl
  toArray_eq := map_some_toArray h
  rowsIn_perm order horder := by
    rw [toList_toArray h]
    exact horder.filterMap t.get?
  readable_eq := t.readable_eq.trans (toList_toArray h).symm
  isSome_get?_iff rid := by
    rw [Rows.isSome_get?_iff h, mem_rids_iff, Nat.one_le_iff_ne_zero, UInt32.le_iff_toNat_le,
      ← UInt32.toNat_inj.ne, UInt32.toNat_zero]
  forEachIn_eq_ok_iff order op horder := by
    rw [Rows.forEachIn_eq_ok_iff h horder]
    simp only [mem_toArray_iff h]
    constructor
    · rintro hall r ⟨rid, hrow⟩
      exact hall rid r hrow
    · intro hall rid r hrow
      exact hall r ⟨rid, hrow⟩
  exists_of_forEachIn order op e horder herror := by
    obtain ⟨rid, r, hrow, hop⟩ := exists_of_forEachIn_eq_error h horder herror
    exact ⟨r, (mem_toArray_iff h).mpr ⟨rid, hrow⟩, hop⟩
  forEach_eq := t.forEach_eq

/-- **All ways to the rows of a regular layout agree**, whatever bytes the rows are taken from. -/
theorem accessAgrees_of_ofBytes {table : TableId} {layout : Layout} {count : UInt32} {data : Bytes}
    (hl : layout.IsRegular table) (h : ofBytes table layout count data = .ok t) :
    t.AccessAgrees ∧ t.table = table ∧ t.layout = layout ∧ t.count = count := by
  obtain ⟨htable, hlayout, hcount, -⟩ := of_ofBytes h
  refine ⟨accessAgrees ?_, htable, hlayout, hcount⟩
  rw [hlayout, htable]
  exact hl

/-- Columns of three widths, put together by hand. -/
def handmade : Layout :=
  .ofColumns .field [⟨"A", .fixed 1, 1⟩, ⟨"B", .fixed 4, 4⟩, ⟨"C", .fixed 2, 2⟩]

theorem isRegular_handmade : handmade.IsRegular .typeRef where
  plain := by decide
  length_columns := rfl
  rowSize_eq := rfl

/-- Two rows of seven bytes and one byte behind them. -/
def handmadeBytes : Bytes := #[1, 2, 0, 0, 0, 3, 0, 4, 5, 0, 0, 1, 6, 7, 0xFF]

theorem accessAgrees_handmade :
    ∃ t, ofBytes .typeRef handmade 2 handmadeBytes = .ok t ∧ handmade.IsRegular .typeRef ∧
      t.AccessAgrees ∧ (t.yielded 1).map (·.columns) = some [4, 0x1000005, 0x706] ∧
      (t.yielded 1).map (·.offset) = some 7 ∧ t.yielded 2 = none := by
  obtain ⟨t, ht⟩ : ∃ t, ofBytes .typeRef handmade 2 handmadeBytes = .ok t := ⟨_, rfl⟩
  obtain rfl := Except.ok.inj ht
  obtain ⟨hagrees, -, -, -⟩ := accessAgrees_of_ofBytes isRegular_handmade ht
  exact ⟨_, ht, isRegular_handmade, hagrees, rfl, rfl, hagrees.yielded_eq_none 2 (Nat.le_refl 2)⟩

end Rows

end ManagedImage
