import ManagedImage.Proofs.Table.Reading
import ManagedImage.Proofs.Table.Sequence

/-!
# The end of a sequence of rows

A cursor comes to an end behind the last row, or at the first row that cannot be read.  In the
second case it stays in the middle of that row: its offset has moved past some columns and its count
has not moved.  Still the end is final.  A row that cannot be read at some offset cannot be read
further on either, whatever the layout: what is missing there, be it a column, a width that can be
read or the bytes, is missing behind it too.

## Main definitions

* `Rows.Gives` — there is a row behind the first `k`, and it can be read.
* `Rows.IsFused` — the end of the sequence is final.

## Main results

* `Rows.next_next_eq_none` — a call that gives nothing is followed by one that gives nothing.
* `Rows.isSome_yielded_iff` — which calls give a row.
* `Rows.isFused_of_ofBytes` — **the end of a sequence of rows is final**, on every layout.
-/

namespace ManagedImage

namespace Rows

variable {t : Rows} {c : RowCursor} {r : Row} {j k : Nat}

/-! ### One call -/

/-- A call gives nothing behind the last row, and where no row can be read. -/
theorem next_eq_none_iff :
    (t.next c).1 = none ↔ t.count.toNat ≤ c.done ∨ ¬t.layout.CanRead t.table t.data c.offset := by
  rw [← Row.exists_read_iff (UInt32.ofNat (c.done + 1)), next]
  split
  · next hdone => exact iff_of_true rfl (Or.inl hdone)
  · next hdone =>
    rw [or_iff_right hdone]
    rcases hread : Row.read t.table t.layout t.data (UInt32.ofNat (c.done + 1)) c.offset with
      ⟨e | r, stop⟩ <;> simp

/-- Then the count stays as it is, and the offset does not go back. -/
theorem of_next_eq_none (h : (t.next c).1 = none) :
    (t.next c).2.done = c.done ∧ c.offset ≤ (t.next c).2.offset := by
  have hle := Row.le_read t.table t.layout t.data (UInt32.ofNat (c.done + 1)) c.offset
  rw [next] at h ⊢
  split at h
  · next hdone =>
    rw [if_pos hdone]
    exact ⟨rfl, Nat.le_refl _⟩
  · next hdone =>
    rw [if_neg hdone]
    rcases hread : Row.read t.table t.layout t.data (UInt32.ofNat (c.done + 1)) c.offset with
      ⟨e | r, stop⟩ <;> rw [hread] at h hle
    · exact ⟨rfl, hle⟩
    · cases h

/-- **A call that gives nothing is followed by one that gives nothing.** -/
theorem next_next_eq_none (h : (t.next c).1 = none) : (t.next (t.next c).2).1 = none := by
  obtain ⟨hdone, hoffset⟩ := of_next_eq_none h
  rw [next_eq_none_iff, hdone]
  rcases next_eq_none_iff.mp h with hend | hread
  · exact Or.inl hend
  · exact Or.inr fun hlater => hread (hlater.of_le hoffset)

/-- A call that gives a row has read it at the cursor, and moves behind it. -/
theorem of_next_eq_some (h : (t.next c).1 = some r) :
    c.done < t.count.toNat ∧ r.table = t.table ∧ r.rid = ridAt c.done ∧ r.offset = c.offset ∧
      (t.next c).2 = ⟨c.done + 1, c.offset + t.layout.stride t.table⟩ := by
  rw [next] at h ⊢
  split at h
  · cases h
  · next hdone =>
    rw [if_neg hdone]
    rcases hread : Row.read t.table t.layout t.data (UInt32.ofNat (c.done + 1)) c.offset with
      ⟨e | r', stop⟩ <;> rw [hread] at h
    · cases h
    · obtain rfl := Option.some.inj h
      obtain ⟨htable, hrid, hoffset, rfl⟩ := Row.of_read hread
      exact ⟨Nat.not_le.mp hdone, htable, hrid, hoffset, rfl⟩

/-! ### All calls -/

/-- There is a row behind the first `k` rows, and it can be read there. -/
def Gives (t : Rows) (k : Nat) : Prop :=
  k < t.count.toNat ∧ t.layout.CanRead t.table t.data (k * t.layout.stride t.table)

theorem Gives.of_le (h : t.Gives k) (hle : j ≤ k) : t.Gives j :=
  ⟨Nat.lt_of_le_of_lt hle h.1, h.2.of_le (Nat.mul_le_mul_right _ hle)⟩

/-- Once a call has given nothing, all later calls give nothing. -/
theorem yielded_eq_none_of_le (h : t.yielded k = none) (hle : k ≤ j) : t.yielded j = none := by
  induction hle with
  | refl => exact h
  | step hle ih =>
    rw [yielded, cursorAfter_succ]
    exact next_next_eq_none ih

/-- As long as there are rows, the cursor stands in front of the next one. -/
theorem cursorAfter_of_gives (h : ∀ j < k, t.Gives j) :
    t.cursorAfter k = ⟨k, k * t.layout.stride t.table⟩ := by
  induction k with
  | zero => rw [Nat.zero_mul]; rfl
  | succ k ih =>
    have hcursor := ih fun j hj => h j (Nat.lt_succ_of_lt hj)
    obtain ⟨hcount, hread⟩ := h k (Nat.lt_succ_self k)
    have hsome : (t.next (t.cursorAfter k)).1 ≠ none := by
      rw [ne_eq, next_eq_none_iff, hcursor]
      exact not_or.mpr ⟨Nat.not_le.mpr hcount, not_not.mpr hread⟩
    obtain ⟨r, hr⟩ := Option.ne_none_iff_exists'.mp hsome
    obtain ⟨-, -, -, -, hnext⟩ := of_next_eq_some hr
    rw [cursorAfter_succ, hnext, hcursor, Nat.succ_mul]

/-- **A call gives a row exactly if there is one left and it can be read.** -/
theorem isSome_yielded_iff : (t.yielded k).isSome ↔ t.Gives k := by
  induction k using Nat.strong_induction_on with
  | _ k ih =>
    by_cases hall : ∀ j < k, t.Gives j
    · rw [Option.isSome_iff_ne_none, yielded, ne_eq, next_eq_none_iff, cursorAfter_of_gives hall,
        not_or, not_not, Nat.not_le]
      rfl
    · -- an earlier call has given nothing, so that this one gives nothing
      obtain ⟨j, hj, hnot⟩ : ∃ j < k, ¬t.Gives j := by simpa using hall
      have hnone : t.yielded j = none := by
        rwa [← ih j hj, Option.not_isSome_iff_eq_none] at hnot
      rw [yielded_eq_none_of_le hnone hj.le]
      exact iff_of_false (by simp) fun hgives => hnot (hgives.of_le hj.le)

/-- A row that is given stands where as many rows as were given before it end. -/
theorem of_yielded_eq_some (h : t.yielded k = some r) :
    r.table = t.table ∧ r.rid.toNat = k + 1 ∧ r.offset = k * t.layout.stride t.table := by
  have hgives : t.Gives k := isSome_yielded_iff.mp (by rw [h]; rfl)
  have hcursor := cursorAfter_of_gives fun j hj => hgives.of_le hj.le
  rw [yielded, hcursor] at h
  obtain ⟨-, htable, hrid, hoffset, -⟩ := of_next_eq_some h
  exact ⟨htable, by rw [hrid, ridAt, toNat_rid hgives.1], hoffset⟩

/-- However many calls there are, they give no more rows than the table has. -/
theorem length_filterMap_yielded_le (t : Rows) (k : Nat) :
    ((List.range k).filterMap t.yielded).length ≤ t.count.toNat := by
  induction k with
  | zero => exact Nat.zero_le _
  | succ k ih =>
    rw [List.range_succ, List.filterMap_append, List.length_append]
    cases hk : t.yielded k with
    | none => simpa [hk] using ih
    | some r =>
      -- no more rows than calls, and this one is among those of the table
      have hlt : k < t.count.toNat := (isSome_yielded_iff.mp (by rw [hk]; rfl)).1
      have hle := List.length_filterMap_le t.yielded (List.range k)
      rw [List.length_range] at hle
      simp only [List.filterMap_cons, hk, List.filterMap_nil, List.length_singleton]
      omega

/-- The end of the sequence of rows is final. -/
structure IsFused (t : Rows) : Prop where
  /-- Once a call has given nothing, all later calls give nothing. -/
  yielded_eq_none_of_le : ∀ k j, t.yielded k = none → k ≤ j → t.yielded j = none
  /-- However many calls there are, they give no more rows than the table has. -/
  length_filterMap_yielded_le : ∀ k, ((List.range k).filterMap t.yielded).length ≤ t.count.toNat
  /-- A call gives a row exactly if there is one left and it can be read behind those before. -/
  isSome_yielded_iff : ∀ k, (t.yielded k).isSome ↔ k < t.count.toNat ∧
    t.layout.CanRead t.table t.data (k * t.layout.stride t.table)
  /-- There it is read, and nowhere else. -/
  of_yielded_eq_some : ∀ k r, t.yielded k = some r →
    r.table = t.table ∧ r.rid.toNat = k + 1 ∧ r.offset = k * t.layout.stride t.table

/-- **The end of a sequence of rows is final**, whatever the layout, the bytes and the number of
rows. -/
theorem isFused_of_ofBytes {table : TableId} {layout : Layout} {count : UInt32} {data : Bytes}
    (h : ofBytes table layout count data = .ok t) :
    t.IsFused ∧ t.table = table ∧ t.layout = layout ∧ t.count = count := by
  obtain ⟨htable, hlayout, hcount, -⟩ := of_ofBytes h
  refine ⟨⟨?_, length_filterMap_yielded_le t, ?_, ?_⟩, htable, hlayout, hcount⟩
  · intro k j hk hle
    exact Rows.yielded_eq_none_of_le hk hle
  · intro k
    exact Rows.isSome_yielded_iff
  · intro k r hr
    exact Rows.of_yielded_eq_some hr

/-- Columns of eight bytes, for rows that are said to be five bytes apart. -/
def crowded : Layout :=
  ⟨.field, [⟨"A", .fixed 2, 2⟩, ⟨"B", .fixed 2, 2⟩, ⟨"C", .fixed 4, 4⟩], 5⟩

/-- The last column of the second row is cut off, and the cursor stays in front of it. -/
theorem isFused_crowded :
    ∃ t, ofBytes .typeRef crowded 3 (.zeros 15) = .ok t ∧ t.IsFused ∧
      (t.yielded 0).map (·.offset) = some 0 ∧ t.yielded 1 = none ∧ t.cursorAfter 2 = ⟨1, 12⟩ ∧
      ∀ k, 1 ≤ k → t.yielded k = none := by
  obtain ⟨t, ht⟩ : ∃ t, ofBytes .typeRef crowded 3 (.zeros 15) = .ok t := ⟨_, rfl⟩
  obtain ⟨hfused, -, -, -⟩ := isFused_of_ofBytes ht
  obtain rfl := Except.ok.inj ht
  refine ⟨_, ht, hfused, rfl, rfl, rfl, ?_⟩
  intro k hk
  exact hfused.yielded_eq_none_of_le 1 k rfl hk

end Rows

end ManagedImage
