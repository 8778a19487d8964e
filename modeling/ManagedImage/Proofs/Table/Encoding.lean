import ManagedImage.Proofs.Bytes.Appending
import ManagedImage.Proofs.Table.Copying

/-!
# Writing rows and reading them again

A row is written where each of its values fits its column.  Then its bytes are those of the values,
one behind the other, and reading them gives the values again.

## Main definitions

* `Column.Fits` — a value fits a column.
* `Column.bytes` — the bytes of some values, as far as they fit.

## Main results

* `Column.writesIf_writeAll` — values are written if they fit, and malformed otherwise.
* `Column.readAll_bytes`, `Row.read_bytes` — the values are read again.
-/

namespace ManagedImage

namespace Column

variable {c : Column} {columns : List Column} {v : UInt32} {values : List UInt32}
  {w : Writer} {out rest : List UInt8} {P : Prop}

/-- The value fits the column. -/
def Fits (c : Column) (v : UInt32) : Prop := v.toNat < 256 ^ c.size

/-- A value that fits its column is encoded. -/
theorem encode_of_fits (hc : c.IsPlain) (h : c.Fits v) :
    c.encode v = .ok (LittleEndian.encode c.size v.toNat) := by
  rw [encode]
  unfold Fits at h
  rcases hc with hc | hc | hc <;> rw [hc] at h ⊢
  · exact if_pos h
  · exact if_pos h
  · rfl

/-- A value that does not is malformed. -/
theorem encode_of_not_fits (hc : c.IsPlain) (h : ¬c.Fits v) :
    ∃ e, c.encode v = .error (.malformed e) := by
  rw [encode]
  unfold Fits at h
  rcases hc with hc | hc | hc <;> rw [hc] at h ⊢
  · exact ⟨_, if_neg h⟩
  · exact ⟨_, if_neg h⟩
  · exact absurd v.toNat_lt h

/-- The bytes of some values, as far as they fit. -/
def bytes : List Column → List UInt32 → List UInt8
  | [], _ => []
  | _ :: _, [] => []
  | c :: columns, v :: values => LittleEndian.encode c.size v.toNat ++ bytes columns values

theorem length_bytes (h : columns.length = values.length) :
    (bytes columns values).length = totalSize columns := by
  induction columns generalizing values with
  | nil => rfl
  | cons c columns ih =>
    cases values with
    | nil => exact absurd h (by simp)
    | cons v values =>
      rw [bytes, List.length_append, LittleEndian.length_encode, ih (Nat.succ.inj h), totalSize]

/-- A writer that has been stopped stays so. -/
theorem isMalformed_writeAll (h : w.IsMalformed) : (writeAll values columns w).IsMalformed := by
  induction values generalizing columns w with
  | nil => exact h
  | cons v values ih =>
    cases columns with
    | nil => exact h.stop _
    | cons c columns =>
      rw [writeAll]
      cases c.encode v with
      | error e => exact h.stop e
      | ok bytes => exact ih (h.put bytes)

/-- Values that fit their columns are written. -/
theorem writes_writeAll (hplain : ∀ c ∈ columns, c.IsPlain)
    (hfits : List.Forall₂ Fits columns values)
    (hw : w.Writes out (bytes columns values ++ rest)) :
    (writeAll values columns w).Writes (out ++ bytes columns values) rest := by
  induction hfits generalizing w out with
  | nil =>
    rw [bytes, List.append_nil]
    exact hw
  | cons hv _ ih =>
    rw [bytes, List.append_assoc] at hw
    rw [writeAll, encode_of_fits (hplain _ List.mem_cons_self) hv, bytes, ← List.append_assoc]
    exact ih (fun d hd => hplain d (List.mem_cons_of_mem _ hd)) hw.put

/-- A value that does not fit stops the writer. -/
theorem isMalformed_writeAll_of_not_fits (hplain : ∀ c ∈ columns, c.IsPlain)
    (hlen : columns.length = values.length) (hfits : ¬List.Forall₂ Fits columns values)
    (hw : w.Writes out (bytes columns values ++ rest)) :
    (writeAll values columns w).IsMalformed := by
  -- up to the first value that does not fit
  induction columns generalizing values w out with
  | nil =>
    obtain rfl : values = [] := List.length_eq_zero_iff.mp hlen.symm
    exact absurd .nil hfits
  | cons c columns ih =>
    cases values with
    | nil => exact absurd hlen (by simp)
    | cons v values =>
      rw [bytes, List.append_assoc] at hw
      rw [writeAll]
      by_cases hv : c.Fits v
      · rw [encode_of_fits (hplain c List.mem_cons_self) hv]
        refine ih (fun d hd => hplain d (List.mem_cons_of_mem c hd)) (Nat.succ.inj hlen) ?_ hw.put
        exact fun hrest => hfits (.cons hv hrest)
      · obtain ⟨e, he⟩ := encode_of_not_fits (hplain c List.mem_cons_self) hv
        rw [he]
        exact Writer.isMalformed_stop hw.error?

/-- **Values are written if they fit, and malformed otherwise.** -/
theorem writesIf_writeAll (hplain : ∀ c ∈ columns, c.IsPlain)
    (hlen : columns.length = values.length)
    (hw : w.WritesIf P out (bytes columns values ++ rest)) :
    (writeAll values columns w).WritesIf (P ∧ List.Forall₂ Fits columns values)
      (out ++ bytes columns values) rest :=
  hw.step (writes_writeAll hplain) (isMalformed_writeAll_of_not_fits hplain hlen)
    isMalformed_writeAll

/-- **Values that fit are read again**, wherever their bytes stand. -/
theorem readAll_bytes (hplain : ∀ c ∈ columns, c.IsPlain)
    (hfits : List.Forall₂ Fits columns values) {n : Nat} (hn : values.length = n)
    (before after : List UInt8) :
    readAll (before ++ (bytes columns values ++ after)).toArray n columns before.length
      = (.ok ⟨values, hn⟩, before.length + totalSize columns) := by
  subst hn
  induction hfits generalizing before with
  | nil => rfl
  | cons hv hvalues ih =>
    rename_i c v columns values
    have hc := hplain c List.mem_cons_self
    have hread : c.read (before ++ (LittleEndian.encode c.size v.toNat
        ++ (bytes columns values ++ after))).toArray before.length = .ok v := by
      rw [read, if_pos hc, Bytes.number?_append hv]
      exact congrArg Except.ok UInt32.ofNat_toNat
    -- the other columns stand behind the bytes of the first one
    have hrest := ih (fun d hd => hplain d (List.mem_cons_of_mem c hd))
      (before ++ LittleEndian.encode c.size v.toNat)
    rw [List.length_append, LittleEndian.length_encode, List.append_assoc] at hrest
    rw [bytes, List.append_assoc]
    change readAll _ (values.length + 1) _ _ = _
    rw [readAll, hread]
    dsimp only
    rw [hrest, totalSize, Nat.add_assoc]

end Column

/-! ### Rows -/

namespace Row

variable {widths : Widths} {t : TableId} {values : List UInt32} {w : Writer}
  {out rest : List UInt8} {P : Prop}

/-- A row with as many values as its table has columns keeps them. -/
theorem columns_ofValues (rid : UInt32) (h : values.length = t.arity) :
    (ofValues t rid values).columns = values := by
  change (values ++ List.replicate t.arity 0).take t.arity = values
  rw [← h, List.take_left]

theorem writesIf_writeMatching (rid : UInt32) (h : values.length = t.arity)
    (hw : w.WritesIf P out (Column.bytes (Layout.resolve widths t).columns values ++ rest)) :
    ((ofValues t rid values).writeMatching (Layout.resolve widths t) w).WritesIf
      (P ∧ List.Forall₂ Column.Fits (Layout.resolve widths t).columns values)
      (out ++ Column.bytes (Layout.resolve widths t).columns values) rest := by
  have hmatches : (ofValues t rid values).table = (Layout.resolve widths t).table := rfl
  rw [writeMatching, if_pos hmatches, write, columns_ofValues rid h]
  refine Column.writesIf_writeAll (fun c => Column.isPlain_of_mem_resolve) ?_ hw
  rw [Layout.length_columns_resolve, h]

/-- Rows are written one behind the other if all their values fit. -/
theorem writesIf_foldl (rids : Nat → UInt32) {rows : List (List UInt32)}
    (h : ∀ values ∈ rows, values.length = t.arity)
    (hw : w.WritesIf P out
      (rows.flatMap (Column.bytes (Layout.resolve widths t).columns) ++ rest)) :
    ((rows.mapIdx fun i values => ofValues t (rids i) values).foldl
        (fun w row => row.writeMatching (Layout.resolve widths t) w) w).WritesIf
      (P ∧ ∀ values ∈ rows, List.Forall₂ Column.Fits (Layout.resolve widths t).columns values)
      (out ++ rows.flatMap (Column.bytes (Layout.resolve widths t).columns)) rest := by
  induction rows generalizing w out P rids with
  | nil => simpa using hw
  | cons values rows ih =>
    rw [List.flatMap_cons, List.append_assoc] at hw
    rw [List.mapIdx_cons, List.foldl_cons, List.flatMap_cons, ← List.append_assoc]
    have hrow := writesIf_writeMatching (rids 0) (h values List.mem_cons_self) hw
    refine (ih (fun i => rids (i + 1)) (fun vs hvs => h vs (List.mem_cons_of_mem _ hvs))
      hrow).congr ?_
    rw [List.forall_mem_cons, and_assoc]

/-- A row is read where it was written. -/
theorem read_bytes (rid : UInt32) (h : values.length = t.arity)
    (hfits : List.Forall₂ Column.Fits (Layout.resolve widths t).columns values)
    (before after : List UInt8) :
    (read t (Layout.resolve widths t)
        (before ++ (Column.bytes (Layout.resolve widths t).columns values ++ after)).toArray
        rid before.length).1
      = .ok ⟨t, rid, before.length, values, h⟩ := by
  rw [read, Column.readAll_bytes (fun c => Column.isPlain_of_mem_resolve) hfits h before after]

end Row

end ManagedImage
