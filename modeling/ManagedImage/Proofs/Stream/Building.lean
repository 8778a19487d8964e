import ManagedImage.Proofs.Stream.Decoding
import ManagedImage.Proofs.Stream.HeaderBytes
import ManagedImage.Proofs.Table.Encoding
import ManagedImage.Stream.Builder

/-!
# What is built is decoded again

A builder collects rows of all tables in any order.  How wide their columns are follows from all row
counts together, so it is known only at the end, and then every value must fit its column.  The
decoder works the widths out anew, and finds the rows where the builder has put them.

## Main definitions

* `StreamBuilder.Call`, `StreamBuilder.run` — what a builder can be told.
* `StreamBuilder.pushed` — the rows that are pushed into a table.
* `StreamBuilder.lastSet?` — what the last of the calls that set something has set.
* `StreamBuilder.Fits`, `StreamBuilder.PushedFit` — every value fits its column, as the builder has
  them and as they have been pushed.
* `StreamBuilder.Recovers` — a stream is what a builder was told.

## Main results

* `StreamBuilder.build_of_fits`, `StreamBuilder.build_of_not_fits` — when building succeeds.
* `StreamBuilder.decode_bytes` — what is built can be decoded.
* `StreamBuilder.recovers_of_build` — **decoding undoes building.**
-/

namespace ManagedImage

/-! ### Tables in their bytes -/

/-- The bytes of the rows of a table. -/
def TableId.bytes (t : TableId) (widths : Widths) (rows : List (List UInt32)) : List UInt8 :=
  rows.flatMap (Column.bytes (Layout.resolve widths t).columns)

section TableBytes

variable {widths : Widths} {t : TableId} {values : List UInt32} {all : List (List UInt32)}

theorem TableId.length_bytes (h : ∀ values ∈ all, values.length = t.arity) :
    (t.bytes widths all).length = all.length * (Layout.resolve widths t).rowSize := by
  induction all with
  | nil => simp [bytes]
  | cons values all ih =>
    have hvalues : (Layout.resolve widths t).columns.length = values.length := by
      rw [Layout.length_columns_resolve, h values List.mem_cons_self]
    have hall := ih fun vs hvs => h vs (List.mem_cons_of_mem _ hvs)
    rw [bytes] at hall
    rw [bytes, List.flatMap_cons, List.length_append, Column.length_bytes hvalues, hall,
      List.length_cons, Nat.succ_mul, Nat.add_comm, Layout.rowSize_resolve]

/-- **Each row is found by its number** in the bytes of its table. -/
theorem Rows.row_of_bytes {rows : Rows} (htable : rows.table = t)
    (hlayout : rows.layout = Layout.resolve widths t)
    (hdata : rows.data = (t.bytes widths all).toArray) (hcount : rows.count.toNat = all.length)
    (hlen : ∀ values ∈ all, values.length = t.arity)
    (hfits : ∀ values ∈ all, List.Forall₂ Column.Fits (Layout.resolve widths t).columns values)
    {i : Nat} (hi : all[i]? = some values) :
    ∃ row, rows.row (UInt32.ofNat (i + 1)) = .ok row ∧ row.table = t ∧
      row.rid = UInt32.ofNat (i + 1) ∧ row.columns = values := by
  obtain ⟨hlt, hget⟩ := List.getElem?_eq_some_iff.mp hi
  have hmem : values ∈ all := hget ▸ List.getElem_mem hlt
  -- the rows in front of it fill the bytes up to where it stands
  have hsplit : all = all.take i ++ values :: all.drop (i + 1) := by
    rw [← hget, List.getElem_cons_drop, List.take_append_drop]
  have hbefore : (t.bytes widths (all.take i)).length = i * (Layout.resolve widths t).rowSize := by
    rw [TableId.length_bytes fun vs hvs => hlen vs (List.mem_of_mem_take hvs), List.length_take,
      Nat.min_eq_left (Nat.le_of_lt hlt)]
  have hbytes : t.bytes widths all = t.bytes widths (all.take i) ++
      (Column.bytes (Layout.resolve widths t).columns values ++
        t.bytes widths (all.drop (i + 1))) := by
    conv_lhs => rw [hsplit]
    rw [TableId.bytes, List.flatMap_append, List.flatMap_cons]
    rfl
  have hrid : (UInt32.ofNat (i + 1)).toNat = i + 1 := Rows.toNat_rid (hcount ▸ hlt)
  have hin : ¬(UInt32.ofNat (i + 1) = 0 ∨ rows.count < UInt32.ofNat (i + 1)) := by
    have hmem : UInt32.ofNat (i + 1) ∈ rows.rids :=
      List.mem_map.mpr ⟨i, List.mem_range.mpr (hcount ▸ hlt), rfl⟩
    obtain ⟨hpos, hle⟩ := Rows.mem_rids_iff.mp hmem
    exact not_or.mpr ⟨hpos, UInt32.not_lt.mpr hle⟩
  have hread := Row.read_bytes (UInt32.ofNat (i + 1)) (hlen values hmem) (hfits values hmem)
    (t.bytes widths (all.take i)) (t.bytes widths (all.drop (i + 1)))
  rw [hbefore] at hread
  refine ⟨_, Eq.trans ?_ hread, rfl, rfl, rfl⟩
  rw [Rows.row, if_neg hin, htable, hlayout, hdata, hbytes, hrid, Nat.add_sub_cancel]

end TableBytes

namespace TablesStream

variable {tables : List TableId} {f : TableId → List UInt8}

/-- Tables that stand one behind the other are carved out. -/
theorem carve_bytes (header : StreamHeader) (hnodup : tables.Nodup)
    (hsize : ∀ t ∈ tables, (f t).length =
      (header.rowCount t).toNat * (Layout.resolve header.widths t).rowSize)
    (before after : List UInt8) (found : PerTable (Option CarvedTable)) :
    ∃ found', carve (before ++ (tables.flatMap f ++ after)).toArray header
        (Layout.resolveAll header.widths) tables before.length found
        = .ok (found', before.length + (tables.flatMap f).length) ∧
      ∀ t ∈ tables, ∃ c, found'.get t = some c ∧ c.rows.data = (f t).toArray := by
  induction tables generalizing before found with
  | nil => exact ⟨found, rfl, fun t ht => absurd ht List.not_mem_nil⟩
  | cons t tables ih =>
    obtain ⟨ht, htables⟩ := List.nodup_cons.mp hnodup
    have hlen := hsize t List.mem_cons_self
    have hextract := Bytes.extract_append before (f t) (tables.flatMap f ++ after)
    -- the bytes of the first table are all there
    obtain ⟨rows, hrows⟩ : ∃ rows, Rows.ofBytes t (Layout.resolve header.widths t)
        (header.rowCount t) (f t).toArray = .ok rows :=
      ⟨_, dif_pos (by rw [List.size_toArray, hlen])⟩
    have hdata : rows.data = (f t).toArray := by
      rw [(Rows.of_ofBytes hrows).2.2.2, ← hlen, List.extract_toArray, List.extract_eq_take_drop,
        List.drop_zero, Nat.sub_zero, List.take_length]
    have hfits : before.length + (f t).length ≤
        (before ++ (f t ++ (tables.flatMap f ++ after))).toArray.size := by
      rw [List.size_toArray, List.length_append, List.length_append]
      omega
    obtain ⟨found', hcarve, hfound⟩ := ih htables (fun u hu => hsize u (List.mem_cons_of_mem t hu))
      (before ++ f t) (found.set t (some ⟨before.length, before.length + (f t).length, rows⟩))
    rw [List.append_assoc, List.length_append] at hcarve
    refine ⟨found', ?_, fun u hu => ?_⟩
    · rw [List.flatMap_cons, List.append_assoc, List.length_append, ← Nat.add_assoc, ← hcarve,
        carve, Layout.resolveAll, PerTable.get_ofFn, ← hlen, if_pos hfits, hextract, hrows]
      rfl
    · rcases List.mem_cons.mp hu with rfl | hu
      · refine ⟨_, (get_carve hcarve ht).trans (PerTable.get_set_self _ _ _), hdata⟩
      · exact hfound u hu

end TablesStream

/-- The tables in the mask are the ones that are there. -/
theorem TablesStream.IsDecoded.isSome_rows? {s : TablesStream} (h : s.IsDecoded) (t : TableId) :
    (s.rows? t).isSome = s.header.valid.contains t := by
  rw [rows?, Option.isSome_map]
  cases hvalid : s.header.valid.contains t with
  | true =>
    obtain ⟨c, hc, -⟩ := h.tiled.exists_of_mem (List.mem_filter.mpr ⟨t.mem_all, hvalid⟩)
    rw [hc]
    rfl
  | false =>
    have habsent : t ∉ s.header.valid.tables := fun hmem => by
      rw [(List.mem_filter.mp hmem).2] at hvalid
      exact Bool.noConfusion hvalid
    rw [h.absent t habsent]
    rfl

/-! ### The bytes that are built -/

namespace StreamBuilder

variable {b : StreamBuilder} {t : TableId}

/-- The rows of all tables can be counted, and have as many values as their tables have columns. -/
structure IsSized (b : StreamBuilder) : Prop where
  size_lt : ∀ t, (b.rows.get t).size < 2 ^ 32
  length_eq : ∀ t, ∀ values ∈ (b.rows.get t).toList, values.length = t.arity

/-- What the widths of the columns depend on. -/
def widths (b : StreamBuilder) : Widths := ⟨b.rowCounts, b.header.flags⟩

/-- Every value fits its column. -/
def Fits (b : StreamBuilder) : Prop :=
  ∀ t, ∀ values ∈ (b.rows.get t).toList,
    List.Forall₂ Column.Fits (Layout.resolve b.widths t).columns values

/-- The bytes of the rows of a table. -/
def tableBytes (b : StreamBuilder) (t : TableId) : List UInt8 :=
  t.bytes b.widths (b.rows.get t).toList

/-- The bytes of a stream, as far as the values fit. -/
def bytes (b : StreamBuilder) : List UInt8 := b.header.bytes ++ TableId.all.flatMap b.tableBytes

theorem toNat_rowCount (h : b.IsSized) (t : TableId) :
    (b.rowCount t).toNat = (b.rows.get t).size := by
  have hsize := h.size_lt t
  rw [rowCount, Nat.min_eq_left (by omega), UInt32.toNat_ofNat_of_lt' hsize]

theorem length_tableBytes (h : b.IsSized) (t : TableId) :
    (b.tableBytes t).length = (b.rowCount t).toNat * (Layout.resolve b.widths t).rowSize := by
  rw [tableBytes, TableId.length_bytes (h.length_eq t), toNat_rowCount h, Array.length_toList]

/-- The buffer has just the size of the bytes. -/
theorem foldr_size (h : b.IsSized) (tables : List TableId) :
    tables.foldr (fun t n => (b.rowCount t).toNat * (b.layouts.get t).rowSize + n) 0
      = (tables.flatMap b.tableBytes).length := by
  induction tables with
  | nil => rfl
  | cons t tables ih =>
    rw [List.foldr_cons, ih, List.flatMap_cons, List.length_append, length_tableBytes h, layouts,
      Layout.resolveAll, PerTable.get_ofFn]
    rfl

/-- The tables are written one behind the other if all values fit. -/
theorem writesIf_tables (h : b.IsSized) (tables : List TableId) {w : Writer} {P : Prop}
    {out rest : List UInt8} (hw : w.WritesIf P out (tables.flatMap b.tableBytes ++ rest)) :
    (tables.foldl (fun w t => (b.tableRows t).foldl
        (fun w row => row.writeMatching (b.layouts.get t) w) w) w).WritesIf
      (P ∧ ∀ t ∈ tables, ∀ values ∈ (b.rows.get t).toList,
        List.Forall₂ Column.Fits (Layout.resolve b.widths t).columns values)
      (out ++ tables.flatMap b.tableBytes) rest := by
  induction tables generalizing w P out with
  | nil => simpa using hw
  | cons t tables ih =>
    have hlayout : b.layouts.get t = Layout.resolve b.widths t := PerTable.get_ofFn _ t
    rw [List.flatMap_cons, List.append_assoc] at hw
    have hrows := Row.writesIf_foldl (fun i => UInt32.ofNat (i + 1)) (h.length_eq t) hw
    rw [List.foldl_cons, hlayout, List.flatMap_cons, ← List.append_assoc]
    refine (ih hrows).congr ?_
    rw [List.forall_mem_cons, and_assoc]

/-- A builder fills its buffer if all values fit. -/
theorem writesIf_build (h : b.IsSized) :
    (TableId.all.foldl (fun w t => (b.tableRows t).foldl
        (fun w row => row.writeMatching (b.layouts.get t) w) w)
      (b.header.write (.start (.zeros (b.header.size + TableId.all.foldr
        (fun t n => (b.rowCount t).toNat * (b.layouts.get t).rowSize + n) 0)) 0))).WritesIf
      b.Fits b.bytes [] := by
  have hsize : b.header.size + TableId.all.foldr
      (fun t n => (b.rowCount t).toNat * (b.layouts.get t).rowSize + n) 0 = b.bytes.length := by
    rw [foldr_size h, bytes, List.length_append, StreamHeader.length_bytes]
  have hheader := StreamHeader.writes_write (Writer.Writes.start b.bytes)
  rw [List.nil_append, ← List.append_nil (TableId.all.flatMap b.tableBytes)] at hheader
  rw [hsize]
  refine (writesIf_tables h TableId.all (P := True) ⟨fun _ => hheader, fun hP => ?_⟩).congr ?_
  · exact absurd trivial hP
  · rw [true_and]
    exact ⟨fun hall t => hall t t.mem_all, fun hfits t _ => hfits t⟩

/-- **Building succeeds if every value fits its column**, and gives the bytes of the stream. -/
theorem build_of_fits (h : b.IsSized) (hfits : b.Fits) : b.build = .ok b.bytes.toArray := by
  have hw := (writesIf_build h).writes hfits
  have hdata := hw.data_eq
  have herror := hw.error?
  rw [build, Writer.result, herror, hdata]

/-- **Building fails if a value does not fit its column**: the stream is malformed. -/
theorem build_of_not_fits (h : b.IsSized) (hfits : ¬b.Fits) :
    ∃ e, b.build = .error (.malformed e) := by
  obtain ⟨e, he⟩ := (writesIf_build h).malformed hfits
  refine ⟨e, ?_⟩
  rw [build, Writer.result, he]

/-! ### Decoding what is built -/

theorem rowCount_header (b : StreamBuilder) (t : TableId) : b.header.rowCount t = b.rowCount t :=
  (StreamHeader.rowCount_ofCounts _ _ _ _ _ _ t).trans (PerTable.get_ofFn _ t)

/-- The decoder works out the same widths. -/
theorem widths_header (b : StreamBuilder) : b.header.widths = b.widths := by
  have hrows : b.header.rowCounts = b.rowCounts := by
    apply PerTable.ext
    intro t
    rw [StreamHeader.rowCounts, rowCounts, PerTable.get_ofFn, PerTable.get_ofFn, rowCount_header]
  rw [StreamHeader.widths, widths, hrows]

theorem contains_valid_header (b : StreamBuilder) (t : TableId) :
    b.header.valid.contains t = (b.rowCount t != 0) := by
  rw [header, StreamHeader.contains_valid_ofCounts, rowCounts, PerTable.get_ofFn]

/-- A table without rows has no bytes, whether it counts as present or not. -/
theorem flatMap_tables (h : b.IsSized) :
    b.header.valid.tables.flatMap b.tableBytes = TableId.all.flatMap b.tableBytes := by
  rw [TableMask.tables]
  induction TableId.all with
  | nil => rfl
  | cons t tables ih =>
    rw [List.filter_cons]
    split
    · rw [List.flatMap_cons, List.flatMap_cons, ih]
    · next hvalid =>
      have hcount : b.rowCount t = 0 := by
        rw [contains_valid_header, Bool.not_eq_true] at hvalid
        exact bne_eq_false_iff_eq.mp hvalid
      have hlen : (b.tableBytes t).length = 0 := by
        rw [length_tableBytes h, hcount, UInt32.toNat_zero, Nat.zero_mul]
      rw [List.flatMap_cons, List.length_eq_zero_iff.mp hlen, ih, List.nil_append]

/-- **What is built can be decoded.**  The header is the one that was built, the tables fill the
stream, and each holds the bytes of its rows. -/
theorem decode_bytes (h : b.IsSized) :
    ∃ s, TablesStream.decode .lenient b.bytes.toArray = .ok s ∧ s.header = b.header ∧
      s.tablesEnd = b.bytes.length ∧
      ∀ t, b.rowCount t ≠ 0 → ∃ c, s.tables.get t = some c ∧
        c.rows.data = (b.tableBytes t).toArray := by
  have hheader : StreamHeader.read b.bytes.toArray = .ok b.header :=
    StreamHeader.read_bytes (StreamHeader.isBuilt_ofCounts _ _ _ _ _ _) _
  obtain ⟨found, hcarve, hfound⟩ := TablesStream.carve_bytes b.header
    (TableMask.nodup_tables b.header.valid)
    (fun t _ => by rw [length_tableBytes h, rowCount_header, widths_header])
    b.header.bytes [] (PerTable.replicate none)
  rw [flatMap_tables h, List.append_nil, StreamHeader.length_bytes] at hcarve
  have hend : b.header.size + (TableId.all.flatMap b.tableBytes).length = b.bytes.length := by
    rw [bytes, List.length_append, StreamHeader.length_bytes]
  rw [hend] at hcarve
  refine ⟨⟨b.bytes.toArray, b.header, b.header.widths, Layout.resolveAll b.header.widths, found,
    b.bytes.length⟩, ?_, rfl, rfl, fun t ht => hfound t ?_⟩
  · rw [TablesStream.decode, hheader]
    change (TablesStream.carve b.bytes.toArray b.header _ _ _ _ >>= _) = _
    rw [bytes, hcarve]
    rfl
  · refine List.mem_filter.mpr ⟨t.mem_all, ?_⟩
    rw [contains_valid_header]
    exact bne_iff_ne.mpr ht

/-- **Each row of a builder is found** by its number in a stream with the bytes of its tables. -/
theorem exists_row {s : TablesStream} {values : List UInt32} {i : Nat} (h : b.IsSized)
    (hfits : b.Fits) (hdecoded : s.IsDecoded) (hheader : s.header = b.header)
    (htables : ∀ t, b.rowCount t ≠ 0 → ∃ c, s.tables.get t = some c ∧
      c.rows.data = (b.tableBytes t).toArray)
    (hi : (b.rows.get t).toList[i]? = some values) :
    ∃ row, s.row t (UInt32.ofNat (i + 1)) = .ok row ∧ row.table = t ∧
      row.rid = UInt32.ofNat (i + 1) ∧ row.columns = values := by
  obtain ⟨hlt, -⟩ := List.getElem?_eq_some_iff.mp hi
  have hcount : (b.rowCount t).toNat = (b.rows.get t).toList.length := by
    rw [toNat_rowCount h, Array.length_toList]
  have hne : b.rowCount t ≠ 0 := by
    rw [ne_eq, ← UInt32.toNat_inj, hcount]
    exact Nat.ne_of_gt (Nat.zero_lt_of_lt hlt)
  obtain ⟨c, hc, hbytes⟩ := htables t hne
  have hholds := hdecoded.holds hc
  have hlayout := hholds.resolved
  rw [Rows.IsResolved, hholds.table, hheader, widths_header] at hlayout
  have hrows : c.rows.count.toNat = (b.rows.get t).toList.length := by
    rw [hholds.count, hheader, rowCount_header, hcount]
  have hrow := Rows.row_of_bytes hholds.table hlayout hbytes hrows (h.length_eq t) (hfits t) hi
  rwa [TablesStream.row, TablesStream.rows?, hc]

/-! ### What a builder is told -/

/-- What a builder can be told. -/
inductive Call where
  /-- Set the version. -/
  | version (major minor : UInt8)
  /-- Set the flags. -/
  | flags (flags : StreamFlags)
  /-- Set the mask of the sorted tables. -/
  | sorted (sorted : TableMask)
  /-- Add the extra word. -/
  | extraData (word : UInt32)
  /-- Add a row to a table. -/
  | push (t : TableId) (values : List UInt32) (h : values.length = t.arity)

/-- What a call does, and the token that it gives. -/
def Call.apply (b : StreamBuilder) : Call → Option Token × StreamBuilder
  | .version major minor => (none, b.setVersion major minor)
  | .flags bits => (none, b.setFlags bits)
  | .sorted mask => (none, b.setSorted mask)
  | .extraData word => (none, b.setExtraData word)
  | .push t values _ =>
    let (token, b) := b.push t values
    (some token, b)

/-- The row that a call adds to a table. -/
def Call.rowOf? (t : TableId) : Call → Option (List UInt32)
  | .push u values _ => if u = t then some values else none
  | _ => none

/-- The version that a call sets. -/
def Call.version? : Call → Option (UInt8 × UInt8)
  | .version major minor => some (major, minor)
  | _ => none

/-- The flags that a call sets. -/
def Call.flags? : Call → Option StreamFlags
  | .flags bits => some bits
  | _ => none

/-- The mask of the sorted tables that a call sets. -/
def Call.sorted? : Call → Option TableMask
  | .sorted mask => some mask
  | _ => none

/-- The extra word that a call adds. -/
def Call.extraData? : Call → Option UInt32
  | .extraData word => some word
  | _ => none

/-- What the last of the calls that set something has set. -/
def lastSet? {α : Type} (set? : Call → Option α) (calls : List Call) : Option α :=
  (calls.filterMap set?).getLast?

/-- The builder after some calls. -/
def run (calls : List Call) (b : StreamBuilder) : StreamBuilder :=
  calls.foldl (fun b call => (call.apply b).2) b

/-- The rows that are pushed into a table, in order. -/
def pushed (t : TableId) (calls : List Call) : List (List UInt32) := calls.filterMap (Call.rowOf? t)

/-- A call adds its row to its table. -/
theorem rows_apply (b : StreamBuilder) (call : Call) (t : TableId) :
    ((call.apply b).2.rows.get t).toList = (b.rows.get t).toList ++ (call.rowOf? t).toList := by
  cases call with
  | push u values h =>
    change ((b.rows.modify u (·.push values)).get t).toList = _
    rw [PerTable.get_modify, Call.rowOf?]
    split
    · rw [Array.toList_push]
      rfl
    · exact (List.append_nil _).symm
  | _ => exact (List.append_nil _).symm

/-- The rows of a table are those that have been pushed into it. -/
theorem rows_run (calls : List Call) (b : StreamBuilder) (t : TableId) :
    ((run calls b).rows.get t).toList = (b.rows.get t).toList ++ pushed t calls := by
  induction calls generalizing b with
  | nil => exact (List.append_nil _).symm
  | cons call calls ih =>
    have hrun : run (call :: calls) b = run calls (call.apply b).2 := rfl
    have hpushed : pushed t (call :: calls) = (call.rowOf? t).toList ++ pushed t calls := by
      rw [pushed, List.filterMap_cons]
      cases call.rowOf? t <;> rfl
    rw [hrun, ih, rows_apply, hpushed, List.append_assoc]

/-- A call sets what a builder holds, or leaves it as it is. -/
structure Sets {α : Type} (held : StreamBuilder → α) (set? : Call → Option α) : Prop where
  apply : ∀ (call : Call) (b : StreamBuilder), held (call.apply b).2 = (set? call).getD (held b)

theorem sets_version : Sets (fun b => (b.major, b.minor)) Call.version? :=
  ⟨fun call b => by cases call <;> rfl⟩

theorem sets_flags : Sets flags Call.flags? := ⟨fun call b => by cases call <;> rfl⟩

theorem sets_sorted : Sets sorted Call.sorted? := ⟨fun call b => by cases call <;> rfl⟩

theorem sets_extraData : Sets extra? fun call => call.extraData?.map some :=
  ⟨fun call b => by cases call <;> rfl⟩

/-- Of the calls that set something, the last one counts. -/
theorem lastSet?_cons {α : Type} (set? : Call → Option α) (call : Call) (calls : List Call) :
    lastSet? set? (call :: calls) = (lastSet? set? calls).or (set? call) := by
  rw [lastSet?, List.filterMap_cons, lastSet?]
  cases set? call with
  | none => exact (Option.or_none ..).symm
  | some a =>
    rw [List.getLast?_cons]
    cases (calls.filterMap set?).getLast? <;> rfl

/-- **A builder holds what was set last**, or what it held at first. -/
theorem Sets.run {α : Type} {held : StreamBuilder → α} {set? : Call → Option α}
    (h : Sets held set?) (calls : List Call) (b : StreamBuilder) :
    held (run calls b) = (lastSet? set? calls).getD (held b) := by
  induction calls generalizing b with
  | nil => rfl
  | cons call calls ih =>
    have hrun : StreamBuilder.run (call :: calls) b = .run calls (call.apply b).2 := rfl
    rw [hrun, ih, h.apply, lastSet?_cons]
    cases lastSet? set? calls <;> rfl

/-- There is an extra word if one was added, and it is the last one. -/
theorem extra?_run_empty (calls : List Call) :
    (run calls empty).extra? = lastSet? Call.extraData? calls := by
  rw [sets_extraData.run, lastSet?, ← List.map_filterMap, List.getLast?_map, lastSet?]
  cases (calls.filterMap Call.extraData?).getLast? <;> rfl

theorem rows_run_empty (calls : List Call) (t : TableId) :
    ((run calls empty).rows.get t).toList = pushed t calls := by
  rw [rows_run, empty, PerTable.get_replicate]
  rfl

theorem length_eq_of_mem_pushed {calls : List Call} {t : TableId} {values : List UInt32}
    (h : values ∈ pushed t calls) : values.length = t.arity := by
  obtain ⟨call, -, hcall⟩ := List.mem_filterMap.mp h
  cases call with
  | push u vs hvs =>
    rw [Call.rowOf?] at hcall
    split at hcall
    · next hu =>
      obtain rfl := Option.some.inj hcall
      rw [← hu, hvs]
    · exact absurd hcall (by simp)
  | _ => exact absurd hcall (by simp [Call.rowOf?])

/-- The rows in front of one that is pushed, that row, and those behind it. -/
theorem pushed_append_push (t : TableId) (before after : List Call) {values : List UInt32}
    (h : values.length = t.arity) :
    pushed t (before ++ .push t values h :: after) =
      pushed t before ++ values :: pushed t after := by
  rw [pushed, List.filterMap_append, List.filterMap_cons]
  simp only [Call.rowOf?, if_true]
  rfl

/-- The token of a row that is pushed has the number of the row. -/
theorem token_push {before : List Call} {t : TableId} {values : List UInt32}
    (h : values.length = t.arity) (hle : (pushed t before).length < 0xFFFFFF) :
    ((Call.push t values h).apply (run before empty)).1 =
      some (Token.ofRow t (UInt32.ofNat ((pushed t before).length + 1))) := by
  have hrows := congrArg List.length (rows_apply (run before empty) (.push t values h) t)
  rw [List.length_append, rows_run_empty, Array.length_toList] at hrows
  have hone : ((Call.push t values h).rowOf? t).toList.length = 1 := by simp [Call.rowOf?]
  rw [hone] at hrows
  have hcount : ((Call.push t values h).apply (run before empty)).2.rowCount t
      = UInt32.ofNat ((pushed t before).length + 1) := by
    rw [rowCount, hrows, Nat.min_eq_left (by omega)]
  rw [← hcount]
  rfl

theorem isSized_run {calls : List Call} (h : ∀ t, (pushed t calls).length ≤ 0xFFFFFF) :
    (run calls empty).IsSized where
  size_lt t := by
    rw [← Array.length_toList, rows_run_empty]
    exact Nat.lt_of_le_of_lt (h t) (by decide)
  length_eq t values hvalues := by
    rw [rows_run_empty] at hvalues
    exact length_eq_of_mem_pushed hvalues

/-! ### What fits -/

/-- The widths that follow from some calls: from how many rows are pushed into each table, and from
the flags that are set last. -/
def finalWidths (calls : List Call) : Widths where
  rows := PerTable.ofFn fun t => UInt32.ofNat (pushed t calls).length
  flags := (lastSet? Call.flags? calls).getD ⟨0⟩

/-- Every value that is pushed fits its column. -/
def PushedFit (calls : List Call) : Prop :=
  ∀ t, ∀ values ∈ pushed t calls,
    List.Forall₂ Column.Fits (Layout.resolve (finalWidths calls) t).columns values

/-- No width depends on the flag for the extra word. -/
theorem width_withExtraData (rows : PerTable UInt32) (flags : StreamFlags) (present : Bool)
    (kind : ColumnKind) : kind.width ⟨rows, flags.withExtraData present⟩ =
      kind.width ⟨rows, flags⟩ := by
  have hbits : ∀ bits : UInt8, (bits ||| 0x40) &&& 0x07 = bits &&& 0x07 ∧
      (bits &&& 0xBF) &&& 0x07 = bits &&& 0x07 := by
    decide +kernel
  have hlow : (flags.withExtraData present).bits &&& 0x07 = flags.bits &&& 0x07 := by
    cases present with
    | true => exact (hbits flags.bits).1
    | false => exact (hbits flags.bits).2
  -- each of the three heaps has one of the low bits
  have hbit : ∀ mask : UInt8, 0x07 &&& mask = mask →
      (flags.withExtraData present).bits &&& mask = flags.bits &&& mask := fun mask hmask => by
    rw [← hmask, ← UInt8.and_assoc, hlow, UInt8.and_assoc]
  cases kind with
  | heap heap =>
    cases heap with
    | string => exact congrArg (fun b => Widths.bytes (b != 0)) (hbit 0x01 rfl)
    | guid => exact congrArg (fun b => Widths.bytes (b != 0)) (hbit 0x02 rfl)
    | blob => exact congrArg (fun b => Widths.bytes (b != 0)) (hbit 0x04 rfl)
  | fixed _ | table _ | coded _ => rfl

theorem resolve_widths_run {calls : List Call} (h : ∀ t, (pushed t calls).length ≤ 0xFFFFFF)
    (t : TableId) :
    Layout.resolve (run calls empty).widths t = Layout.resolve (finalWidths calls) t := by
  have hrows : (run calls empty).rowCounts = (finalWidths calls).rows := by
    apply PerTable.ext
    intro u
    have hle : (pushed u calls).length ≤ 0xFFFFFFFF := Nat.le_trans (h u) (by decide)
    rw [rowCounts, finalWidths, PerTable.get_ofFn, PerTable.get_ofFn, rowCount,
      ← Array.length_toList, rows_run_empty, Nat.min_eq_left hle]
  have hflags : (run calls empty).flags = (finalWidths calls).flags := sets_flags.run calls empty
  rw [Layout.resolve, Layout.resolve, widths, hrows]
  refine congrArg _ (List.map_congr_left fun column _ => ?_)
  exact congrArg _ ((width_withExtraData _ _ _ _).trans (by rw [hflags]))

/-- What fits is told by the calls. -/
theorem fits_run_iff {calls : List Call} (h : ∀ t, (pushed t calls).length ≤ 0xFFFFFF) :
    (run calls empty).Fits ↔ PushedFit calls := by
  simp only [Fits, PushedFit, rows_run_empty, resolve_widths_run h]

/-- The stream is what a builder was told by some calls. -/
structure Recovers (calls : List Call) (s : TablesStream) : Prop where
  /-- The version is the one that was set last, and 2.0 if none was. -/
  version : (s.header.major, s.header.minor) = (lastSet? Call.version? calls).getD (2, 0)
  /-- So is the mask of the sorted tables, of which there are none at first. -/
  sorted : s.header.sorted = (lastSet? Call.sorted? calls).getD ⟨0⟩
  /-- So is the extra word. -/
  extra? : s.header.extra? = lastSet? Call.extraData? calls
  /-- The flag for the extra word is set if one was added. -/
  extraData : s.header.flags.extraData = (lastSet? Call.extraData? calls).isSome
  /-- The other flags are those that were set last, and there are none at first. -/
  flags : s.header.flags.bits &&& 0xBF =
    ((lastSet? Call.flags? calls).getD ⟨0⟩).bits &&& 0xBF
  /-- A table has as many rows as were pushed into it. -/
  rowCount : ∀ t, (s.rowCount t).toNat = (pushed t calls).length
  /-- It is present if it has any. -/
  valid : ∀ t, s.header.valid.contains t = true ↔ pushed t calls ≠ []
  isSome_rows? : ∀ t, (s.rows? t).isSome = true ↔ pushed t calls ≠ []
  /-- Each row is found by the number in its token, with the values that were pushed. -/
  row : ∀ (before after : List Call) (t : TableId) (values : List UInt32)
    (h : values.length = t.arity), calls = before ++ .push t values h :: after →
    ∃ row, s.row t (UInt32.ofNat ((pushed t before).length + 1)) = .ok row ∧
      row.columns = values ∧
      ((Call.push t values h).apply (run before empty)).1 = some row.token
  /-- There is nothing behind the tables. -/
  trailing : s.trailing = #[]

/-- **Decoding undoes building.**  Whatever a builder is told, in any order, as long as all rows
have names: it builds a stream if every value fits its column, and else the stream is malformed.
What is built can be decoded, and then it is what the builder was told. -/
theorem recovers_of_build {calls : List Call} (h : ∀ t, (pushed t calls).length ≤ 0xFFFFFF) :
    (PushedFit calls → ∃ data s, (run calls empty).build = .ok data ∧
      TablesStream.decode .lenient data = .ok s ∧ Recovers calls s) ∧
    (¬PushedFit calls → ∃ e, (run calls empty).build = .error (.malformed e)) := by
  have hsized := isSized_run h
  rw [← fits_run_iff h]
  refine ⟨fun hfits => ?_, build_of_not_fits hsized⟩
  obtain ⟨s, hdecode, hheader, hend, htables⟩ := decode_bytes hsized
  refine ⟨_, s, build_of_fits hsized hfits, hdecode, ?_⟩
  obtain ⟨hdata, hdecoded⟩ := TablesStream.isDecoded_of_decode hdecode
  have hsize : ∀ t, ((run calls empty).rowCount t).toNat = (pushed t calls).length := fun t => by
    rw [toNat_rowCount hsized, ← Array.length_toList, rows_run_empty]
  have hcount : ∀ t, s.rowCount t = (run calls empty).rowCount t := fun t => by
    rw [TablesStream.rowCount, hheader, rowCount_header]
  have hne : ∀ t, (run calls empty).rowCount t ≠ 0 ↔ pushed t calls ≠ [] := fun t => by
    rw [ne_eq, ← UInt32.toNat_inj, hsize, UInt32.toNat_zero, List.length_eq_zero_iff]
  have hvalid : ∀ t, s.header.valid.contains t = true ↔ pushed t calls ≠ [] := fun t => by
    rw [hheader, contains_valid_header, bne_iff_ne, hne]
  constructor
  case version =>
    rw [hheader]
    exact sets_version.run calls empty
  case sorted =>
    rw [hheader]
    exact sets_sorted.run calls empty
  case extra? =>
    rw [hheader]
    exact extra?_run_empty calls
  case extraData =>
    rw [hheader, ← extra?_run_empty]
    exact StreamHeader.extraData_withExtraData _ _
  case flags =>
    have hflags : (run calls empty).flags = _ := sets_flags.run calls empty
    rw [hheader]
    exact hflags ▸ StreamHeader.withExtraData_and _ _
  case rowCount => exact fun t => by rw [hcount, hsize]
  case valid => exact hvalid
  case isSome_rows? => exact fun t => by rw [hdecoded.isSome_rows?, hvalid]
  case row =>
    rintro before after t values hvalues rfl
    have hpushed := pushed_append_push t before after hvalues
    have hget : (pushed t (before ++ .push t values hvalues :: after))[(pushed t before).length]?
        = some values := by
      rw [hpushed, List.getElem?_append_right (Nat.le_refl _), Nat.sub_self,
        List.getElem?_cons_zero]
    rw [← rows_run_empty] at hget
    obtain ⟨row, hrow, htable, hrid, hcolumns⟩ :=
      exists_row hsized hfits hdecoded hheader htables hget
    refine ⟨row, hrow, hcolumns, ?_⟩
    rw [token_push, Row.token, htable, hrid]
    have hle := h t
    rw [hpushed, List.length_append, List.length_cons] at hle
    omega
  case trailing =>
    rw [TablesStream.trailing, hend, hdata]
    simp

/-- Rows of two tables in turns, large indexes into one heap, and the extra word.  The version and
the flags are set twice. -/
def sample : List Call :=
  [.push .field [6, 1, 1] rfl, .version 3 7, .extraData 0xDEADBEEF, .flags ⟨3⟩,
    .push .typeDef [1, 2, 0, 0, 1, 1] rfl, .version 1 1, .flags ⟨4⟩,
    .push .field [22, 3, 0x10001] rfl, .sorted ⟨8⟩]

theorem recovers_sample :
    (∀ t, (pushed t sample).length ≤ 0xFFFFFF) ∧
      ∃ data s, (run sample empty).build = .ok data ∧
        TablesStream.decode .lenient data = .ok s ∧ Recovers sample s ∧
        (s.header.major, s.header.minor) = (1, 1) ∧ s.header.flags.bits &&& 0xBF = 4 ∧
        s.header.sorted = ⟨8⟩ ∧ s.header.extra? = some 0xDEADBEEF := by
  have hcount : ∀ t, (pushed t sample).length ≤ 0xFFFFFF :=
    fun t => (List.length_filterMap_le _ _).trans (by decide)
  obtain ⟨hok, herror⟩ := recovers_of_build hcount
  have hbuild : (run sample empty).build.isOk = true := by decide +kernel
  have hfits : PushedFit sample := by
    by_contra hfits
    obtain ⟨e, he⟩ := herror hfits
    rw [he] at hbuild
    exact Bool.noConfusion hbuild
  obtain ⟨data, s, hdata, hdecode, hrecovers⟩ := hok hfits
  exact ⟨hcount, data, s, hdata, hdecode, hrecovers, hrecovers.version, hrecovers.flags,
    hrecovers.sorted, hrecovers.extra?⟩

end StreamBuilder

end ManagedImage
