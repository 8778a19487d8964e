import ManagedImage.Proofs.Stream.Header
import ManagedImage.Proofs.Table.Copying
import ManagedImage.Stream.Tables

/-!
# Carved tables

The tables that are carved out of a stream lie one behind the other, and each of them holds all
bytes of its rows.

## Main definitions

* `CarvedTable.Holds` — a carved table holds the rows of a table.
* `TablesStream.Tiled` — carved tables lie one behind the other.

## Main results

* `TablesStream.tiled_of_carve` — so they do after carving.
* `TablesStream.Tiled.copies` — their rows are copied.
-/

namespace ManagedImage

/-- What copies one row after the other copies all of them. -/
theorem Writer.Copies.foldl_range {data : Bytes} {start size n : Nat} {w : Writer}
    {step : Writer → Nat → Writer} (hw : w.Copies data start)
    (hstep : ∀ i < n, ∀ w : Writer, w.Copies data (start + i * size) →
      (step w i).Copies data (start + (i + 1) * size)) :
    ((List.range n).foldl step w).Copies data (start + n * size) := by
  induction n with
  | zero => simpa using hw
  | succ n ih =>
    rw [List.range_succ, List.foldl_append, List.foldl_cons, List.foldl_nil]
    exact hstep n n.lt_succ_self _ (ih fun i hi => hstep i (Nat.lt_succ_of_lt hi))

/-- A table carved out of a stream holds the rows of table `t` and lies in the stream. -/
structure CarvedTable.Holds (c : CarvedTable) (data : Bytes) (header : StreamHeader) (t : TableId) :
    Prop where
  /-- The rows are read as rows of the table. -/
  table : c.rows.table = t
  /-- They are laid out as the header says. -/
  resolved : c.rows.IsResolved header.widths
  /-- They are as many as the header says. -/
  count : c.rows.count = header.rowCount t
  /-- Their bytes are those of the stream. -/
  bytes : c.rows.data = data.extract c.start c.stop
  /-- The rows take all the bytes. -/
  stop : c.stop = c.start + c.rows.count.toNat * c.rows.layout.rowSize
  /-- The bytes are there. -/
  stop_le : c.stop ≤ data.size

namespace CarvedTable.Holds

variable {c : CarvedTable} {data : Bytes} {header : StreamHeader} {t : TableId}

theorem start_le (h : c.Holds data header t) : c.start ≤ c.stop :=
  h.stop ▸ Nat.le_add_right _ _

/-- The rows of a carved table are copied. -/
theorem copies (h : c.Holds data header t) {w : Writer} (hw : w.Copies data c.start) :
    (TablesStream.writeRows c.rows w).Copies data c.stop := by
  rw [TablesStream.writeRows, Rows.rids, List.foldl_map, h.stop]
  refine hw.foldl_range fun i hi w hw => ?_
  obtain ⟨r, hrow, hcopies⟩ := hw.row h.resolved h.bytes h.start_le h.stop_le hi
  rw [hrow]
  exact hcopies

end CarvedTable.Holds

namespace TablesStream

/-- The tables lie one behind the other in the stream, from `start` to `stop`. -/
inductive Tiled (data : Bytes) (header : StreamHeader) (found : PerTable (Option CarvedTable)) :
    List TableId → (start stop : Nat) → Prop where
  /-- No table takes no bytes. -/
  | nil {n : Nat} (hn : n ≤ data.size) : Tiled data header found [] n n
  /-- A table, and the others behind it. -/
  | cons {t : TableId} {tables : List TableId} {c : CarvedTable} {stop : Nat}
    (hc : found.get t = some c) (hholds : c.Holds data header t)
    (htables : Tiled data header found tables c.stop stop) :
    Tiled data header found (t :: tables) c.start stop

variable {data : Bytes} {header : StreamHeader} {found found' : PerTable (Option CarvedTable)}
  {t : TableId} {tables : List TableId} {offset start stop : Nat} {widths : Widths}

/-! ### What tables that lie one behind the other have -/

namespace Tiled

theorem stop_le (h : Tiled data header found tables start stop) : stop ≤ data.size := by
  induction h with
  | nil hn => exact hn
  | cons _ _ _ ih => exact ih

/-- Each of the tables is there. -/
theorem exists_of_mem (h : Tiled data header found tables start stop) (ht : t ∈ tables) :
    ∃ c, found.get t = some c ∧ c.Holds data header t := by
  induction h with
  | nil => exact absurd ht List.not_mem_nil
  | cons hc hholds _ ih =>
    rcases List.mem_cons.mp ht with rfl | ht
    · exact ⟨_, hc, hholds⟩
    · exact ih ht

/-- The tables are copied. -/
theorem copies {s : TablesStream} (h : Tiled data header s.tables tables start stop) {w : Writer}
    (hw : w.Copies data start) : (tables.foldl s.writeTable w).Copies data stop := by
  induction h generalizing w with
  | nil => exact hw
  | cons hc hholds _ ih =>
    rw [List.foldl_cons, writeTable, rows?, hc]
    exact ih (hholds.copies hw)

end Tiled

/-! ### Carving -/

/-- Carving goes on behind the first table. -/
theorem carve_cons (h : carve data header (Layout.resolveAll header.widths) (t :: tables) offset
      found = .ok (found', stop)) :
    ∃ c : CarvedTable, c.start = offset ∧ c.Holds data header t ∧
      carve data header (Layout.resolveAll header.widths) tables c.stop (found.set t (some c)) =
        .ok (found', stop) := by
  rw [carve, Layout.resolveAll, PerTable.get_ofFn] at h
  split at h
  · next hle =>
    obtain ⟨rows, hrows, h⟩ := exists_of_bind_eq_ok h
    obtain ⟨rfl, hlayout, hcount, hdata⟩ := Rows.of_ofBytes hrows
    refine ⟨⟨offset, _, rows⟩, rfl, ⟨rfl, hlayout, hcount, ?_, ?_, hle⟩, h⟩
    · rw [hdata, Array.extract_extract, Nat.add_zero, Nat.min_self]
    · rw [hlayout, hcount]
  · exact absurd h (by simp)

/-- Carving leaves the other tables alone. -/
theorem get_carve (h : carve data header (Layout.resolveAll header.widths) tables offset found =
      .ok (found', stop)) (ht : t ∉ tables) : found'.get t = found.get t := by
  induction tables generalizing offset found with
  | nil =>
    obtain ⟨rfl, -⟩ : found = found' ∧ offset = stop := by simpa [carve] using h
    rfl
  | cons u tables ih =>
    obtain ⟨c, -, -, h⟩ := carve_cons h
    rw [List.mem_cons, not_or] at ht
    rw [ih h ht.2, PerTable.get_set_of_ne _ (Ne.symm ht.1)]

/-- **Carved tables lie one behind the other.** -/
theorem tiled_of_carve (h : carve data header (Layout.resolveAll header.widths) tables offset
      found = .ok (found', stop)) (hnodup : tables.Nodup) (hoffset : offset ≤ data.size) :
    Tiled data header found' tables offset stop := by
  induction tables generalizing offset found with
  | nil =>
    obtain ⟨-, rfl⟩ : found = found' ∧ offset = stop := by simpa [carve] using h
    exact .nil hoffset
  | cons t tables ih =>
    obtain ⟨c, rfl, hholds, h⟩ := carve_cons h
    obtain ⟨ht, htables⟩ := List.nodup_cons.mp hnodup
    have hc : found'.get t = some c := (get_carve h ht).trans (PerTable.get_set_self _ _ _)
    exact .cons hc hholds (ih h htables hholds.stop_le)

end TablesStream

end ManagedImage
