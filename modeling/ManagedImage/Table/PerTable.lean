import ManagedImage.Table.Id

/-!
# One value per table

Row counts, layouts and row ranges are given for every defined table at once.

## Main definitions

* `PerTable α` — one `α` for each table.
* `PerTable.ofFn`, `PerTable.get`, `PerTable.set` — build, look up, replace.
-/

namespace ManagedImage

/-- One value for each defined table, kept in the order of the table numbers. -/
structure PerTable (α : Type _) where
  /-- The values, each at the number of its table. -/
  cells : Vector α TableId.count
  deriving Repr, DecidableEq

namespace PerTable

variable {α β : Type _}

/-- The value of table `t`. -/
def get (p : PerTable α) (t : TableId) : α :=
  have := t.index_lt
  p.cells[t.index]

/-- Gives table `t` the value `a`. -/
def set (p : PerTable α) (t : TableId) (a : α) : PerTable α :=
  ⟨p.cells.set t.index a t.index_lt⟩

/-- Replaces the value of table `t` by its image under `f`. -/
def modify (p : PerTable α) (t : TableId) (f : α → α) : PerTable α :=
  ⟨⟨p.cells.toArray.modify t.index f, by simp⟩⟩

/-- The values of `f`, computed once. -/
def ofFn (f : TableId → α) : PerTable α :=
  ⟨Vector.ofFn fun i => f (TableId.all.get i)⟩

/-- The same value for every table. -/
def replicate (a : α) : PerTable α := ⟨Vector.replicate _ a⟩

instance [Inhabited α] : Inhabited (PerTable α) := ⟨replicate default⟩

/-- The values of a list by table number; tables past its end get `fill`. -/
def ofList (fill : α) (values : List α) : PerTable α :=
  ofFn fun t => values.getD t.index fill

/-- Applies `f` to every value. -/
def map (f : α → β) (p : PerTable α) : PerTable β := ofFn fun t => f (p.get t)

@[simp] theorem get_ofFn (f : TableId → α) (t : TableId) : (ofFn f).get t = f t := by
  simp only [get, ofFn, Vector.getElem_ofFn]
  exact congrArg f t.get_all_index

@[simp] theorem get_replicate (a : α) (t : TableId) : (replicate a).get t = a := by
  simp [get, replicate]

@[simp] theorem get_map (f : α → β) (p : PerTable α) (t : TableId) :
    (p.map f).get t = f (p.get t) := by
  simp [map]

@[simp] theorem get_set_self (p : PerTable α) (t : TableId) (a : α) : (p.set t a).get t = a := by
  simp [get, set]

theorem get_set_of_ne (p : PerTable α) {t u : TableId} (h : t ≠ u) (a : α) :
    (p.set t a).get u = p.get u := by
  have hne : t.index ≠ u.index := fun hi => h (TableId.index_injective hi)
  simp [get, set, hne]

theorem get_modify (p : PerTable α) (t u : TableId) (f : α → α) :
    (p.modify t f).get u = if t = u then f (p.get u) else p.get u := by
  have hu := u.index_lt
  have hiff : t.index = u.index ↔ t = u :=
    ⟨TableId.index_injective, fun h => h ▸ rfl⟩
  simp [get, modify, Array.getElem_modify, hiff]

/-- Two families with the same value at every table are equal. -/
@[ext] theorem ext {p q : PerTable α} (h : ∀ t, p.get t = q.get t) : p = q := by
  obtain ⟨p⟩ := p
  obtain ⟨q⟩ := q
  congr 1
  apply Vector.ext
  intro i hi
  have hidx : (TableId.all.get ⟨i, hi⟩).index = i := TableId.index_get_all ⟨i, hi⟩
  simpa [get, -List.get_eq_getElem, hidx] using h (TableId.all.get ⟨i, hi⟩)

end PerTable

end ManagedImage
