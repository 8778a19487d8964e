import Mathlib.Data.List.Forall2
import ManagedImage.Graph.Attributes
import ManagedImage.Proofs.Stream.Decoding

/-!
# Finding members and owners

The members of a type are found in its run, and owners and enclosing types in an index of all runs
and records.  Both need rows, and nothing but a row can be missing: in a stream that comes from
decoding, where every row can be read, neither ever fails, and what is found is told by the tables.

## Main definitions

* `TablesStream.StandsFor` — the member that a position stands for.
* `TablesStream.members` — the members of a type.
* `MetadataImage.memberOwner?`, `MetadataImage.enclosingRid?`, `MetadataImage.nestingRids` — what
  the tables say about owners, enclosing types and records.
* `FailsOnRow` — a computation that can only fail because of a row.

## Main results

* `TablesStream.IsDecoded.exists_memberRids` — **the members of a type are those that the positions
  of its run stand for.**
* `MetadataImage.memberOwner_eq`, `MetadataImage.enclosingRid_eq`, `MetadataImage.nestingRecords_eq`
  — **the index tells what the tables say.**
* `Load.failsOnRow_enclosing` — what encloses a type cannot be loaded only where a row cannot be
  read.
-/

namespace ManagedImage

/-! ### One element after the other -/

/-- What is done with each element comes through as a whole if it does for each of them. -/
theorem mapM_eq_ok_iff {ε α β : Type} {f : α → Except ε β} {xs : List α} {ys : List β} :
    xs.mapM f = .ok ys ↔ List.Forall₂ (fun x y => f x = .ok y) xs ys := by
  induction xs generalizing ys with
  | nil =>
    rw [List.mapM_nil, List.forall₂_nil_left_iff]
    exact ⟨fun h => (Except.ok.inj h).symm, fun h => congrArg Except.ok h.symm⟩
  | cons x xs ih =>
    rw [List.mapM_cons, List.forall₂_cons_left_iff]
    constructor
    · intro h
      obtain ⟨y, hy, h⟩ := exists_of_bind_eq_ok h
      obtain ⟨ys, hys, h⟩ := exists_of_bind_eq_ok h
      exact ⟨y, ys, hy, ih.mp hys, (Except.ok.inj h).symm⟩
    · rintro ⟨y, ys, hy, hys, rfl⟩
      rw [hy, ih.mpr hys]
      rfl

theorem exists_of_mem_mapM {ε α β : Type} {f : α → Except ε β} {xs : List α} {ys : List β}
    (h : xs.mapM f = .ok ys) {y : β} (hy : y ∈ ys) : ∃ x ∈ xs, f x = .ok y := by
  rw [mapM_eq_ok_iff] at h
  induction h with
  | nil => exact absurd hy List.not_mem_nil
  | cons hx _ ih =>
    rcases List.mem_cons.mp hy with rfl | hy
    · exact ⟨_, List.mem_cons_self, hx⟩
    · obtain ⟨x, hmem, hx⟩ := ih hy
      exact ⟨x, List.mem_cons_of_mem _ hmem, hx⟩

theorem exists_mapM_eq_ok {ε α β γ : Type} {f : α → Except ε γ} {g : β → γ} {R : α → β → Prop}
    {xs : List α} (h : ∀ x ∈ xs, ∃ y, f x = .ok (g y) ∧ R x y) :
    ∃ ys, xs.mapM f = .ok (ys.map g) ∧ List.Forall₂ R xs ys := by
  induction xs with
  | nil => exact ⟨[], rfl, .nil⟩
  | cons x xs ih =>
    obtain ⟨y, hy, hR⟩ := h x List.mem_cons_self
    obtain ⟨ys, hys, hRs⟩ := ih fun x' hx' => h x' (List.mem_cons_of_mem x hx')
    exact ⟨y :: ys, mapM_eq_ok_iff.mpr (.cons hy (mapM_eq_ok_iff.mp hys)), .cons hR hRs⟩

theorem mapM_eq_ok {ε α β : Type} {f : α → Except ε β} {g : α → β} {xs : List α}
    (h : ∀ x ∈ xs, f x = .ok (g x)) : xs.mapM f = .ok (xs.map g) := by
  rw [mapM_eq_ok_iff, List.forall₂_map_right_iff, List.forall₂_same]
  exact h

/-! ### Members -/

theorem mem_range'_sub_iff {i start stop : Nat} :
    i ∈ List.range' start (stop - start) ↔ start ≤ i ∧ i < stop := by
  rw [List.mem_range'_1]
  omega

namespace TablesStream

variable {s : TablesStream} {l : MemberList} {t : TableId} {type : UInt32} {position : Nat}

/-- There is a row if it can be read. -/
theorem row?_eq_some_iff {rid : UInt32} {row : Row} :
    s.row? t rid = some row ↔ s.row t rid = .ok row := by
  rw [row?]
  cases s.row t rid <;> simp [Except.toOption]

/-- A number of a row, by itself. -/
theorem IsDecoded.exists_row? (h : s.IsDecoded) {i : Nat} (hpos : 1 ≤ i)
    (hle : i ≤ (s.rowCount t).toNat) : ∃ row, s.row? t (UInt32.ofNat i) = some row := by
  have hlt : i < 2 ^ 32 := Nat.lt_of_le_of_lt hle (s.rowCount t).toNat_lt
  have hi : (UInt32.ofNat i).toNat = i := UInt32.toNat_ofNat_of_lt' hlt
  have hne : UInt32.ofNat i ≠ 0 := by
    rw [ne_eq, ← UInt32.toNat_inj, hi]
    change i ≠ 0
    omega
  have hcount : UInt32.ofNat i ≤ s.rowCount t := by
    rw [UInt32.le_iff_toNat_le, hi]
    exact hle
  obtain ⟨row, hrow⟩ := h.exists_row hne hcount
  exact ⟨row, row?_eq_some_iff.mpr hrow⟩

/-- A run lies between the first position and the last one. -/
theorem bounds_of_mem_memberPositions (h : position ∈ s.memberPositions l type) :
    1 ≤ position ∧ position ≤ (s.positionCount l).toNat := by
  have hend : s.positionEnd l ≤ (s.positionCount l).toNat + 1 := by
    rw [positionEnd, UInt32.toNat_add]
    exact Nat.mod_le _ _
  unfold memberPositions at h
  split at h
  · exact absurd h List.not_mem_nil
  · obtain ⟨hstart, hstop⟩ := mem_range'_sub_iff.mp h
    refine ⟨Nat.le_trans (Nat.le_max_right _ _) hstart, Nat.le_of_lt_succ ?_⟩
    refine Nat.lt_of_lt_of_le hstop (Nat.le_trans ?_ hend)
    split
    · exact Nat.min_le_right _ _
    · exact Nat.le_refl _

/-- A position stands for the row with its number, or for the row that the pointer there names. -/
def StandsFor (s : TablesStream) (l : MemberList) (position : Nat) (member : UInt32) : Prop :=
  if s.rowCount l.pointer = 0 then member.toNat = position
  else ∃ pointer, s.row l.pointer (UInt32.ofNat position) = .ok pointer ∧ pointer.column 0 = member

theorem IsDecoded.exists_standsFor (h : s.IsDecoded) (hpos : 1 ≤ position)
    (hle : position ≤ (s.positionCount l).toNat) :
    ∃ member, s.memberAt l position = .ok (some member) ∧ s.StandsFor l position member := by
  unfold memberAt StandsFor
  unfold positionCount at hle
  by_cases hpointers : s.rowCount l.pointer = 0
  · rw [if_pos hpointers] at hle ⊢
    refine ⟨UInt32.ofNat position, rfl, ?_⟩
    rw [if_pos hpointers]
    exact UInt32.toNat_ofNat_of_lt' (Nat.lt_of_le_of_lt hle (s.rowCount l.target).toNat_lt)
  · rw [if_neg hpointers] at hle ⊢
    obtain ⟨pointer, hpointer⟩ := h.exists_row? hpos hle
    have hrow := row?_eq_some_iff.mp hpointer
    refine ⟨pointer.column 0, ?_, ?_⟩
    · -- the table of pointers is there, since it has that row
      unfold row at hrow
      cases hrows : s.rows? l.pointer with
      | none =>
        rw [hrows] at hrow
        cases hrow
      | some pointers =>
        rw [hrows] at hrow
        have hrow : pointers.row (UInt32.ofNat position) = .ok pointer := hrow
        simp only [hrow]
        rfl
    · rw [if_neg hpointers]
      exact ⟨pointer, hrow, rfl⟩

/-- **The members of a type are those that the positions of its run stand for.** -/
theorem IsDecoded.exists_memberRids (h : s.IsDecoded) (l : MemberList) (type : UInt32) :
    ∃ members, s.memberRids l type = .ok members ∧
      List.Forall₂ (s.StandsFor l) (s.memberPositions l type) members := by
  obtain ⟨members, hfound, hmembers⟩ := exists_mapM_eq_ok fun position hposition => by
    obtain ⟨hpos, hle⟩ := bounds_of_mem_memberPositions hposition
    exact h.exists_standsFor (l := l) hpos hle
  refine ⟨members, ?_, hmembers⟩
  rw [memberRids, hfound]
  refine congrArg Except.ok ?_
  rw [List.filterMap_map]
  exact List.filterMap_some

/-- The members of a type, or none if a pointer cannot be read. -/
def members (s : TablesStream) (l : MemberList) (type : UInt32) : List UInt32 :=
  (s.memberRids l type).toOption.getD []

theorem IsDecoded.memberRids_eq (h : s.IsDecoded) (l : MemberList) (type : UInt32) :
    s.memberRids l type = .ok (s.members l type) := by
  obtain ⟨members, hmembers, -⟩ := h.exists_memberRids l type
  rw [TablesStream.members, hmembers]
  rfl

end TablesStream

/-! ### Owners -/

/-- Who has `b` first is who has the first pair with it. -/
theorem find?_flatMap_map {α β : Type} [DecidableEq β] (f : α → List β) (xs : List α) (b : β) :
    ((xs.flatMap fun x => (f x).map fun y => (y, x)).find? (·.1 == b)).map (·.2) =
      xs.find? fun x => decide (b ∈ f x) := by
  induction xs with
  | nil => rfl
  | cons x xs ih =>
    have hcomp : (fun p : β × α => p.1 == b) ∘ (fun y => (y, x)) = (· == b) := rfl
    rw [List.flatMap_cons, List.find?_append, List.find?_map, List.find?_cons, hcomp]
    cases hfind : (f x).find? (· == b) with
    | none =>
      have hb : b ∉ f x := fun hb => by simpa using List.find?_eq_none.mp hfind b hb
      rw [decide_eq_false hb]
      exact ih
    | some y =>
      obtain rfl : y = b := by simpa using List.find?_some hfind
      rw [decide_eq_true (List.mem_of_find?_eq_some hfind)]
      rfl

namespace OwnerIndex

variable {s : TablesStream} {l : MemberList}

/-- Each member of each type, with the type. -/
theorem memberPairs_eq (h : s.IsDecoded) (l : MemberList) :
    memberPairs s l = .ok ((rids s .typeDef).flatMap fun type =>
      (s.members l type).map fun member => (member, type)) := by
  have hruns : ∀ type ∈ rids s .typeDef,
      List.map (fun member => (member, type)) <$> s.memberRids l type =
        .ok ((s.members l type).map fun member => (member, type)) := fun type _ => by
    rw [h.memberRids_eq]
    rfl
  rw [memberPairs, mapM_eq_ok hruns]
  rfl

/-- The first type that has a member is found among all types. -/
theorem exists_owners (h : s.IsDecoded) (l : MemberList) :
    ∃ found, owners s l = .ok found ∧ ∀ member : UInt32,
      found[member]? = if member ≤ s.rowCount l.target then
        (rids s .typeDef).find? fun type => decide (member ∈ s.members l type) else none := by
  refine ⟨_, by rw [owners, memberPairs_eq h]; rfl, fun member => ?_⟩
  rw [Grouping.getElem?_first, List.find?_filter]
  split
  · next hle =>
    rw [← find?_flatMap_map]
    congr 2
    funext p
    by_cases hp : p.1 = member
    · simp [hp, hle]
    · simp [hp]
  · next hle =>
    rw [Option.map_eq_none_iff, List.find?_eq_none]
    rintro ⟨member', type⟩ - hp
    obtain ⟨hle', rfl⟩ := by simpa using hp
    exact hle hle'

end OwnerIndex

namespace MetadataImage

variable {image : MetadataImage}

/-- The first type that has a member of the image. -/
def memberOwner? (image : MetadataImage) (l : MemberList) (member : UInt32) : Option UInt32 :=
  if member ≤ image.tables.rowCount l.target then
    (OwnerIndex.rids image.tables .typeDef).find? fun type =>
      decide (member ∈ image.tables.members l type)
  else none

/-- The type that the first record of a nested type names. -/
def enclosingRid? (image : MetadataImage) (type : UInt32) : Option UInt32 :=
  ((OwnerIndex.nestingRows image.tables).find? (·.column 0 == type)).map (·.column 1)

/-- The records that name an enclosing type. -/
def nestingRids (image : MetadataImage) (enclosing : UInt32) : List UInt32 :=
  ((OwnerIndex.nestingRows image.tables).filter (·.column 1 == enclosing)).map (·.rid)

section Decoded

variable (h : image.tables.IsDecoded)
include h

/-- The index of an image that comes from decoding. -/
theorem exists_index :
    ∃ index, image.index = .ok index ∧
      OwnerIndex.owners image.tables .fields = .ok index.fieldOwner ∧
      OwnerIndex.owners image.tables .methods = .ok index.methodOwner ∧
      index.enclosing = Grouping.first
        ((OwnerIndex.nestingRows image.tables).map fun r => (r.column 0, r.column 1)) ∧
      index.records = Grouping.all
        ((OwnerIndex.nestingRows image.tables).map fun r => (r.column 1, r.rid)) := by
  obtain ⟨fields, hfields, -⟩ := OwnerIndex.exists_owners h .fields
  obtain ⟨methods, hmethods, -⟩ := OwnerIndex.exists_owners h .methods
  have hindex := image.index_eq
  change _ = OwnerIndex.ofTables image.tables at hindex
  rw [OwnerIndex.ofTables, hfields, hmethods] at hindex
  exact ⟨_, hindex, hfields, hmethods, rfl, rfl⟩

theorem memberOwner_eq (l : MemberList) (member : UInt32) :
    image.memberOwner l member = .ok (image.memberOwner? l member) := by
  obtain ⟨index, hindex, hfields, hmethods, -⟩ := exists_index h
  obtain ⟨found, hfound, howner⟩ := OwnerIndex.exists_owners h l
  rw [memberOwner, hindex, memberOwner?, ← howner]
  cases l with
  | fields => rw [Except.ok.inj (hfound.symm.trans hfields)]; rfl
  | methods => rw [Except.ok.inj (hfound.symm.trans hmethods)]; rfl

theorem enclosingRid_eq (type : UInt32) :
    image.enclosingRid type = .ok (image.enclosingRid? type) := by
  obtain ⟨index, hindex, -, -, henclosing, -⟩ := exists_index h
  rw [enclosingRid, hindex]
  change Except.ok index.enclosing[type]? = _
  rw [henclosing, Grouping.getElem?_first, List.find?_map, Option.map_map]
  rfl

theorem nestingRecords_eq (enclosing : UInt32) :
    image.nestingRecords enclosing = .ok (image.nestingRids enclosing) := by
  obtain ⟨index, hindex, -, -, -, hrecords⟩ := exists_index h
  rw [nestingRecords, hindex]
  change Except.ok (index.records.getD enclosing []) = _
  rw [hrecords, Grouping.getD_all, List.filter_map, List.map_map]
  rfl

end Decoded

end MetadataImage

/-! ### What is loaded -/

namespace Load

variable {image : MetadataImage} {k : EntityKind}

section Decoded

variable (h : image.tables.IsDecoded)
include h

theorem owner_eq (l : MemberList) (r : Row) :
    owner l image r = .ok ((image.memberOwner? l r.rid).bind (image.entityAt? .typeDef)) := by
  rw [owner, image.memberOwner_eq h]
  rfl

theorem members_eq (l : MemberList) (r : Row) :
    members l k image r = .ok ((image.tables.members l r.rid).filterMap (image.entityAt? k)) := by
  rw [members, h.memberRids_eq]
  rfl

theorem records_eq (r : Row) :
    records image r =
      .ok ((image.nestingRids r.rid).filterMap (image.entityAt? .nestedClass)) := by
  rw [records, image.nestingRecords_eq h]
  rfl

theorem enclosing_eq (r : Row) :
    enclosing image r = .ok ((image.enclosingRid? r.rid).bind (image.entityAt? .typeDef)) := by
  rw [enclosing, image.enclosingRid_eq h]
  rfl

theorem module_eq (r : Row) :
    module image r = .ok (if (image.enclosingRid? r.rid).isSome then none
      else image.entityAt? .module 1) := by
  rw [module, image.enclosingRid_eq h]
  rfl

theorem topLevel_eq (r : Row) :
    topLevel image r = .ok (((OwnerIndex.rids image.tables .typeDef).filter fun type =>
      (image.enclosingRid? type).isNone).filterMap (image.entityAt? .typeDef)) := by
  have htop : ∀ type ∈ OwnerIndex.rids image.tables .typeDef, topLevelAt image type =
      .ok (if (image.enclosingRid? type).isSome then none else image.entityAt? .typeDef type) :=
    fun type _ => by
      rw [topLevelAt, image.enclosingRid_eq h]
      rfl
  rw [topLevel, mapM_eq_ok htop]
  refine congrArg Except.ok ?_
  rw [List.filterMap_map, List.filterMap_filter]
  refine List.filterMap_congr fun type _ => ?_
  rw [Function.comp_apply]
  cases image.enclosingRid? type <;> rfl

end Decoded

end Load

/-! ### Failing -/

/-- A computation that can only fail because of a row, by its bytes or by its number. -/
def FailsOnRow {α : Type} (x : Except Error α) : Prop := FailsAs [.format, .range] x

section Failing

variable {image : MetadataImage}

theorem Column.failsOnRow_read (c : Column) (data : Bytes) (offset : Nat) :
    FailsOnRow (c.read data offset) := by
  unfold Column.read
  split
  · split
    · exact .ok _
    · exact .error List.mem_cons_self
  · exact .error List.mem_cons_self

theorem Column.failsOnRow_readAll (data : Bytes) (n : Nat) (columns : List Column) (offset : Nat) :
    FailsOnRow (Column.readAll data n columns offset).1 := by
  induction n generalizing columns offset with
  | zero => exact .ok _
  | succ n ih =>
    cases columns with
    | nil => exact .error List.mem_cons_self
    | cons c columns =>
      rw [Column.readAll]
      cases hread : c.read data offset with
      | error e => exact .error (c.failsOnRow_read data offset e hread)
      | ok v =>
        have hrest := ih columns (offset + c.size)
        generalize Column.readAll data n columns (offset + c.size) = rest at hrest ⊢
        obtain ⟨e | ⟨vs, hvs⟩, stop⟩ := rest
        · exact .error (hrest e rfl)
        · exact .ok _

theorem Rows.failsOnRow_row (t : Rows) (rid : UInt32) : FailsOnRow (t.row rid) := by
  unfold Rows.row Row.read
  split
  · exact .error (List.mem_cons_of_mem _ List.mem_cons_self)
  · have hread := Column.failsOnRow_readAll t.data t.table.arity t.layout.columns
      ((rid.toNat - 1) * t.layout.rowSize)
    generalize Column.readAll t.data _ _ _ = result at hread ⊢
    obtain ⟨e | ⟨vs, hvs⟩, stop⟩ := result
    · exact .error (hread e rfl)
    · exact .ok _

theorem TablesStream.failsOnRow_memberRids (s : TablesStream) (l : MemberList) (type : UInt32) :
    FailsOnRow (s.memberRids l type) := by
  refine (FailsAs.mapM (fun position => ?_) _).bind fun found => .ok _
  unfold memberAt
  split
  · exact .ok _
  · split
    · exact .ok _
    · next pointers _ => exact (pointers.failsOnRow_row _).map

theorem OwnerIndex.failsOnRow_ofTables (s : TablesStream) : FailsOnRow (ofTables s) := by
  have howners (l : MemberList) : FailsOnRow (owners s l) :=
    ((FailsAs.mapM (fun type => (s.failsOnRow_memberRids l type).map) _).bind
      fun _ => .ok _).bind fun _ => .ok _
  exact (howners .fields).bind fun _ => (howners .methods).bind fun _ => .ok _

/-- What encloses a type can only fail to be loaded because of a row. -/
theorem Load.failsOnRow_enclosing (r : Row) : FailsOnRow (enclosing image r) := by
  have hindex : FailsOnRow image.index := image.index_eq ▸ OwnerIndex.failsOnRow_ofTables _
  exact (hindex.bind fun _ => .ok _).map

end Failing

end ManagedImage
