import ManagedImage.Proofs.Nesting.Records
import ManagedImage.Proofs.Nesting.Run

/-!
# The nesting that an image is loaded with

The module of a type and the list of a module come from the index of the image; so does the type
that encloses a type, and the list of records of a type; what a record nests, and in what, comes from
the row of the record.  Each of the six is loaded on its own.  They fit together if the records name
types of the image and nest no type twice, in whatever order the records come and whatever cycles
they make.

## Main definitions

* `Ref.IsOrdered` — a list of rows in order.
* `Nesting.Follows` — a nesting that follows a relation.
* `MetadataImage.nesting` — who is nested where when an image has just been loaded.
* `MetadataImage.WellNested` — everything has its one place, and lists follow the rows.
* `Graph.Tells` — reading gives what a nesting says.

## Main results

* `Nesting.Follows.consistent` — a nesting that follows a relation is consistent.
* `MetadataImage.NestsOnce.follows` — what an image is loaded with follows its records.
* `MetadataImage.exists_wellNested` — **in an image whose records nest no type twice, everything that
  is read has its one place, whatever has been read before.**
-/

namespace ManagedImage

namespace Ref

variable {k : EntityKind} {l : List (Ref k)}

/-- A list of rows, in the order of the rows. -/
def IsOrdered (l : List (Ref k)) : Prop :=
  ∃ rids : List UInt32, rids.Pairwise (· < ·) ∧ l = rids.map fun rid => ⟨.row rid⟩

theorem isOrdered_nil : IsOrdered ([] : List (Ref k)) := ⟨[], List.Pairwise.nil, rfl⟩

theorem IsOrdered.nodup (h : IsOrdered l) : l.Nodup := by
  obtain ⟨rids, hrids, rfl⟩ := h
  refine List.pairwise_map.mpr (hrids.imp fun {rid rid'} hlt heq => ?_)
  rw [Ref.mk.injEq, Identity.row.injEq] at heq
  exact absurd heq (UInt32.ne_of_lt hlt)

end Ref

/-! ### Nestings that follow a relation -/

namespace Nesting

variable {n : Nesting}

/-- Lists, back-pointers and enclosing types all follow one relation between records, what they nest
and what they nest it in; and a type is in a module only if no record nests it. -/
structure Follows (n : Nesting) (Says : Ref .nestedClass → Ref .typeDef → Ref .typeDef → Prop) :
    Prop where
  mem_types : ∀ {M T}, T ∈ n.types M ↔ n.module T = some M
  module : ∀ {T M R E}, n.module T = some M → ¬Says R T E
  mem_records : ∀ {R E}, R ∈ n.records E ↔ ∃ T, Says R T E
  enclosing : ∀ {R E}, n.enclosing R = some E ↔ ∃ T, Says R T E
  nested : ∀ {R T}, n.nested R = some T ↔ ∃ E, Says R T E
  declaring : ∀ {T E}, n.declaring T = some E ↔ ∃ R, Says R T E

/-- **A nesting that follows a relation is consistent** if the relation has a record once, and a type
through one record. -/
theorem Follows.consistent {Says : Ref .nestedClass → Ref .typeDef → Ref .typeDef → Prop}
    (h : n.Follows Says)
    (hrecord : ∀ {R T E T' E'}, Says R T E → Says R T' E' → T = T' ∧ E = E')
    (htype : ∀ {R T E R' E'}, Says R T E → Says R' T E' → R = R')
    (htypes : ∀ M, (n.types M).Nodup) (hrecords : ∀ E, (n.records E).Nodup) : n.Consistent where
  mem_types := h.mem_types
  mem_records := h.mem_records.trans h.enclosing.symm
  declaring_eq_some := by
    intro T E
    rw [h.declaring]
    constructor
    · rintro ⟨R, hR⟩
      exact ⟨R, h.mem_records.mpr ⟨T, hR⟩, h.nested.mpr ⟨E, hR⟩⟩
    · rintro ⟨R, hlisted, hnested⟩
      obtain ⟨T', hR⟩ := h.mem_records.mp hlisted
      obtain ⟨E', hR'⟩ := h.nested.mp hnested
      obtain ⟨rfl, rfl⟩ := hrecord hR hR'
      exact ⟨R, hR⟩
  unique := by
    intro R S T _ _ hR hS
    obtain ⟨E, hR⟩ := h.nested.mp hR
    obtain ⟨E', hS⟩ := h.nested.mp hS
    exact htype hR hS
  exclusive := by
    intro T
    cases hM : n.module T with
    | none => exact Or.inl rfl
    | some M =>
      right
      rw [Option.eq_none_iff_forall_ne_some]
      intro E hE
      obtain ⟨R, hR⟩ := h.declaring.mp hE
      exact h.module hM hR
  nodup_types := htypes
  nodup_records := hrecords

end Nesting

namespace MetadataImage

variable {image : MetadataImage} {config : Config} {source : MetadataStreams} {k : EntityKind}
  {r : Ref k} {row : Row} {type : UInt32} {M : Ref .module} {T T' E E' : Ref .typeDef}
  {R R' : Ref .nestedClass}

/-! ### The six functions -/

/-- Who is nested where when an image has just been loaded. -/
def nesting (image : MetadataImage) : Nesting := (Graph.empty (some image)).nesting

theorem valueD_empty (image : MetadataImage) (p : Part k) (r : Ref k) (d : p.Value) :
    (Graph.empty (some image)).valueD p r d =
      ((image.rowOf? r.any).bind fun row => (p.attr.load image row).toOption).getD d := by
  rw [Graph.valueD, Graph.value_empty]
  unfold Attribute.loaded
  dsimp only
  cases image.rowOf? r.any <;> rfl

/-- What a number names can be had. -/
theorem presentOnly_entityAt? (h : image.tables.IsDecoded) (rid : UInt32) :
    (Graph.empty (some image)).presentOnly (image.entityAt? k rid) = image.entityAt? k rid := by
  cases hr : image.entityAt? k rid with
  | none => rfl
  | some r => exact Option.filter_some_pos (MemberList.isPresent_empty h (names_of_entityAt? hr))

theorem nested_nesting (R : Ref .nestedClass) :
    image.nesting.nested R =
      (image.rowOf? R.any).bind fun record => image.entityAt? .typeDef (record.column 0) := by
  refine (valueD_empty image .nested R none).trans ?_
  cases image.rowOf? R.any <;> rfl

section Decoded

variable (hdecoded : image.tables.IsDecoded)
include hdecoded

theorem enclosing_nesting (R : Ref .nestedClass) :
    image.nesting.enclosing R =
      (image.rowOf? R.any).bind fun record => image.entityAt? .typeDef (record.column 1) := by
  refine (congrArg (Graph.empty (some image)).presentOnly
    (valueD_empty image .enclosing R none)).trans ?_
  cases image.rowOf? R.any with
  | none => rfl
  | some record => exact presentOnly_entityAt? hdecoded _

theorem declaring_nesting (T : Ref .typeDef) :
    image.nesting.declaring T = (image.rowOf? T.any).bind fun row =>
      (image.enclosingRid? row.rid).bind (image.entityAt? .typeDef) := by
  refine (congrArg (Graph.empty (some image)).presentOnly
    (valueD_empty image .declaringType T none)).trans ?_
  cases image.rowOf? T.any with
  | none => rfl
  | some row =>
    change (Graph.empty (some image)).presentOnly
      ((Load.enclosing image row).toOption.getD none) = _
    rw [Load.enclosing_eq hdecoded]
    change (Graph.empty (some image)).presentOnly ((image.enclosingRid? row.rid).bind _) =
      (image.enclosingRid? row.rid).bind _
    cases image.enclosingRid? row.rid with
    | none => rfl
    | some rid => exact presentOnly_entityAt? hdecoded _

theorem module_nesting (T : Ref .typeDef) :
    image.nesting.module T = (image.rowOf? T.any).bind fun row =>
      if (image.enclosingRid? row.rid).isSome then none else image.entityAt? .module 1 := by
  refine (congrArg (Graph.empty (some image)).presentOnly
    (valueD_empty image .module T none)).trans ?_
  cases image.rowOf? T.any with
  | none => rfl
  | some row =>
    change (Graph.empty (some image)).presentOnly ((Load.module image row).toOption.getD none) = _
    rw [Load.module_eq hdecoded]
    change (Graph.empty (some image)).presentOnly (if _ then none else _) = if _ then none else _
    split
    · rfl
    · exact presentOnly_entityAt? hdecoded _

theorem types_nesting (M : Ref .module) :
    image.nesting.types M = ((image.rowOf? M.any).map fun _ =>
      ((OwnerIndex.rids image.tables .typeDef).filter fun type =>
        (image.enclosingRid? type).isNone).filterMap (image.entityAt? .typeDef)).getD [] := by
  refine (valueD_empty image .topLevelTypes M []).trans ?_
  cases image.rowOf? M.any with
  | none => rfl
  | some row =>
    change (Load.topLevel image row).toOption.getD [] = _
    rw [Load.topLevel_eq hdecoded]
    rfl

theorem records_nesting (E : Ref .typeDef) :
    image.nesting.records E = ((image.rowOf? E.any).map fun row =>
      (image.nestingRids row.rid).filterMap (image.entityAt? .nestedClass)).getD [] := by
  refine (valueD_empty image .nestedClasses E []).trans ?_
  cases image.rowOf? E.any with
  | none => rfl
  | some row =>
    change (Load.records image row).toOption.getD [] = _
    rw [Load.records_eq hdecoded]
    rfl

end Decoded

/-! ### They fit together -/

section Fitting

variable (hdecoded : image.tables.IsDecoded)
include hdecoded

/-- The only module is the one that types point back at. -/
theorem entityAt?_module_one_iff (hmodules : image.tables.rowCount .module ≤ 1) :
    image.entityAt? .module 1 = some M ↔ ∃ row, image.rowOf? M.any = some row := by
  rw [exists_rowOf?_iff hdecoded, entityAt?_eq_some_iff]
  simp only [mem_rids hdecoded]
  constructor
  · rintro ⟨hid, hpos, hle⟩
    exact ⟨_, ⟨hpos, hle⟩, congrArg Ref.mk hid⟩
  · rintro ⟨rid, ⟨hpos, hle⟩, rfl⟩
    obtain rfl : rid = 1 := by
      have hle' := UInt32.le_iff_toNat_le.mp (UInt32.le_trans hle hmodules)
      have hpos' := UInt32.toNat_inj.ne.mpr hpos
      rw [← UInt32.toNat_inj]
      simp only [UInt32.toNat_zero, UInt32.toNat_one] at hle' hpos' ⊢
      omega
    exact ⟨rfl, hpos, hle⟩

/-- A type is in the module unless a record nests it. -/
theorem module_nesting_iff :
    image.nesting.module T = some M ↔ image.entityAt? .module 1 = some M ∧
      ∃ row, image.rowOf? T.any = some row ∧ image.enclosingRid? row.rid = none := by
  rw [module_nesting hdecoded, Option.bind_eq_some_iff]
  constructor
  · rintro ⟨row, hrow, hM⟩
    split at hM
    · cases hM
    · next hnone => exact ⟨hM, row, hrow, by simpa using hnone⟩
  · rintro ⟨hM, row, hrow, hnone⟩
    refine ⟨row, hrow, ?_⟩
    rwa [hnone]

/-- The list of a type has its records, in the order of their rows. -/
theorem records_nesting_of_rowOf? (hrecords : image.tables.rowCount .nestedClass ≤ Token.maxRow)
    (hrow : image.rowOf? E.any = some row) :
    image.nesting.records E = ((OwnerIndex.nestingRows image.tables).filter fun record =>
      record.column 1 == row.rid).map fun record => ⟨.row record.rid⟩ := by
  rw [records_nesting hdecoded, hrow, Option.map_some, Option.getD_some, nestingRids,
    List.filterMap_map, ← List.filterMap_eq_map]
  refine List.filterMap_congr fun record hrecord => ?_
  have hmem := OwnerIndex.mem_nestingRows_iff.mp (List.mem_filter.mp hrecord).1
  exact entityAt?_of_mem_rids (k := .nestedClass) hdecoded hrecords
    (OwnerIndex.mem_rids_of_row? hmem)

theorem mem_records_nesting_iff (hrecords : image.tables.rowCount .nestedClass ≤ Token.maxRow)
    (honce : image.NestsOnce) : R ∈ image.nesting.records E ↔ ∃ T, image.Nests R T E := by
  constructor
  · intro hR
    cases hrow : image.rowOf? E.any with
    | none =>
      rw [records_nesting hdecoded, hrow] at hR
      exact absurd hR List.not_mem_nil
    | some row =>
      rw [records_nesting_of_rowOf? hdecoded hrecords hrow] at hR
      obtain ⟨record, hrecord, rfl⟩ := List.mem_map.mp hR
      obtain ⟨hmem, henclosing⟩ := List.mem_filter.mp hrecord
      rw [(rowOf?_eq_some_iff.mp hrow).1, ← beq_iff_eq.mp henclosing]
      exact ⟨_, record, hmem, rfl, rfl, rfl⟩
  · rintro ⟨T, record, hmem, rfl, -, rfl⟩
    obtain ⟨row, hrow⟩ := (exists_rowOf?_iff (k := .typeDef) hdecoded).mpr
      ⟨_, honce.enclosing record hmem, rfl⟩
    rw [records_nesting_of_rowOf? hdecoded hrecords hrow, rid_of_rowOf? hrow]
    exact List.mem_map.mpr ⟨record, List.mem_filter.mpr ⟨hmem, beq_self_eq_true _⟩, rfl⟩

/-- The list of a type is in the order of its records. -/
theorem isOrdered_records_nesting (hrecords : image.tables.rowCount .nestedClass ≤ Token.maxRow)
    (E : Ref .typeDef) : Ref.IsOrdered (image.nesting.records E) := by
  cases hrow : image.rowOf? E.any with
  | none =>
    rw [records_nesting hdecoded, hrow]
    exact Ref.isOrdered_nil
  | some row =>
    rw [records_nesting_of_rowOf? hdecoded hrecords hrow]
    have hrids := (OwnerIndex.pairwise_nestingRows image.tables).filter fun record =>
      record.column 1 == row.rid
    refine ⟨_, List.pairwise_map.mpr hrids, ?_⟩
    rw [List.map_map]
    rfl

variable (htypes : image.tables.rowCount .typeDef ≤ Token.maxRow)
include htypes

/-- The list of a module has the types that no record nests, in the order of their rows. -/
theorem types_nesting_of_rowOf? (hrow : image.rowOf? M.any = some row) :
    image.nesting.types M = ((OwnerIndex.rids image.tables .typeDef).filter fun type =>
      (image.enclosingRid? type).isNone).map fun type => ⟨.row type⟩ := by
  rw [types_nesting hdecoded, hrow, Option.map_some, Option.getD_some, ← List.filterMap_eq_map]
  refine List.filterMap_congr fun type htype => ?_
  exact entityAt?_of_mem_rids (k := .typeDef) hdecoded htypes (List.mem_filter.mp htype).1

theorem mem_types_nesting_iff :
    T ∈ image.nesting.types M ↔ (∃ row, image.rowOf? M.any = some row) ∧
      ∃ row, image.rowOf? T.any = some row ∧ image.enclosingRid? row.rid = none := by
  cases hM : image.rowOf? M.any with
  | none =>
    rw [types_nesting hdecoded, hM]
    simp
  | some _ =>
    rw [types_nesting_of_rowOf? hdecoded htypes hM, List.mem_map]
    simp only [Option.some.injEq, exists_eq', true_and, List.mem_filter, Option.isNone_iff_eq_none]
    constructor
    · rintro ⟨type, ⟨hmem, hnone⟩, rfl⟩
      obtain ⟨row, hrow⟩ := (exists_rowOf?_iff (k := .typeDef) hdecoded).mpr ⟨type, hmem, rfl⟩
      exact ⟨row, hrow, by rwa [rid_of_rowOf? hrow]⟩
    · rintro ⟨row, hrow, hnone⟩
      obtain ⟨hT, hrow⟩ := rowOf?_eq_some_iff.mp hrow
      exact ⟨row.rid, ⟨OwnerIndex.mem_rids_of_row? hrow, hnone⟩, hT.symm⟩

/-- The list of a module is in the order of the types. -/
theorem isOrdered_types_nesting (M : Ref .module) : Ref.IsOrdered (image.nesting.types M) := by
  cases hrow : image.rowOf? M.any with
  | none =>
    rw [types_nesting hdecoded, hrow]
    exact Ref.isOrdered_nil
  | some row =>
    rw [types_nesting_of_rowOf? hdecoded htypes hrow]
    exact ⟨_, (OwnerIndex.pairwise_rids image.tables .typeDef).filter _, rfl⟩

/-- A column of a record names a type of the image by its own number. -/
theorem bind_column_eq_some_iff {c : Nat}
    (hc : ∀ record ∈ OwnerIndex.nestingRows image.tables,
      record.column c ∈ OwnerIndex.rids image.tables .typeDef) :
    ((image.rowOf? R.any).bind fun record => image.entityAt? .typeDef (record.column c)) = some T ↔
      ∃ record ∈ OwnerIndex.nestingRows image.tables,
        R = ⟨.row record.rid⟩ ∧ T = ⟨.row (record.column c)⟩ := by
  rw [Option.bind_eq_some_iff]
  constructor
  · rintro ⟨record, hrecord, hT⟩
    obtain ⟨hmem, rfl⟩ := rowOf?_record_iff.mp hrecord
    rw [entityAt?_of_mem_rids (k := .typeDef) hdecoded htypes (hc record hmem)] at hT
    exact ⟨record, hmem, rfl, (Option.some.inj hT).symm⟩
  · rintro ⟨record, hmem, rfl, rfl⟩
    exact ⟨record, rowOf?_record_iff.mpr ⟨hmem, rfl⟩,
      entityAt?_of_mem_rids (k := .typeDef) hdecoded htypes (hc record hmem)⟩

theorem declaring_nesting_iff (honce : image.NestsOnce) :
    image.nesting.declaring T = some E ↔ ∃ R, image.Nests R T E := by
  rw [declaring_nesting hdecoded, Option.bind_eq_some_iff]
  constructor
  · rintro ⟨row, hrow, hE⟩
    obtain ⟨enclosing, henclosing, hE⟩ := Option.bind_eq_some_iff.mp hE
    obtain ⟨record, hmem, hnested, rfl⟩ := honce.enclosingRid?_eq_some_iff.mp henclosing
    rw [entityAt?_of_mem_rids (k := .typeDef) hdecoded htypes (honce.enclosing record hmem)] at hE
    rw [(rowOf?_eq_some_iff.mp hrow).1, ← hnested, ← Option.some.inj hE]
    exact ⟨_, record, hmem, rfl, rfl, rfl⟩
  · rintro ⟨R, record, hmem, -, rfl, rfl⟩
    obtain ⟨row, hrow⟩ := (exists_rowOf?_iff (k := .typeDef) hdecoded).mpr
      ⟨_, honce.nested record hmem, rfl⟩
    refine ⟨row, hrow, ?_⟩
    rw [rid_of_rowOf? hrow, honce.enclosingRid?_eq_some_iff.mpr ⟨record, hmem, rfl, rfl⟩]
    exact entityAt?_of_mem_rids (k := .typeDef) hdecoded htypes (honce.enclosing record hmem)

/-- **The six functions follow what the records say.** -/
theorem NestsOnce.follows (honce : image.NestsOnce)
    (hmodules : image.tables.rowCount .module ≤ 1)
    (hrecords : image.tables.rowCount .nestedClass ≤ Token.maxRow) :
    image.nesting.Follows image.Nests where
  mem_types := by
    intro M T
    rw [mem_types_nesting_iff hdecoded htypes, module_nesting_iff hdecoded,
      entityAt?_module_one_iff hdecoded hmodules]
  module := by
    rintro T M R E hM ⟨record, hmem, -, rfl, -⟩
    obtain ⟨-, row, hrow, hnone⟩ := (module_nesting_iff hdecoded).mp hM
    rw [rid_of_rowOf? hrow, honce.enclosingRid?_eq_some_iff.mpr ⟨record, hmem, rfl, rfl⟩] at hnone
    cases hnone
  mem_records := mem_records_nesting_iff hdecoded hrecords honce
  enclosing := by
    intro R E
    rw [enclosing_nesting hdecoded, bind_column_eq_some_iff hdecoded htypes honce.enclosing]
    constructor
    · rintro ⟨record, hmem, hR, hE⟩
      exact ⟨_, record, hmem, hR, rfl, hE⟩
    · rintro ⟨T, record, hmem, hR, -, hE⟩
      exact ⟨record, hmem, hR, hE⟩
  nested := by
    intro R T
    rw [nested_nesting, bind_column_eq_some_iff hdecoded htypes honce.nested]
    constructor
    · rintro ⟨record, hmem, hR, hT⟩
      exact ⟨_, record, hmem, hR, hT, rfl⟩
    · rintro ⟨E, record, hmem, hR, hT, -⟩
      exact ⟨record, hmem, hR, hT⟩
  declaring := declaring_nesting_iff hdecoded htypes honce

theorem NestsOnce.consistent (honce : image.NestsOnce)
    (hmodules : image.tables.rowCount .module ≤ 1)
    (hrecords : image.tables.rowCount .nestedClass ≤ Token.maxRow) : image.nesting.Consistent := by
  exact (honce.follows hdecoded htypes hmodules hrecords).consistent Nests.eq_of_record
    honce.eq_of_type (fun M => (isOrdered_types_nesting hdecoded htypes M).nodup)
    fun E => (isOrdered_records_nesting hdecoded hrecords E).nodup

end Fitting

end MetadataImage

/-! ### What is read -/

namespace Graph

variable {g g' : Graph} {n : Nesting}

/-- Reading what exists gives what the nesting says. -/
structure Tells (g : Graph) (n : Nesting) : Prop where
  /-- The list of a module. -/
  types : ∀ M : Ref .module, g.isAlive M.any → ((typeOwnership.items M).runOn g).1 = .ok (n.types M)
  /-- The module of a type. -/
  module : ∀ T : Ref .typeDef, g.isAlive T.any →
    ((typeOwnership.owner T).runOn g).1 = .ok (n.module T)
  /-- The list of a type. -/
  records : ∀ E : Ref .typeDef, g.isAlive E.any →
    ((recordOwnership.items E).runOn g).1 = .ok (n.records E)
  /-- The type that a record points back at. -/
  enclosing : ∀ R : Ref .nestedClass, g.isAlive R.any →
    ((recordOwnership.owner R).runOn g).1 = .ok (n.enclosing R)
  /-- The type that a record nests. -/
  nested : ∀ R : Ref .nestedClass, g.isAlive R.any →
    ((Attribute.NestedClass.nested.read R).runOn g).1 = .ok (n.nested R)
  /-- The type that encloses a type. -/
  declaring : ∀ T : Ref .typeDef, g.isAlive T.any →
    ((enclosingType T).runOn g).1 = .ok (n.declaring T)

theorem Yields.fst_runOn {α : Type} {a : GraphAction α} {v : α} {Q : Graph → Prop}
    (h : g.Yields a v Q) : (a.runOn g).1 = .ok v := by
  obtain ⟨g', hrun, -⟩ := h
  rw [hrun]

theorem Shows.tells (hg : g.Shows n) : g.Tells n where
  types _ hM := (hg.read_topLevelTypes hM).fst_runOn
  module _ hT := (hg.read_module hT).fst_runOn
  records _ hE := (hg.read_nestedClasses hE).fst_runOn
  enclosing _ hR := (hg.read_enclosing hR).fst_runOn
  nested _ hR := (hg.read_nested hR).fst_runOn
  declaring _ hT := (hg.read_enclosingType hT).fst_runOn

/-- Reading does not change what is told. -/
theorem ReadsTo.shows (h : g.ReadsTo g') (hg : g.Shows n) : g'.Shows n :=
  (h.loadsTo hg.sound).shows hg (h.sound hg.sound)

end Graph

namespace MetadataImage

variable {image : MetadataImage} {config : Config} {source : MetadataStreams} {n : Nesting}

/-- Everything has its one place, and lists follow the rows. -/
structure WellNested (image : MetadataImage) (n : Nesting) : Prop where
  /-- Lists and back-pointers agree, and no type is in two places. -/
  consistent : n.Consistent
  /-- A type is enclosed by the type that has exactly one record of it. -/
  declaring_eq_some_iff : ∀ T E,
    n.declaring T = some E ↔ ∃! R, R ∈ n.records E ∧ n.nested R = some T
  /-- A type of an image with a module is either in the list of the module or nested. -/
  placed : ∀ (M : Ref .module) (T : Ref .typeDef), image.Names M.any → image.Names T.any →
    Xor (T ∈ n.types M) (∃ E, n.declaring T = some E)
  /-- The list of a module is in the order of the types. -/
  types_isOrdered : ∀ M, Ref.IsOrdered (n.types M)
  /-- The list of a type is in the order of the records. -/
  records_isOrdered : ∀ E, Ref.IsOrdered (n.records E)

theorem NestsOnce.wellNested (honce : image.NestsOnce) (hdecoded : image.tables.IsDecoded)
    (hmodules : image.tables.rowCount .module ≤ 1)
    (htypes : image.tables.rowCount .typeDef ≤ Token.maxRow)
    (hrecords : image.tables.rowCount .nestedClass ≤ Token.maxRow) :
    image.WellNested image.nesting where
  consistent := honce.consistent hdecoded htypes hmodules hrecords
  declaring_eq_some_iff := by
    intro T E
    have hconsistent := honce.consistent hdecoded htypes hmodules hrecords
    rw [hconsistent.declaring_eq_some]
    constructor
    · rintro ⟨R, hR, hnested⟩
      refine ⟨R, ⟨hR, hnested⟩, fun S ⟨hS, hnested'⟩ => ?_⟩
      exact hconsistent.unique (hconsistent.isAttached_of_mem hS)
        (hconsistent.isAttached_of_mem hR) hnested' hnested
    · rintro ⟨R, ⟨hR, hnested⟩, -⟩
      exact ⟨R, hR, hnested⟩
  placed := by
    intro M T hM hT
    obtain ⟨row, hrow⟩ := hT.offers.exists_row hdecoded
    -- both sides ask the index for the type that encloses this row
    have htop : T ∈ image.nesting.types M ↔ image.enclosingRid? row.rid = none := by
      rw [mem_types_nesting_iff hdecoded htypes]
      refine ⟨fun ⟨_, row', hrow', hnone⟩ => ?_, fun hnone =>
        ⟨hM.offers.exists_row hdecoded, row, hrow, hnone⟩⟩
      rwa [Option.some.inj (hrow.symm.trans hrow')]
    have hinner : (∃ E, image.nesting.declaring T = some E) ↔
        ∃ enclosing, image.enclosingRid? row.rid = some enclosing := by
      rw [declaring_nesting hdecoded, hrow, Option.bind_some]
      constructor
      · rintro ⟨E, hE⟩
        obtain ⟨enclosing, henclosing, -⟩ := Option.bind_eq_some_iff.mp hE
        exact ⟨enclosing, henclosing⟩
      · rintro ⟨enclosing, henclosing⟩
        obtain ⟨record, hmem, -, rfl⟩ := honce.enclosingRid?_eq_some_iff.mp henclosing
        rw [henclosing]
        exact ⟨_, entityAt?_of_mem_rids (k := .typeDef) hdecoded htypes
          (honce.enclosing record hmem)⟩
    rw [htop, hinner]
    cases image.enclosingRid? row.rid with
    | none => exact Or.inl ⟨rfl, by simp⟩
    | some enclosing => exact Or.inr ⟨⟨enclosing, rfl⟩, by simp⟩
  types_isOrdered := isOrdered_types_nesting hdecoded htypes
  records_isOrdered := isOrdered_records_nesting hdecoded hrecords

/-- **Loading well-formed records gives a consistent graph.**  In an image with at most one module,
whose records nest existing types in existing types and no type twice, everything that is read has
its one place; it makes no difference what has been read before. -/
theorem exists_wellNested (h : decode config source = .ok image)
    (hmodules : image.tables.rowCount .module ≤ 1)
    (htypes : image.tables.rowCount .typeDef ≤ Token.maxRow)
    (hrecords : image.tables.rowCount .nestedClass ≤ Token.maxRow) (honce : image.NestsOnce) :
    ∃ n, image.WellNested n ∧ ∀ g, (Graph.empty (some image)).ReadsTo g → g.Tells n := by
  refine ⟨image.nesting, ?_, fun g hreads => ?_⟩
  · exact honce.wellNested (isDecoded_of_decode h) hmodules htypes hrecords
  · exact (hreads.shows (Graph.shows_of_decode h)).tells

/-- A module with four types.  The third and the fourth are nested in one another, and the second is
nested in the fourth by the first record. -/
def cyclic : MetadataStreams where
  tables := #[0, 0, 0, 0, 2, 0, 0, 1,
    0x05, 0, 0, 0, 0, 2, 0, 0, 0, 0, 0, 0, 0, 0, 0, 0,
    1, 0, 0, 0, 4, 0, 0, 0, 3, 0, 0, 0,
    0, 0, 0, 0, 0, 0, 0, 0, 0, 0,
    0, 0, 0, 0, 0, 0, 0, 0, 0, 0, 1, 0, 1, 0,
    0, 0, 0, 0, 0, 0, 0, 0, 0, 0, 1, 0, 1, 0,
    0, 0, 0, 0, 0, 0, 0, 0, 0, 0, 1, 0, 1, 0,
    0, 0, 0, 0, 0, 0, 0, 0, 0, 0, 1, 0, 1, 0,
    2, 0, 4, 0,
    4, 0, 3, 0,
    3, 0, 4, 0]
  strings? := none
  guids? := none
  blobs? := none

theorem exists_wellNested_cyclic :
    ∃ image, decode .lenient cyclic = .ok image ∧
      image.tables.rowCount .module ≤ 1 ∧ image.tables.rowCount .typeDef ≤ Token.maxRow ∧
      image.tables.rowCount .nestedClass ≤ Token.maxRow ∧ image.NestsOnce ∧
      ∃ n, image.WellNested n ∧ ∀ g, (Graph.empty (some image)).ReadsTo g → g.Tells n := by
  have hcheck : (decode .lenient cyclic).toOption.any (fun image =>
      decide (image.tables.rowCount .module ≤ 1 ∧
        image.tables.rowCount .typeDef ≤ Token.maxRow ∧
        image.tables.rowCount .nestedClass ≤ Token.maxRow ∧ image.NestsOnce)) = true := by
    decide +kernel
  cases hdecode : decode .lenient cyclic with
  | error e => exact absurd hcheck (by simp [hdecode, Except.toOption])
  | ok image =>
    rw [hdecode] at hcheck
    obtain ⟨hmodules, htypes, hrecords, honce⟩ := of_decide_eq_true hcheck
    exact ⟨image, rfl, hmodules, htypes, hrecords, honce,
      exists_wellNested hdecode hmodules htypes hrecords honce⟩

end MetadataImage

end ManagedImage
