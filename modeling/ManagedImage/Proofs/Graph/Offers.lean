import ManagedImage.Proofs.Graph.Loading
import ManagedImage.Proofs.Members.Finding

/-!
# What an image offers

Whatever loading refers to has been looked up in the image by its token, so it comes from a row that
the image has.

## Main definitions

* `MetadataImage.Offers` — the image has a row for the entity.
* `MetadataImage.Names` — a token names the entity.

## Main results

* `Graph.names_of_load` — what a loaded value refers to has a name.
* `Graph.offers_of_load` — so it is offered by the image.
-/

namespace ManagedImage

namespace MetadataImage

variable {image : MetadataImage} {k : EntityKind} {r s : AnyRef}

/-- The image has a row for the entity. -/
def Offers (image : MetadataImage) (r : AnyRef) : Prop :=
  ∃ rid, r.id = .row rid ∧ rid ≠ 0 ∧ rid ≤ image.tables.rowCount r.kind.table

/-- A token names the entity. -/
def Names (image : MetadataImage) (r : AnyRef) : Prop := ∃ t, image.resolve? t = some r

theorem Offers.isRow (h : image.Offers r) : r.id.isRow := by
  obtain ⟨rid, hid, -⟩ := h
  rw [hid]
  rfl

theorem offers_of_resolve? {t : Token} (h : image.resolve? t = some r) : image.Offers r := by
  unfold resolve? at h
  split at h
  · exact absurd h (by simp)
  · split at h
    · exact absurd h (by simp)
    · next kind _ hrow =>
      obtain rfl := Option.some.inj h
      rw [not_or, UInt32.not_lt] at hrow
      exact ⟨t.row, rfl, hrow⟩

theorem Names.offers (h : image.Names r) : image.Offers r := by
  obtain ⟨t, ht⟩ := h
  exact offers_of_resolve? ht

theorem names_of_entityAt? {rid : UInt32} {r : Ref k} (h : image.entityAt? k rid = some r) :
    image.Names r.any := by
  obtain ⟨s, hs, hr⟩ := Option.bind_eq_some_iff.mp h
  rw [AnyRef.as?_eq_some_iff] at hr
  exact ⟨_, hr ▸ hs⟩

theorem names_of_mem_filterMap {rids : List UInt32}
    (hs : s ∈ Attribute.listRefs (rids.filterMap (image.entityAt? k))) : image.Names s := by
  obtain ⟨r, hr, rfl⟩ := List.mem_map.mp hs
  obtain ⟨rid, -, hr⟩ := List.mem_filterMap.mp hr
  exact names_of_entityAt? hr

theorem names_of_mem_bind {x : Option UInt32}
    (hs : s ∈ Attribute.optionalRef (x.bind (image.entityAt? k))) : image.Names s := by
  obtain ⟨r, hr, rfl⟩ := List.mem_map.mp hs
  obtain ⟨rid, -, hr⟩ := Option.bind_eq_some_iff.mp (Option.mem_toList.mp hr)
  exact names_of_entityAt? hr

theorem names_of_mem_topLevel {rids : List UInt32} {found : List (Option (Ref .typeDef))}
    (h : rids.mapM (Load.topLevelAt image) = .ok found)
    (hs : s ∈ Attribute.listRefs (found.filterMap id)) : image.Names s := by
  obtain ⟨r, hr, rfl⟩ := List.mem_map.mp hs
  obtain ⟨x, hx, rfl⟩ := List.mem_filterMap.mp hr
  -- it was found where one of the rows was asked about
  obtain ⟨rid, -, hrid⟩ := exists_of_mem_mapM h hx
  obtain ⟨enclosing?, -, hr⟩ := exists_of_map_eq_ok hrid
  split at hr
  · cases hr
  · exact names_of_entityAt? hr

theorem names_of_resolveCoded {kind : CodedKind} {value : UInt32} {v : Option AnyRef}
    (h : image.resolveCoded kind value = .ok v) (hs : s ∈ v.toList) : image.Names s := by
  unfold resolveCoded at h
  cases hindex : kind.decode value with
  | error e =>
    rw [hindex] at h
    exact absurd h (by simp [bind, Except.bind])
  | ok index =>
    rw [hindex] at h
    have hv : (if index.isNull then none else image.resolve? index.token) = v := Except.ok.inj h
    subst hv
    split at hs
    · exact absurd hs (by simp)
    · exact ⟨_, Option.mem_toList.mp hs⟩

end MetadataImage

namespace Graph

variable {k : EntityKind} {g : Graph} {p : Part k}

theorem exists_load_of_loaded {r : Ref k} {v : p.Value}
    (h : p.attr.loaded r g.image? = .ok v) :
    ∃ image, g.image? = some image ∧ ∃ row, image.rowOf? r.any = some row ∧
      p.attr.load image row = .ok v := by
  unfold Attribute.loaded at h
  split at h
  · exact absurd h (by simp)
  · next image himage =>
    split at h
    · exact absurd h (by simp)
    · next row hrow => exact ⟨image, himage, row, hrow, h⟩

/-- **What a loaded value refers to has a name.** -/
theorem names_of_load {image : MetadataImage} {row : Row} {v : p.Value}
    (h : p.attr.load image row = .ok v) : ∀ s ∈ p.attr.refs v, image.Names s := by
  intro s hs
  cases p with
  | fields | methods | nestedClasses =>
    obtain ⟨rids, -, rfl⟩ := exists_of_map_eq_ok h
    exact MetadataImage.names_of_mem_filterMap hs
  | topLevelTypes =>
    obtain ⟨found, hfound, rfl⟩ := exists_of_map_eq_ok h
    exact MetadataImage.names_of_mem_topLevel hfound hs
  | resolutionScope | baseType => exact MetadataImage.names_of_resolveCoded h hs
  | declaringType | fieldOwner | methodOwner =>
    obtain ⟨rid?, -, rfl⟩ := exists_of_map_eq_ok h
    exact MetadataImage.names_of_mem_bind hs
  | nested | enclosing =>
    obtain rfl := Except.ok.inj h
    exact MetadataImage.names_of_mem_bind (x := some _) hs
  | module =>
    obtain ⟨rid?, -, rfl⟩ := exists_of_map_eq_ok h
    split at hs
    · exact absurd hs List.not_mem_nil
    · exact MetadataImage.names_of_mem_bind (x := some 1) hs
  | _ => exact absurd hs List.not_mem_nil

/-- What a loaded value refers to is offered by the image. -/
theorem offers_of_load {image : MetadataImage} {row : Row} {v : p.Value}
    (h : p.attr.load image row = .ok v) : ∀ s ∈ p.attr.refs v, image.Offers s :=
  fun s hs => (names_of_load h s hs).offers

end Graph

end ManagedImage
