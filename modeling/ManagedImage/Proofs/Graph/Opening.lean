import ManagedImage.Proofs.Graph.Offers
import ManagedImage.Proofs.Stream.Decoding

/-!
# Opening an image

A graph starts without entities, over an image that has just been decoded or over none.  Every row
of such an image can be read, so whatever the image offers is there when it is asked for, and who
owns it can be told.

## Main definitions

* `Part.IsEdge` — the part refers to owners or members.

## Main results

* `MetadataImage.isDecoded_of_decode` — the tables of a decoded image come from decoding.
* `Graph.exists_value_of_isEdge` — owners and members can be read to begin with.
* `Graph.sound_empty_image` — a graph over a decoded image is sound to begin with.
-/

namespace ManagedImage

namespace MetadataImage

variable {image : MetadataImage} {config : Config} {source : MetadataStreams} {r : AnyRef}

theorem isDecoded_of_decode (h : decode config source = .ok image) : image.tables.IsDecoded := by
  rw [decode] at h
  cases hview : MetadataView.decode config source with
  | error e =>
    rw [hview] at h
    exact absurd h (by simp [Functor.map, Except.map])
  | ok view =>
    rw [hview] at h
    obtain rfl := Except.ok.inj h
    obtain ⟨tables, htables, hview⟩ := exists_of_bind_eq_ok hview
    obtain ⟨strings, -, hview⟩ := exists_of_bind_eq_ok hview
    obtain ⟨guids, -, hview⟩ := exists_of_bind_eq_ok hview
    obtain ⟨blobs, -, hview⟩ := exists_of_bind_eq_ok hview
    obtain rfl := Except.ok.inj hview
    exact (TablesStream.isDecoded_of_decode htables).2

/-- A module with two types, the second nested in the first. -/
def nestedPair : MetadataStreams where
  tables := #[0, 0, 0, 0, 2, 0, 0, 1,
    0x05, 0, 0, 0, 0, 2, 0, 0, 0, 0, 0, 0, 0, 0, 0, 0,
    1, 0, 0, 0, 2, 0, 0, 0, 1, 0, 0, 0,
    0, 0, 0, 0, 0, 0, 0, 0, 0, 0,
    0, 0, 0, 0, 0, 0, 0, 0, 0, 0, 1, 0, 1, 0,
    0, 0, 0, 0, 0, 0, 0, 0, 0, 0, 1, 0, 1, 0,
    2, 0, 1, 0]
  strings? := none
  guids? := none
  blobs? := none

/-- A row that a decoded image offers can be read. -/
theorem Offers.exists_row (h : image.Offers r) (hdecoded : image.tables.IsDecoded) :
    ∃ row, image.rowOf? r = some row := by
  obtain ⟨rid, hid, hpos, hrid⟩ := h
  obtain ⟨row, hrow⟩ := hdecoded.exists_row hpos hrid
  refine ⟨row, ?_⟩
  rw [rowOf?, hid]
  dsimp only
  rw [TablesStream.row?, hrow]
  rfl

end MetadataImage

/-- The part refers to owners or members.  Where they stand, the index of an image or a row number in
a column tells. -/
def Part.IsEdge {k : EntityKind} : Part k → Prop
  | .topLevelTypes | .module | .declaringType | .fields | .methods | .nestedClasses => True
  | .fieldOwner | .methodOwner | .nested | .enclosing => True
  | _ => False

/-- Owners and members can be loaded from every row of a decoded image. -/
theorem Part.IsEdge.exists_load {image : MetadataImage} (h : image.tables.IsDecoded)
    {k : EntityKind} {p : Part k} (hp : p.IsEdge) (row : Row) :
    ∃ v, p.attr.load image row = .ok v := by
  cases p with
  | topLevelTypes => exact ⟨_, Load.topLevel_eq h row⟩
  | module => exact ⟨_, Load.module_eq h row⟩
  | declaringType => exact ⟨_, Load.enclosing_eq h row⟩
  | fields => exact ⟨_, Load.members_eq h .fields row⟩
  | methods => exact ⟨_, Load.members_eq h .methods row⟩
  | nestedClasses => exact ⟨_, Load.records_eq h row⟩
  | fieldOwner => exact ⟨_, Load.owner_eq h .fields row⟩
  | methodOwner => exact ⟨_, Load.owner_eq h .methods row⟩
  | nested | enclosing => exact ⟨_, rfl⟩
  | _ => exact absurd hp id

namespace Graph

theorem not_isAlive_empty (image? : Option MetadataImage) (r : AnyRef) :
    (empty image?).isAlive r = false := by
  simp [isAlive, empty]

/-- Nothing has been loaded in a graph without entities. -/
theorem value_empty {k : EntityKind} (image? : Option MetadataImage) (p : Part k) (r : Ref k) :
    p.attr.value r (empty image?) = p.attr.loaded r image? := by
  rw [Attribute.value, stored_of_not_isAlive p (not_isAlive_empty image? r.any)]
  rfl

/-- Owners and members of what a decoded image offers can be read. -/
theorem exists_value_of_isEdge {image? : Option MetadataImage}
    (h : ∀ image ∈ image?, image.tables.IsDecoded) {k : EntityKind} {p : Part k} (hp : p.IsEdge)
    {r : Ref k} (hr : (empty image?).isPresent r.any) :
    ∃ v, p.attr.value r (empty image?) = .ok v := by
  rw [isPresent, not_isAlive_empty, Bool.false_or, Option.isSome_iff_exists] at hr
  obtain ⟨row, hrow⟩ := hr
  obtain ⟨image, himage, hrow⟩ := Option.bind_eq_some_iff.mp hrow
  have himage : image? = some image := himage
  obtain ⟨v, hv⟩ := hp.exists_load (h image himage) row
  refine ⟨v, ?_⟩
  rw [value_empty, himage]
  simp only [Attribute.loaded, hrow]
  exact hv

/-- A graph without entities is sound if what its image offers can be had. -/
theorem sound_empty {image? : Option MetadataImage}
    (h : ∀ image ∈ image?, ∀ r, image.Offers r → ∃ row, image.rowOf? r = some row) :
    (empty image?).Sound where
  grounded p r v hv := by
    have hr := isAlive_of_stored hv
    exact absurd hr (by simp [not_isAlive_empty])
  held p r v hv s hs := by
    rw [value_empty] at hv
    obtain ⟨image, himage, row, -, hload⟩ := exists_load_of_loaded (g := empty image?) hv
    have himage : image? = some image := himage
    -- nothing is held yet but what the image would make
    obtain ⟨row', hrow⟩ := h image himage s (offers_of_load hload s (p.held_subset_refs v hs))
    rw [isPresent, Bool.or_eq_true]
    right
    change (image?.bind _).isSome
    rw [himage, Option.bind_some, hrow]
    rfl
  fresh r hr := absurd hr (by simp [not_isAlive_empty])
  known p r v hv s hs n hn := by
    rw [value_empty] at hv
    obtain ⟨image, himage, row, -, hload⟩ := exists_load_of_loaded (g := empty image?) hv
    have hrow := (offers_of_load hload s hs).isRow
    rw [hn] at hrow
    exact absurd hrow Bool.false_ne_true

/-- **A graph over a decoded image is sound to begin with.** -/
theorem sound_empty_image {image : MetadataImage} {config : Config} {source : MetadataStreams}
    (h : MetadataImage.decode config source = .ok image) : (empty (some image)).Sound := by
  refine sound_empty fun image' himage' r hr => ?_
  obtain rfl := Option.some.inj himage'
  exact hr.exists_row (MetadataImage.isDecoded_of_decode h)

end Graph

end ManagedImage
