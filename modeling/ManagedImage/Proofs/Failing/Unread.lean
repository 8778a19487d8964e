import ManagedImage.Proofs.Failing.Transfers
import ManagedImage.Proofs.Nesting.Loaded

/-!
# A record that does not tell what it nests

The list of a type and the back-pointer of a record in it have been loaded, and what the record nests
has not.  Then the image goes.  What is left to be read is consistent, but the record cannot leave the
list without a failure, and it has left when the failure comes.

## Main definitions

* `Graph.Unread` — what has been loaded of the record.
* `Graph.HasRecord` — an image where this can happen.
* `Graph.halfLoaded` — and the graph where it does.

## Main results

* `Graph.Unread.runOn_detach` — the record has left the list when detaching it fails.
* `Graph.HasRecord.unread`, `Graph.HasRecord.fades` — the graph comes about with nothing written.
-/

namespace ManagedImage

namespace Graph

variable {g : Graph} {E : Ref .typeDef} {R : Ref .nestedClass} {l : List (Ref .nestedClass)}

/-- The list of a type and the back-pointer of a record in it have been loaded, but what the record
nests has not, and the image has gone. -/
structure Unread (g : Graph) (E : Ref .typeDef) (R : Ref .nestedClass)
    (l : List (Ref .nestedClass)) : Prop where
  /-- The image has gone. -/
  image : g.image? = none
  /-- The type exists. -/
  alive : g.isAlive E.any
  /-- The list of the type. -/
  list : Attribute.TypeDef.nestedClasses.stored E g = .evaluated l
  /-- The record is in the list. -/
  mem : R ∈ l
  /-- The back-pointer of the record. -/
  owner : Attribute.NestedClass.enclosing.stored R g = .evaluated (some E)
  /-- What the record nests. -/
  nested : Attribute.NestedClass.nested.stored R g = .unevaluated

namespace Unread

theorem readout_records (h : g.Unread E R l) : g.readout.records E = .ok l := by
  simp only [readout, Attribute.value, h.list]

theorem readout_enclosing (h : g.Unread E R l) : g.readout.enclosing R = .ok (some E) := by
  simp only [readout, Attribute.value, h.owner]
  exact congrArg Except.ok (presentOnly_eq_self fun s hs => Option.some.inj hs ▸ h.alive)

theorem readout_nested (h : g.Unread E R l) : g.readout.nested R = .error .imageDropped := by
  simp only [readout, Attribute.value, h.nested, Attribute.loaded, h.image]

theorem runOn_owner (h : g.Unread E R l) :
    (recordOwnership.owner R).runOn g = (.ok (some E), g) := by
  have hread : (Attribute.NestedClass.enclosing.read R).runOn g = (.ok (some E), g) := by
    rw [runOn_read_eq .enclosing, h.owner]
  refine (Action.runOn_bind_ok hread).trans ?_
  rw [runOn_living fun s hs _ => List.mem_singleton.mp hs ▸ h.alive,
    presentOnly_eq_self fun s hs => Option.some.inj hs ▸ h.alive]

theorem runOn_take (h : g.Unread E R l) : (recordOwnership.take E R).runOn g =
    (.ok true, g.put .nestedClasses E (l.filter (· ≠ R))) := by
  have hread : (recordOwnership.items E).runOn g = (.ok l, g) := by
    change (Attribute.TypeDef.nestedClasses.read E).runOn g = _
    rw [runOn_read_eq .nestedClasses, h.list]
  unfold Ownership.take
  rw [Action.runOn_bind_ok hread, if_pos h.mem]
  rfl

/-- The type that the record nests should follow it. -/
theorem runOn_ownerChanged (h : g.Unread E R l) :
    (recordOwnership.ownerChanged R none).runOn (g.leftType E l R) =
      (.error .imageDropped, g.leftType E l R) := by
  have hloaded : Attribute.NestedClass.nested.loaded R (g.leftType E l R).image? =
      .error .imageDropped := by
    rw [show (g.leftType E l R).image? = none from h.image]
    rfl
  have hread : (Attribute.NestedClass.nested.read R).runOn (g.leftType E l R) =
      (.error .imageDropped, g.leftType E l R) := by
    rw [runOn_read_eq .nested, stored_nested_leftType, h.nested,
      runOn_fetch_error (p := .nested) hloaded]
  exact Action.runOn_bind_error hread

/-- **Detaching a record that does not tell what it nests** fails when the record has left the list
and its back-pointer is cleared. -/
theorem runOn_detach (h : g.Unread E R l) :
    (recordOwnership.detach R).runOn g = (.error .imageDropped, g.leftType E l R) := by
  have hremove : (recordOwnership.remove E R).runOn g = (.error .imageDropped, g.leftType E l R) := by
    unfold Ownership.remove
    rw [Action.runOn_bind_ok h.runOn_take]
    refine (Action.runOn_bind_ok (Action.runOn_change _ _)).trans ?_
    exact Action.runOn_bind_error h.runOn_ownerChanged
  unfold Ownership.detach
  rw [Action.runOn_bind_ok h.runOn_owner]
  exact hremove

end Unread

/-! ### How it comes about -/

variable {image : MetadataImage}

/-- A graph where the list of a type and the back-pointer of its record have been loaded, and nothing
else. -/
def halfLoaded (image : MetadataImage) (E : Ref .typeDef) (R : Ref .nestedClass) : Graph :=
  (((empty (some image)).materialise image [E.any, R.any]).put .nestedClasses E [R]).put
    .enclosing R (some E)

/-- The image has the record in the list of the type, and no other. -/
structure HasRecord (image : MetadataImage) (E : Ref .typeDef) (R : Ref .nestedClass) : Prop where
  /-- The list of the type. -/
  records : Attribute.TypeDef.nestedClasses.loaded E (some image) = .ok [R]
  /-- The back-pointer of the record. -/
  enclosing : Attribute.NestedClass.enclosing.loaded R (some image) = .ok (some E)

/-- The row of the type has one nesting record, and the row of the record has the type. -/
theorem hasRecord_of_rows (h : image.tables.IsDecoded) {type record : Row}
    (htype : image.rowOf? E.any = some type)
    (hrecord : image.rowOf? R.any = some record)
    (hlist : (image.nestingRids type.rid).filterMap (image.entityAt? .nestedClass) = [R])
    (howner : image.entityAt? .typeDef (record.column 1) = some E) : HasRecord image E R where
  records := by
    simp only [Attribute.loaded, htype]
    exact (Load.records_eq h type).trans (congrArg Except.ok hlist)
  enclosing := by
    simp only [Attribute.loaded, hrecord]
    exact congrArg Except.ok howner

namespace HasRecord

theorem isAlive_made (h : HasRecord image E R) :
    ((empty (some image)).materialise image [E.any, R.any]).isAlive E.any ∧
      ((empty (some image)).materialise image [E.any, R.any]).isAlive R.any := by
  have hE := isPresent_of_value ((value_empty (some image) .nestedClasses E).trans h.records)
  have hR := isPresent_of_value ((value_empty (some image) .enclosing R).trans h.enclosing)
  exact ⟨isAlive_materialise rfl (by simp) hE, isAlive_materialise rfl (by simp) hR⟩

theorem isAlive (h : HasRecord image E R) :
    (halfLoaded image E R).isAlive E.any ∧ (halfLoaded image E R).isAlive R.any :=
  h.isAlive_made.imp (fun hE => ((isAlive_put _).trans (isAlive_put _)).trans hE)
    fun hR => ((isAlive_put _).trans (isAlive_put _)).trans hR

/-- The values that are written are those that are loaded. -/
theorem loadsTo (h : HasRecord image E R) :
    (empty (some image)).LoadsTo (halfLoaded image E R) := by
  obtain ⟨hE, hR⟩ := h.isAlive_made
  have hmade := loadsTo_materialise (g := empty (some image)) rfl [E.any, R.any]
  have hlist := loadsTo_put hE ((hmade.value .nestedClasses E).trans
    ((value_empty (some image) .nestedClasses E).trans h.records))
  have howner := loadsTo_put ((isAlive_put _).trans hR) (((hmade.trans hlist).value .enclosing R).trans
    ((value_empty (some image) .enclosing R).trans h.enclosing))
  exact (hmade.trans hlist).trans howner

theorem sound (h : HasRecord image E R) (hsound : (empty (some image)).Sound) :
    (halfLoaded image E R).Sound := by
  obtain ⟨hE, hR⟩ := h.isAlive_made
  refine ((hsound.materialise rfl _).put_of_isAlive (p := .nestedClasses) hE ?_).put_of_isAlive
    (p := .enclosing) ((isAlive_put _).trans hR) ?_
  · exact fun s hs => List.mem_singleton.mp hs ▸ hR
  · exact fun s hs => (isAlive_put _).trans (List.mem_singleton.mp hs ▸ hE)

/-- Since nothing is written, what is left is as consistent as the image. -/
theorem fades (h : HasRecord image E R) (hsound : (empty (some image)).Sound) :
    (empty (some image)).Fades (halfLoaded image E R).dropImage :=
  .dropImage (.load .refl h.loadsTo (h.sound hsound))

/-- Entities are made without telling who is nested where. -/
theorem stored_materialise_of_isNesting {k : EntityKind} {refs : List AnyRef} {p : Part k}
    {r : Ref k} {v : p.Value} (hp : p.IsNesting)
    (h : p.attr.stored r (g.materialise image refs) = .evaluated v) :
    p.attr.stored r g = .evaluated v := by
  refine (stored_of_stored_materialise h).resolve_right fun ⟨row, hrow⟩ => ?_
  exact nomatch (Part.get_ofRow_of_isNesting hp image.config row).symm.trans hrow

/-- What the record nests has not been loaded. -/
theorem stored_nested_halfLoaded :
    Attribute.NestedClass.nested.stored R (halfLoaded image E R) = .unevaluated := by
  have hput : Attribute.NestedClass.nested.stored R (halfLoaded image E R) =
      Attribute.NestedClass.nested.stored R
        ((empty (some image)).materialise image [E.any, R.any]) :=
    (stored_put_of_ne_part (p := .enclosing) (q := .nested) nofun R).trans
      (stored_put_of_ne (p := .nestedClasses) (q := .nested)
        fun h => nomatch congrArg AnyRef.kind h)
  rw [hput]
  cases hstored : Attribute.NestedClass.nested.stored R
    ((empty (some image)).materialise image [E.any, R.any]) with
  | unevaluated => rfl
  | evaluated v =>
    have hold := stored_materialise_of_isNesting (p := .nested) trivial hstored
    exact nomatch (stored_of_not_isAlive .nested (not_isAlive_empty _ _)).symm.trans hold

/-- **Without the image** it cannot be read any more what the record nests. -/
theorem unread (h : HasRecord image E R) : (halfLoaded image E R).dropImage.Unread E R [R] where
  image := rfl
  alive := h.isAlive.1
  list := (stored_put_of_ne (p := .enclosing) (q := .nestedClasses)
    fun h => nomatch congrArg AnyRef.kind h).trans (stored_put_self (p := .nestedClasses)
      h.isAlive_made.1)
  mem := List.mem_cons_self
  owner := stored_put_self (p := .enclosing) ((isAlive_put _).trans h.isAlive_made.2)
  nested := stored_nested_halfLoaded

end HasRecord

end Graph

end ManagedImage
