import ManagedImage.Graph.Liveness
import ManagedImage.Proofs.Graph.Offers

/-!
# Letting entities go

When nothing holds an entity it goes, and the rest of the graph stays as it was: an entity that goes
cannot be had again, and an entity that stays keeps what it holds.

## Main definitions

* `Graph.DropsTo` — one graph is another one with entities gone.

## Main results

* `Graph.dropsTo_sweep` — sweeping does nothing but let entities go.
* `Graph.DropsTo.sound` — and that keeps a graph sound.
-/

namespace ManagedImage

namespace Graph

variable {k : EntityKind} {g g' : Graph}

/-- Nothing but letting go of entities leads from `g` to `g'`. -/
structure DropsTo (g g' : Graph) : Prop where
  /-- The image is the same. -/
  image : g'.image? = g.image?
  /-- Nothing has been authored. -/
  number : g'.nextNumber = g.nextNumber
  /-- What exists existed before. -/
  alive : ∀ r, g'.isAlive r → g.isAlive r
  /-- What stays is as it was. -/
  entity : ∀ {k : EntityKind} (r : Ref k), g'.isAlive r.any → g'.entity? r = g.entity? r
  /-- The image holds what comes from its rows. -/
  rows : ∀ r, g.image?.isSome → r.id.isRow → g.isAlive r → g'.isAlive r
  /-- What stays keeps what it holds. -/
  held : ∀ {k : EntityKind} (r : Ref k) (e : k.Entity), g'.entity? r = some e →
    ∀ s ∈ k.held e, g.isAlive s → g'.isAlive s

namespace DropsTo

theorem refl (g : Graph) : g.DropsTo g :=
  ⟨rfl, rfl, fun _ h => h, fun _ _ => rfl, fun _ _ _ h => h, fun _ _ _ _ _ h => h⟩

/-- What goes cannot be had again. -/
theorem isAlive_of_isPresent (h : g.DropsTo g') {r : AnyRef} (hr : g.isAlive r)
    (hp : g'.isPresent r) : g'.isAlive r := by
  rw [isPresent, Bool.or_eq_true] at hp
  refine hp.elim id fun hrow => ?_
  obtain ⟨row, hrow⟩ := Option.isSome_iff_exists.mp hrow
  obtain ⟨image, himage, hrow⟩ := Option.bind_eq_some_iff.mp hrow
  rw [h.image] at himage
  refine h.rows r (Option.isSome_of_eq_some himage) ?_ hr
  cases hid : r.id with
  | row rid => rfl
  | authored n => exact absurd hrow (by simp [MetadataImage.rowOf?, hid])

theorem isPresent_of_isPresent (h : g.DropsTo g') {r : AnyRef} (hr : g'.isPresent r) :
    g.isPresent r := by
  rw [isPresent, Bool.or_eq_true] at hr ⊢
  rw [h.image] at hr
  exact hr.imp_left (h.alive r)

theorem trans {g'' : Graph} (h : g.DropsTo g') (h' : g'.DropsTo g'') : g.DropsTo g'' where
  image := h'.image.trans h.image
  number := h'.number.trans h.number
  alive r hr := h.alive r (h'.alive r hr)
  entity r hr := (h'.entity r hr).trans (h.entity r (h'.alive _ hr))
  rows r himage hid hr := h'.rows r (h.image ▸ himage) hid (h.rows r himage hid hr)
  held {k} r e he s hs halive := by
    have hr : g''.isAlive r.any := by rw [← isSome_entity?, he]; rfl
    have he' : g'.entity? r = some e := (h'.entity r hr).symm.trans he
    exact h'.held r e he s hs (h.held r e he' s hs halive)

end DropsTo

/-! ### What is held -/

theorem contains_foldl_insertMany {entities : List ((r : AnyRef) × r.kind.Entity)}
    {found : Std.HashSet AnyRef} {s : AnyRef} :
    (entities.foldl (fun found e => found.insertMany (e.1.kind.held e.2)) found).contains s =
      (found.contains s || entities.any fun e => (e.1.kind.held e.2).contains s) := by
  induction entities generalizing found with
  | nil => simp
  | cons e entities ih =>
    rw [List.foldl_cons, ih, Std.HashSet.contains_insertMany_list, List.any_cons, Bool.or_assoc]

/-- What an entity holds is held. -/
theorem contains_heldEntities {r : Ref k} {e : k.Entity} (he : g.entity? r = some e) {s : AnyRef}
    (hs : s ∈ k.held e) (outside : List AnyRef) : (g.heldEntities outside).contains s := by
  rw [heldEntities, Std.DHashMap.fold_eq_foldl_toList, contains_foldl_insertMany, Bool.or_eq_true,
    List.any_eq_true]
  refine Or.inr ⟨⟨r.any, e⟩, Std.DHashMap.mem_toList_iff_get?_eq_some.mpr he, ?_⟩
  exact List.contains_iff_mem.mpr hs

theorem entity?_keepHeld (outside : List AnyRef) (r : Ref k) :
    (g.keepHeld outside).entity? r =
      (g.entity? r).filter fun _ => g.heldByImage r.any || (g.heldEntities outside).contains r.any :=
  Std.DHashMap.get?_filter

theorem isAlive_keepHeld (outside : List AnyRef) (r : AnyRef) :
    (g.keepHeld outside).isAlive r ↔
      g.isAlive r ∧ (g.heldByImage r ∨ (g.heldEntities outside).contains r) := by
  rw [← r.any_typed, ← isSome_entity?, ← isSome_entity?, entity?_keepHeld]
  cases g.entity? r.typed <;> simp [Option.filter]

/-- One round of letting go. -/
theorem dropsTo_keepHeld (outside : List AnyRef) : g.DropsTo (g.keepHeld outside) where
  image := rfl
  number := rfl
  alive r hr := ((isAlive_keepHeld outside r).mp hr).1
  entity r hr := by
    have hkept := ((isAlive_keepHeld outside r.any).mp hr).2
    rw [← Bool.or_eq_true] at hkept
    rw [entity?_keepHeld, hkept]
    cases g.entity? r <;> rfl
  rows r himage hid hr :=
    (isAlive_keepHeld outside r).mpr ⟨hr, Or.inl (by rw [heldByImage, himage, hid]; rfl)⟩
  held r e he s hs halive := by
    rw [entity?_keepHeld, Option.filter_eq_some_iff] at he
    replace he := he.1
    exact (isAlive_keepHeld outside s).mpr ⟨halive, Or.inr (contains_heldEntities he hs outside)⟩

/-- **Sweeping does nothing but let entities go.** -/
theorem dropsTo_sweep (g : Graph) (outside : List AnyRef) : g.DropsTo (g.sweep outside) := by
  fun_induction sweep g outside with
  | case1 g kept hlt ih => exact (dropsTo_keepHeld outside).trans ih
  | case2 g => exact DropsTo.refl g

/-! ### What is left -/

namespace DropsTo

variable {p : Part k} {r : Ref k} {v : p.Value}

theorem stored (h : g.DropsTo g') (p : Part k) (hr : g'.isAlive r.any) :
    p.attr.stored r g' = p.attr.stored r g := by
  simp [Attribute.stored, Attribute.cell, h.entity r hr]

/-- What is loaded after some entities have gone was loaded before. -/
theorem stored_of_stored (h : g.DropsTo g') (hv : p.attr.stored r g' = .evaluated v) :
    p.attr.stored r g = .evaluated v := by
  rwa [h.stored p (isAlive_of_stored hv)] at hv

theorem value (h : g.DropsTo g') (p : Part k) (hr : g'.isPresent r.any) :
    p.attr.value r g' = p.attr.value r g := by
  cases halive : g'.isAlive r.any with
  | true => rw [Attribute.value, Attribute.value, h.stored p halive, h.image]
  | false =>
    have hdead : g.isAlive r.any = false := by
      rw [← Bool.not_eq_true] at halive ⊢
      exact fun hr' => halive (h.isAlive_of_isPresent hr' hr)
    rw [Attribute.value, Attribute.value, stored_of_not_isAlive p halive,
      stored_of_not_isAlive p hdead, h.image]

/-- What a value that is left holds is left. -/
theorem isPresent_of_held (h : g.DropsTo g') (hg : g.Sound) (hv : p.attr.value r g' = .ok v)
    {s : AnyRef} (hs : s ∈ p.held v) : g'.isPresent s := by
  have hr := isPresent_of_value hv
  have hold : p.attr.value r g = .ok v := (h.value p hr).symm.trans hv
  have hpresent := hg.held p r v hold s hs
  rw [isPresent, Bool.or_eq_true] at hpresent ⊢
  rw [h.image]
  refine hpresent.elim (fun halive => Or.inl ?_) Or.inr
  cases hstored : p.attr.stored r g with
  | evaluated w =>
    -- the entity that holds it has not gone
    rw [Attribute.value, hstored] at hold
    obtain rfl := Except.ok.inj hold
    have hr' := h.isAlive_of_isPresent (isAlive_of_stored hstored) hr
    obtain ⟨e, he⟩ := Option.isSome_iff_exists.mp ((isSome_entity? g' r).trans hr')
    have hstored' : p.attr.get e = .evaluated w := by
      rw [← h.stored p hr'] at hstored
      simpa [Attribute.stored, Attribute.cell, he] using hstored
    exact h.held r e he s (Part.held_subset_held hstored' hs) halive
  | unevaluated =>
    -- the image holds it
    rw [Attribute.value, hstored] at hold
    obtain ⟨image, himage, row, -, hload⟩ := exists_load_of_loaded hold
    exact h.rows s (Option.isSome_of_eq_some himage)
      (offers_of_load hload s (p.held_subset_refs v hs)).isRow halive

/-- **A graph stays sound when entities go.** -/
theorem sound (h : g.DropsTo g') (hg : g.Sound) : g'.Sound where
  grounded p r v hv s hs hp := h.isAlive_of_isPresent
    (hg.grounded p r v (h.stored_of_stored hv) s hs (h.isPresent_of_isPresent hp)) hp
  held p r v hv s hs := h.isPresent_of_held hg hv hs
  fresh r hr n hn := by
    rw [h.number]
    exact hg.fresh r (h.alive r hr) n hn
  known p r v hv s hs n hn := by
    rw [h.number]
    have hold := (h.value p (isPresent_of_value hv)).symm.trans hv
    exact hg.known p r v hold s hs n hn

end DropsTo

end Graph

end ManagedImage
