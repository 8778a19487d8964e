import ManagedImage.Proofs.Graph.Authoring
import ManagedImage.Proofs.Graph.Reading
import ManagedImage.Proofs.Graph.Sweeping
import ManagedImage.Proofs.Identity.Keeping

/-!
# Entities of rows stay

As long as there is an image, an entity of a row that has been made stays in the graph, and no other
entity takes its place: what has been loaded or written in it is not forgotten.  Each entity of a row
is the one that its own token names.

## Main definitions

* `Graph.IsNamed` — the entities of rows have names.
* `Graph.Retains` — what is kept of the entities of rows from one graph to a later one.
* `Graph.retaining` — the same, as something that actions may keep.
* `Graph.RetainsPart` — what is done with an attribute keeps it.

## Main results

* `Graph.retains_materialise`, `Graph.retains_put`, `Graph.retains_authored`,
  `Graph.retains_withdraw`, `Graph.DropsTo.retains` — every change of a graph keeps it.
* `Graph.retainsPart` — so does using an attribute.
-/

namespace ManagedImage

namespace Graph

variable {k l : EntityKind} {g g' g'' : Graph} {image : MetadataImage} {refs : List AnyRef}

/-- The entities of rows have names in the image. -/
def IsNamed (g : Graph) : Prop :=
  ∀ image, g.image? = some image → ∀ r, r.id.isRow → g.isAlive r → image.Names r

/-- What is kept of the entities of rows. -/
structure Retains (g g' : Graph) : Prop where
  /-- The image is the same. -/
  image : g'.image? = g.image?
  /-- While there is an image, what comes from a row stays. -/
  alive : g.image?.isSome → ∀ r, r.id.isRow → g.isAlive r → g'.isAlive r
  /-- It is not made anew, as what has been loaded or written stays too. -/
  evaluated : g.image?.isSome → ∀ {k : EntityKind} (p : Part k) (r : Ref k), r.id.isRow →
    p.attr.stored r g ≠ .unevaluated → p.attr.stored r g' ≠ .unevaluated
  /-- It has a name. -/
  named : g.IsNamed → g'.IsNamed

namespace Retains

theorem refl (g : Graph) : g.Retains g :=
  ⟨rfl, fun _ _ _ h => h, fun _ _ _ _ _ h => h, fun h => h⟩

theorem trans (h : g.Retains g') (h' : g'.Retains g'') : g.Retains g'' where
  image := h'.image.trans h.image
  alive himage r hid hr := h'.alive (h.image ▸ himage) r hid (h.alive himage r hid hr)
  evaluated himage _ p r hid hr :=
    h'.evaluated (h.image ▸ himage) p r hid (h.evaluated himage p r hid hr)
  named hg := h'.named (h.named hg)

end Retains

/-- What actions on a graph keep of the entities of rows. -/
def retaining : Keeping Graph := ⟨Retains, .refl, .trans⟩

/-! ### Changes of a graph -/

/-- What is alive after some entities have been made was alive before, or is one of them. -/
theorem isAlive_or_mem_of_isAlive_materialise {r : AnyRef}
    (h : (g.materialise image refs).isAlive r) : g.isAlive r ∨ r ∈ refs := by
  induction refs generalizing g with
  | nil => exact Or.inl h
  | cons s refs ih =>
    rw [materialise_cons] at h
    rcases ih h with hone | hmem
    · rcases materialise_singleton image s g with ⟨heq, -⟩ | ⟨-, row, -, heq⟩
      · rw [heq] at hone
        exact Or.inl hone
      · rw [heq, isAlive_addRow, Bool.or_eq_true, beq_iff_eq] at hone
        rcases hone with rfl | hone
        · exact Or.inr List.mem_cons_self
        · exact Or.inl hone
    · exact Or.inr (List.mem_cons_of_mem s hmem)

/-- Entities that have names may be made. -/
theorem retains_materialise (himage : g.image? = some image) (hrefs : ∀ r ∈ refs, image.Names r) :
    g.Retains (g.materialise image refs) where
  image := rfl
  alive _ r _ hr := (loadsTo_materialise himage refs).alive r hr
  evaluated _ _ p r _ hr := by
    rwa [stored_materialise image refs p (isAlive_of_stored_ne hr)]
  named hg image' himage' r hid hr := by
    have himage' : g.image? = some image' := himage'
    rcases isAlive_or_mem_of_isAlive_materialise hr with hr | hr
    · exact hg image' himage' r hid hr
    · obtain rfl := Option.some.inj (himage.symm.trans himage')
      exact hrefs r hr

/-- Anything may be written. -/
theorem retains_put (p : Part k) (r : Ref k) (v : p.Value) : g.Retains (g.put p r v) where
  image := rfl
  alive _ s _ hs := (isAlive_put s).trans hs
  evaluated _ _ q s _ hs := stored_put_ne_unevaluated q s hs
  named hg image himage s hid hs := hg image himage s hid ((isAlive_put s).symm.trans hs)

/-- Only entities without a row are authored. -/
theorem retains_authored (e : k.Entity) : g.Retains (g.authored e) where
  image := rfl
  alive _ r _ hr := isAlive_authored_of_isAlive hr
  evaluated _ _ p r hid hr := by
    have hne : (g.next k).any ≠ r.any := by
      intro heq
      have hid' := congrArg AnyRef.id heq
      rw [show r.id = .authored g.nextNumber from hid'.symm] at hid
      exact Bool.false_ne_true hid
    rwa [stored_authored_of_ne p hne]
  named hg image himage r hid hr := by
    rw [isAlive_authored, Bool.or_eq_true, beq_iff_eq] at hr
    rcases hr with rfl | hr
    · exact absurd hid Bool.false_ne_true
    · exact hg image himage r hid hr

/-- Only entities without a row are taken back. -/
theorem retains_withdraw {r : Ref k} (hr : r.id.isRow = false) : g.Retains (g.withdraw r) := by
  have hne : ∀ s : AnyRef, s.id.isRow → r.any ≠ s := by
    rintro s hid rfl
    exact absurd hid (by rw [show r.any.id = r.id from rfl, hr]; exact Bool.false_ne_true)
  exact {
    image := rfl
    alive := fun _ s hid hs => (isAlive_withdraw (hne s hid)).trans hs
    evaluated := fun _ _ p s hid hs => by rwa [stored_withdraw p (hne s.any hid)]
    named := fun hg image himage s hid hs =>
      hg image himage s hid ((isAlive_withdraw (hne s hid)).symm.trans hs) }

/-- What only lets entities go lets no entity of a row go. -/
theorem DropsTo.retains (h : g.DropsTo g') : g.Retains g' where
  image := h.image
  alive himage r hid hr := h.rows r himage hid hr
  evaluated himage _ p r hid hr := by
    have hr' := h.rows r.any himage hid (isAlive_of_stored_ne hr)
    rwa [h.stored p hr']
  named hg image himage r hid hr := hg image (h.image ▸ himage) r hid (h.alive r hr)

/-! ### Using attributes -/

/-- What is done with the attribute keeps the entities of rows. -/
structure RetainsPart {α : Type} (a : Attribute k α) : Prop where
  /-- Loading a value makes entities that have names. -/
  fetch : ∀ r, retaining.Through (a.fetch r)
  /-- Any value may be written. -/
  write : ∀ r v, retaining.Through (a.write r v)

theorem retainsPart (p : Part k) : RetainsPart p.attr where
  fetch r := .of_runOn fun g => by
    cases hload : p.attr.loaded r g.image? with
    | error e =>
      rw [runOn_fetch_error hload]
      exact .refl g
    | ok v =>
      obtain ⟨image, himage, row, -, hrow⟩ := exists_load_of_loaded hload
      obtain ⟨image', himage', hfetch⟩ := runOn_fetch_ok hload
      obtain rfl := Option.some.inj (himage.symm.trans himage')
      rw [hfetch]
      exact retains_materialise himage (names_of_load hrow)
  write r v := .change fun _ => retains_put p r v

namespace RetainsPart

variable {α : Type} {a : Attribute k α}

theorem read (h : RetainsPart a) (r : Ref k) : retaining.Through (a.read r) := by
  unfold Attribute.read Deferred.force
  refine Keeping.Through.get.bind fun g => ?_
  split
  · exact .pure _
  · exact (h.fetch r).bind fun v => (h.write r v).bind fun _ => .pure v

theorem update (h : RetainsPart a) (r : Ref k) (f : α → α) : retaining.Through (a.update r f) :=
  (h.read r).bind fun v => (h.write r (f v)).bind fun _ => .pure (f v)

end RetainsPart

end Graph

end ManagedImage
