import ManagedImage.Proofs.Failing.Glancing
import ManagedImage.Proofs.Nesting.Sweeping

/-!
# What is left to be read

When the image goes, and when entities go, less can be read of who is nested where.  What is left to
be read is as consistent as it was, and no type can be read to be in two places.

## Main definitions

* `Readout.IsPartOf` — what can be read is so in a nesting.
* `Readout.KeepsApart` — no type can be read to be in a module and nested.
* `Graph.IsConsistent` — what can be read is part of a consistent nesting.
* `Graph.Forgets` — what can be read could be read before.
* `Graph.Fades` — what may become of a graph in which nothing is written.
* `Nesting.withoutOwners` — a nesting after some owners have gone.

## Main results

* `Graph.Shows.isConsistent` — a graph that shows a consistent nesting is consistent.
* `Graph.IsConsistent.of_forgets` — a consistent graph stays consistent when it forgets.
* `Graph.forgets_dropImage`, `Graph.DropsTo.forgets`, `Graph.LoadsTo.forgets` — graphs that forget.
* `Graph.Fades.isConsistent` — **a consistent graph stays so while nothing is written.**
* `Graph.IsConsistent.keepsApart` — a type in a module is not nested.
-/

namespace ManagedImage

/-! ### Owners that go -/

namespace Nesting

variable {n : Nesting}

/-- What is left of a nesting of the owners that are still there. -/
def withoutOwners (n : Nesting) (there : AnyRef → Bool) : Nesting where
  types M := if there M.any then n.types M else []
  module T := (n.module T).filter (there ·.any)
  records E := if there E.any then n.records E else []
  enclosing R := (n.enclosing R).filter (there ·.any)
  nested := n.nested
  declaring T := (n.declaring T).filter (there ·.any)

/-- **What is left of a consistent nesting is consistent** when owners go. -/
theorem Consistent.withoutOwners (h : n.Consistent) (there : AnyRef → Bool) :
    (n.withoutOwners there).Consistent where
  mem_types := by
    intro M T
    simp only [Nesting.withoutOwners, mem_ite_nil, Option.filter_eq_some_iff, ← h.mem_types,
      and_comm]
  mem_records := by
    intro E R
    simp only [Nesting.withoutOwners, mem_ite_nil, Option.filter_eq_some_iff, ← h.mem_records,
      and_comm]
  declaring_eq_some := by
    intro T E
    simp only [Nesting.withoutOwners, mem_ite_nil, Option.filter_eq_some_iff, h.declaring_eq_some]
    exact ⟨fun ⟨⟨R, hR, hT⟩, hE⟩ => ⟨R, ⟨hE, hR⟩, hT⟩, fun ⟨R, ⟨hE, hR⟩, hT⟩ => ⟨⟨R, hR, hT⟩, hE⟩⟩
  unique := by
    have hold : ∀ R, (n.withoutOwners there).IsAttached R → n.IsAttached R := by
      intro R hR
      obtain ⟨E, hE⟩ := Option.isSome_iff_exists.mp hR
      exact Option.isSome_of_eq_some (Option.filter_eq_some_iff.mp hE).1
    exact fun {_ _ _} hR hS hRT hST => h.unique (hold _ hR) (hold _ hS) hRT hST
  exclusive T := by
    refine (h.exclusive T).imp (fun hT => ?_) fun hT => ?_ <;>
      simp only [Nesting.withoutOwners, hT, Option.filter_none]
  nodup_types M := by
    simp only [Nesting.withoutOwners]
    split
    · exact h.nodup_types M
    · exact List.nodup_nil
  nodup_records E := by
    simp only [Nesting.withoutOwners]
    split
    · exact h.nodup_records E
    · exact List.nodup_nil

end Nesting

/-! ### Parts of a nesting -/

/-- What can be read is so in the nesting. -/
structure Readout.IsPartOf (v : Readout) (n : Nesting) : Prop where
  /-- The lists of modules. -/
  types : ∀ {M l}, v.types M = .ok l → n.types M = l
  /-- The modules of types. -/
  module : ∀ {T M}, v.module T = .ok M → n.module T = M
  /-- The lists of types. -/
  records : ∀ {E l}, v.records E = .ok l → n.records E = l
  /-- The types that records point back at. -/
  enclosing : ∀ {R E}, v.enclosing R = .ok E → n.enclosing R = E
  /-- The types that records nest. -/
  nested : ∀ {R T}, v.nested R = .ok T → n.nested R = T
  /-- The types that enclose types. -/
  declaring : ∀ {T E}, v.declaring T = .ok E → n.declaring T = E

/-- No type can be read to be in a module and nested. -/
def Readout.KeepsApart (v : Readout) : Prop :=
  ∀ T M E, v.module T = .ok (some M) → v.declaring T = .ok E → E = none

namespace Graph

variable {k : EntityKind} {g g' : Graph} {n : Nesting}

/-- What can be read is part of a consistent nesting. -/
def IsConsistent (g : Graph) : Prop := ∃ n : Nesting, n.Consistent ∧ g.readout.IsPartOf n

theorem exists_of_presentOnly_eq_ok {x : Except Error (Option (Ref k))} {v : Option (Ref k)}
    (h : g.presentOnly <$> x = .ok v) : ∃ w, x = .ok w ∧ g.presentOnly w = v := by
  cases x with
  | error e => exact nomatch h
  | ok w => exact ⟨w, rfl, Except.ok.inj h⟩

/-- What can be read is part of the nesting of the graph. -/
theorem isPartOf_nesting (g : Graph) : g.readout.IsPartOf g.nesting where
  types h := valueD_of_value (p := .topLevelTypes) h []
  module h := by
    obtain ⟨w, hw, rfl⟩ := exists_of_presentOnly_eq_ok h
    exact congrArg g.presentOnly (valueD_of_value (p := .module) hw none)
  records h := valueD_of_value (p := .nestedClasses) h []
  enclosing h := by
    obtain ⟨w, hw, rfl⟩ := exists_of_presentOnly_eq_ok h
    exact congrArg g.presentOnly (valueD_of_value (p := .enclosing) hw none)
  nested h := valueD_of_value (p := .nested) h none
  declaring h := by
    obtain ⟨w, hw, rfl⟩ := exists_of_presentOnly_eq_ok h
    exact congrArg g.presentOnly (valueD_of_value (p := .declaringType) hw none)

/-- **A graph that shows a consistent nesting is consistent.** -/
theorem Shows.isConsistent (hg : g.Shows n) (hn : n.Consistent) : g.IsConsistent :=
  ⟨g.nesting, hg.nesting_eq ▸ hn, isPartOf_nesting g⟩

/-- **A type in a module is not nested**, as far as it can be read. -/
theorem IsConsistent.keepsApart (hg : g.IsConsistent) : g.readout.KeepsApart := by
  obtain ⟨n, hn, hpart⟩ := hg
  intro T M E hM hE
  rw [← hpart.declaring hE]
  exact (hn.exclusive T).resolve_left (by simp [hpart.module hM])

/-! ### Forgetting -/

/-- What can be read in `g'` could be read in `g`, and what can be had could be had. -/
structure Forgets (g g' : Graph) : Prop where
  /-- What can be had could be had. -/
  present : ∀ r, g'.isPresent r → g.isPresent r
  /-- What can be read could be read. -/
  value : ∀ {k : EntityKind} (p : Part k) (r : Ref k) (v : p.Value),
    p.attr.value r g' = .ok v → p.attr.value r g = .ok v

theorem LoadsTo.forgets (h : g.LoadsTo g') : g.Forgets g' :=
  ⟨fun r hr => (h.present r).symm.trans hr, fun p r _ hv => (h.value p r).symm.trans hv⟩

theorem DropsTo.forgets (h : g.DropsTo g') : g.Forgets g' :=
  ⟨fun _ => h.isPresent_of_isPresent,
    fun p _ _ hv => (h.value p (isPresent_of_value hv)).symm.trans hv⟩

theorem isPresent_dropImage (r : AnyRef) : g.dropImage.isPresent r = g.isAlive r := by
  simp [isPresent, dropImage, isAlive]

/-- What can be read without the image has been loaded. -/
theorem stored_of_value_dropImage {p : Part k} {r : Ref k} {v : p.Value}
    (h : p.attr.value r g.dropImage = .ok v) : p.attr.stored r g = .evaluated v := by
  have hsame : p.attr.stored r g.dropImage = p.attr.stored r g := rfl
  rw [Attribute.value, hsame] at h
  cases hstored : p.attr.stored r g with
  | evaluated w =>
    rw [hstored] at h
    exact congrArg _ (Except.ok.inj h)
  | unevaluated =>
    rw [hstored] at h
    cases h

/-- A graph forgets when its image goes. -/
theorem forgets_dropImage (g : Graph) : g.Forgets g.dropImage where
  present r hr := isPresent_of_isAlive ((isPresent_dropImage r).symm.trans hr)
  value p r v hv := by rw [Attribute.value, stored_of_value_dropImage hv]

/-- **A graph stays sound when its image goes.** -/
theorem Sound.dropImage (hg : g.Sound) : g.dropImage.Sound where
  grounded _ _ _ _ s _ hp := (isPresent_dropImage s).symm.trans hp
  held p r v hv s hs := by
    have hstored := stored_of_value_dropImage hv
    have hp := hg.held p r v ((forgets_dropImage g).value p r v hv) s hs
    exact isPresent_of_isAlive (hg.grounded p r v hstored s (p.held_subset_refs v hs) hp)
  fresh := hg.fresh
  known p r v hv := hg.known p r v ((forgets_dropImage g).value p r v hv)

/-- **A consistent graph stays consistent when it forgets.**  What is gone owns nothing, so the
owners that are gone are taken out of the nesting. -/
theorem IsConsistent.of_forgets (hg : g.IsConsistent) (h : g.Forgets g') : g'.IsConsistent := by
  obtain ⟨n, hn, hpart⟩ := hg
  have howner : ∀ {k l : EntityKind} {a : Attribute l (Option (Ref k))} {r : Ref l}
      {v x : Option (Ref k)}, (∀ w, a.value r g' = .ok w → a.value r g = .ok w) →
      g'.presentOnly <$> a.value r g' = .ok v →
      (∀ w, g.presentOnly <$> a.value r g = .ok w → x = w) →
      x.filter (g'.isPresent ·.any) = v := by
    intro k l a r v x hvalue hv hx
    obtain ⟨w, hw, rfl⟩ := exists_of_presentOnly_eq_ok hv
    rw [presentOnly_eq_filter h.present, hx (g.presentOnly w) (by rw [hvalue w hw]; rfl)]
  refine ⟨n.withoutOwners g'.isPresent, hn.withoutOwners _, ?_, ?_, ?_, ?_, ?_, ?_⟩
  · intro M l hl
    exact (if_pos (isPresent_of_value (p := .topLevelTypes) hl)).trans
      (hpart.types (h.value .topLevelTypes M l hl))
  · exact fun hM => howner (h.value .module _) hM fun _ => hpart.module
  · intro E l hl
    exact (if_pos (isPresent_of_value (p := .nestedClasses) hl)).trans
      (hpart.records (h.value .nestedClasses E l hl))
  · exact fun hE => howner (h.value .enclosing _) hE fun _ => hpart.enclosing
  · exact fun hT => hpart.nested (h.value .nested _ _ hT)
  · exact fun hE => howner (h.value .declaringType _) hE fun _ => hpart.declaring

/-! ### Fading -/

/-- What may become of a graph in which nothing is written: something is loaded, entities that
nothing holds go, and the image goes. -/
inductive Fades (g : Graph) : Graph → Prop where
  /-- Nothing has happened yet. -/
  | refl : Fades g g
  /-- Something is loaded. -/
  | load {g₁ g₂ : Graph} (h : Fades g g₁) (hload : g₁.LoadsTo g₂) (hsound : g₂.Sound) : Fades g g₂
  /-- Entities go. -/
  | drop {g₁ g₂ : Graph} (h : Fades g g₁) (hdrops : g₁.DropsTo g₂) : Fades g g₂
  /-- The image goes. -/
  | dropImage {g₁ : Graph} (h : Fades g g₁) : Fades g g₁.dropImage

namespace Fades

theorem sound (h : g.Fades g') (hg : g.Sound) : g'.Sound := by
  induction h with
  | refl => exact hg
  | load _ _ hsound _ => exact hsound
  | drop _ hdrops ih => exact hdrops.sound ih
  | dropImage _ ih => exact ih.dropImage

/-- **A consistent graph stays consistent while nothing is written**, whatever is loaded, and in
whatever order entities and the image go. -/
theorem isConsistent (h : g.Fades g') (hg : g.IsConsistent) : g'.IsConsistent := by
  induction h with
  | refl => exact hg
  | load _ hload _ ih => exact ih.of_forgets hload.forgets
  | drop _ hdrops ih => exact ih.of_forgets hdrops.forgets
  | dropImage _ ih => exact ih.of_forgets (forgets_dropImage _)

end Fades

end Graph

end ManagedImage
