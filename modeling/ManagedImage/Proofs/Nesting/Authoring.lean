import ManagedImage.Proofs.Graph.Authoring
import ManagedImage.Proofs.Nesting.View

/-!
# Authoring and nesting

A module, a type or a nesting record that is authored owns nothing, and nothing owns it.

## Main results

* `Graph.Shows.authored_module`, `Graph.Shows.authored_typeDef` — the nesting stays as it was.
* `Graph.Shows.authored_nestedClass` — the new record nests its type, and is in no list.
-/

namespace ManagedImage

namespace Graph

variable {k l : EntityKind} {g : Graph} {n : Nesting}

section Authored

variable {e : k.Entity}

theorem valueD_next (hg : g.Sound) (p : Part k) (d : p.Value) : g.valueD p (g.next k) d = d := by
  rw [valueD, value_of_not_isPresent p (hg.isPresent_next k)]
  rfl

theorem valueD_authored_same {p : Part k} {v : p.Value} (h : p.attr.get e = .evaluated v)
    (s : Ref k) (d : p.Value) :
    (g.authored e).valueD p s d = if s = g.next k then v else g.valueD p s d := by
  by_cases hs : s = g.next k
  · subst hs
    rw [if_pos rfl, valueD, value_authored_next h]
    rfl
  · have hne : (g.next k).any ≠ s.any := fun he => hs (Ref.any_injective he).symm
    rw [if_neg hs, valueD, value_authored_of_ne p hne, valueD]

theorem valueD_authored_of_ne_kind (h : k ≠ l) (q : Part l) (s : Ref l) (d : q.Value) :
    (g.authored e).valueD q s d = g.valueD q s d := by
  have hne : (g.next k).any ≠ s.any := fun he => h (congrArg AnyRef.kind he)
  rw [valueD, value_authored_of_ne q hne, valueD]

/-- Authoring an entity with the values that it counts as having already changes no value. -/
theorem valueD_authored_eq (hg : g.Sound) {p : Part k} {d : p.Value}
    (h : p.attr.get e = .evaluated d) (s : Ref k) :
    (g.authored e).valueD p s d = g.valueD p s d := by
  rw [valueD_authored_same h]
  split
  · next hs => rw [hs, valueD_next hg]
  · rfl

/-- What is referred to is not the new entity. -/
theorem presentOnly_authored {s : Option (Ref l)}
    (hs : ∀ x ∈ Attribute.optionalRef s, g.hasNumber x) :
    (g.authored e).presentOnly s = g.presentOnly s := by
  cases s with
  | none => rfl
  | some x =>
    have hne := next_ne_of_hasNumber (k := k) (hs x.any (List.mem_singleton_self _))
    simp [presentOnly, Option.filter, isPresent_authored, hne]

theorem hasNumber_of_mem_valueD (hg : g.Sound) (p : Part k) (r : Ref k) (d : p.Value)
    (hd : p.attr.refs d = []) : ∀ s ∈ p.attr.refs (g.valueD p r d), g.hasNumber s := by
  intro s hs
  unfold valueD at hs
  cases hv : p.attr.value r g with
  | error _ =>
    rw [hv] at hs
    exact absurd (hd ▸ hs) List.not_mem_nil
  | ok v =>
    rw [hv] at hs
    exact hg.known p r v hv s hs

theorem Resolvable.authored (hg : g.Resolvable) (he : g.Admits e) : (g.authored e).Resolvable := by
  intro l p r hp hr
  by_cases hne : (g.next k).any = r.any
  · obtain rfl : k = l := congrArg AnyRef.kind hne
    obtain rfl := Ref.any_injective hne
    obtain ⟨v, hv, -⟩ := he p
    exact ⟨v, value_authored_next hv⟩
  · rw [value_authored_of_ne p hne]
    rw [isPresent_authored, beq_eq_false_iff_ne.mpr hne, Bool.false_or] at hr
    exact hg l p r hp hr

theorem keeps_authored : g.Keeps (g.authored e) where
  alive _ hs := isAlive_authored_of_isAlive hs
  number := Nat.le_succ _
  present s hs := by
    rw [isPresent_authored, Bool.or_eq_true, beq_iff_eq] at hs
    exact hs.symm.imp_right fun he hnumber => next_ne_of_hasNumber hnumber he

end Authored

/-- Where an entity that is authored has the values that it counts as having already, it adds no
more to the nesting than what it nests. -/
theorem nesting_authored (hg : g.Sound) {e : k.Entity}
    (htypes : ∀ M, (g.authored e).valueD .topLevelTypes M [] = g.valueD .topLevelTypes M [])
    (hmodule : ∀ T, (g.authored e).valueD .module T none = g.valueD .module T none)
    (hrecords : ∀ E, (g.authored e).valueD .nestedClasses E [] = g.valueD .nestedClasses E [])
    (henclosing : ∀ R, (g.authored e).valueD .enclosing R none = g.valueD .enclosing R none)
    (hdeclaring : ∀ T,
      (g.authored e).valueD .declaringType T none = g.valueD .declaringType T none) :
    (g.authored e).nesting =
      { g.nesting with nested := fun R => (g.authored e).valueD .nested R none } := by
  simp only [nesting, htypes, hmodule, hrecords, henclosing, hdeclaring,
    presentOnly_authored (hasNumber_of_mem_valueD hg .module _ none rfl),
    presentOnly_authored (hasNumber_of_mem_valueD hg .enclosing _ none rfl),
    presentOnly_authored (hasNumber_of_mem_valueD hg .declaringType _ none rfl)]

/-- A module that is authored is empty. -/
theorem Shows.authored_module (hg : g.Shows n) (name : String) (mvid : Option Guid) :
    (g.authored (k := .module) (Entity.Module.authored name mvid)).Shows n := by
  have he := admits_module (g := g) name mvid
  refine ⟨hg.sound.authored he, hg.resolvable.authored he, ?_⟩
  rw [← hg.nesting_eq, nesting_authored hg.sound
    (fun M => valueD_authored_eq hg.sound (p := .topLevelTypes) rfl M)
    (fun _ => valueD_authored_of_ne_kind (by decide) _ _ _)
    (fun _ => valueD_authored_of_ne_kind (by decide) _ _ _)
    (fun _ => valueD_authored_of_ne_kind (by decide) _ _ _)
    (fun _ => valueD_authored_of_ne_kind (by decide) _ _ _)]
  have hnested := fun R => valueD_authored_of_ne_kind (g := g) (k := .module)
    (e := Entity.Module.authored name mvid) (by decide) .nested R none
  simp only [hnested]
  rfl

/-- A type that is authored is nowhere, and nothing is nested in it. -/
theorem Shows.authored_typeDef (hg : g.Shows n) (namespaceName name : String) (flags : UInt32) :
    (g.authored (k := .typeDef) (Entity.TypeDef.authored namespaceName name flags)).Shows n := by
  have he := admits_typeDef (g := g) namespaceName name flags
  refine ⟨hg.sound.authored he, hg.resolvable.authored he, ?_⟩
  rw [← hg.nesting_eq, nesting_authored hg.sound
    (fun _ => valueD_authored_of_ne_kind (by decide) _ _ _)
    (fun T => valueD_authored_eq hg.sound (p := .module) rfl T)
    (fun E => valueD_authored_eq hg.sound (p := .nestedClasses) rfl E)
    (fun _ => valueD_authored_of_ne_kind (by decide) _ _ _)
    (fun T => valueD_authored_eq hg.sound (p := .declaringType) rfl T)]
  have hnested := fun R => valueD_authored_of_ne_kind (g := g) (k := .typeDef)
    (e := Entity.TypeDef.authored namespaceName name flags) (by decide) .nested R none
  simp only [hnested]
  rfl

/-- A record that is authored is in no list, and it nests its type. -/
theorem Shows.authored_nestedClass (hg : g.Shows n) {T : Ref .typeDef} (hT : g.isAlive T.any) :
    (g.authored (k := .nestedClass) (Entity.NestedClass.authored T)).Shows
      (n.setNested (g.next .nestedClass) (some T)) := by
  have he := admits_nestedClass hT
  refine ⟨hg.sound.authored he, hg.resolvable.authored he, ?_⟩
  rw [← hg.nesting_eq, nesting_authored hg.sound
    (fun _ => valueD_authored_of_ne_kind (by decide) _ _ _)
    (fun _ => valueD_authored_of_ne_kind (by decide) _ _ _)
    (fun _ => valueD_authored_of_ne_kind (by decide) _ _ _)
    (fun R => valueD_authored_eq hg.sound (p := .enclosing) rfl R)
    (fun _ => valueD_authored_of_ne_kind (by decide) _ _ _)]
  have hnested := fun R => valueD_authored_same (g := g) (k := .nestedClass)
    (e := Entity.NestedClass.authored T) (p := .nested) rfl R none
  simp only [hnested]
  rfl

/-- The next record is in no list. -/
theorem Shows.enclosing_next (hg : g.Shows n) : n.enclosing (g.next .nestedClass) = none := by
  rw [← hg.nesting_eq]
  change g.presentOnly (g.valueD .enclosing (g.next .nestedClass) none) = none
  rw [valueD_next hg.sound]
  rfl

/-- The next type is not nested. -/
theorem Shows.declaring_next (hg : g.Shows n) : n.declaring (g.next .typeDef) = none := by
  rw [← hg.nesting_eq]
  change g.presentOnly (g.valueD .declaringType (g.next .typeDef) none) = none
  rw [valueD_next hg.sound]
  rfl

end Graph

end ManagedImage
