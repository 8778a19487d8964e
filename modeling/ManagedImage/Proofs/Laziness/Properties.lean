import ManagedImage.Proofs.Laziness.Nesting
import ManagedImage.Session.Report

/-!
# Attributes and lists by name

A user names the attributes and the lists of an entity.  Whatever they name is read and written alike
in twins, and shown alike.

## Main definitions

* `Answer.IsLiving` — an entity that an answer consists of exists.
* `Graph.MirrorsPart`, `Graph.MirrorsList` — an attribute or a list is read alike in twins.

## Main results

* `Graph.mirrorsPart_table`, `Graph.mirrorsList_table` — this holds of everything with a name.
* `Graph.Twins.answer_eq` — a value is shown alike.
-/

namespace ManagedImage

/-- An entity that the answer consists of exists. -/
def Answer.IsLiving (a : Answer) (g : Graph) : Prop := ∀ r, a = .entity r → g.isAlive r

theorem Answer.isLiving_ofRef? {g : Graph} {r : Option AnyRef} (h : ∀ s ∈ r, g.isAlive s) :
    (Answer.ofRef? r).IsLiving g := by
  intro s hs
  cases r with
  | none => exact nomatch hs
  | some t =>
    obtain rfl := Answer.entity.inj hs
    exact h t rfl

theorem Report.isLiving_ofRef? {k : EntityKind} {g : Graph} {r : Option (Ref k)}
    (h : ∀ s ∈ r, g.isAlive s.any) : (Report.ofRef? r).IsLiving g := by
  refine Answer.isLiving_ofRef? fun s hs => ?_
  obtain ⟨t, ht, rfl⟩ := Option.map_eq_some_iff.mp hs
  exact h t ht

/-- The entities that a value refers to. -/
def ValueKind.refs : (k : ValueKind) → k.Value → List AnyRef
  | .reference, r => r.toList
  | _, _ => []

namespace Graph

variable {k : EntityKind} {image : MetadataImage} {g e : Graph}

/-! ### Attributes -/

/-- A part of an entity is read and written alike in twins. -/
structure MirrorsPart (image : MetadataImage) {α : Type} (a : Attribute k α)
    (refs : α → List AnyRef) : Prop where
  /-- What the value refers to is known. -/
  read : ∀ {g e : Graph} {r : Ref k}, Twins image g e → g.isAlive r.any →
    (twins image).Matches (a.read r) g e (fun v g' => ∀ s ∈ refs v, g'.IsKnown s) fun _ => True
  /-- What refers to known entities can be written. -/
  write : ∀ {g e : Graph} {r : Ref k} {v : α}, Twins image g e → g.isAlive r.any →
    (∀ s ∈ refs v, g.IsKnown s) →
    (twins image).Matches (a.write r v) g e (fun _ _ => True) fun _ => True

theorem mirrorsPart (p : Part k) (hp : ∀ v, p.held v = []) :
    MirrorsPart image p.attr p.attr.refs where
  read h hr := (h.read p hr fun _ _ => trivial).weaken fun _ _ _ hv => hv.1
  write {_ _ _ v} h hr hv := h.write p hr hv fun s hs => by
    rw [hp v] at hs
    exact absurd hs List.not_mem_nil

/-- Every attribute with a name is read and written alike. -/
theorem mirrorsPart_table :
    ∀ p ∈ Property.table k, MirrorsPart image p.2.part p.2.valueKind.refs := by
  cases k with
  | module =>
    simp only [Property.table, List.forall_mem_cons]
    exact ⟨mirrorsPart .generation fun _ => rfl, mirrorsPart .moduleName fun _ => rfl,
      mirrorsPart .mvid fun _ => rfl, mirrorsPart .encId fun _ => rfl,
      mirrorsPart .encBaseId fun _ => rfl, nofun⟩
  | typeRef =>
    simp only [Property.table, List.forall_mem_cons]
    exact ⟨mirrorsPart .typeRefName fun _ => rfl, mirrorsPart .typeRefNamespace fun _ => rfl,
      mirrorsPart .resolutionScope fun _ => rfl, nofun⟩
  | typeDef =>
    simp only [Property.table, List.forall_mem_cons]
    exact ⟨mirrorsPart .typeFlags fun _ => rfl, mirrorsPart .typeName fun _ => rfl,
      mirrorsPart .typeNamespace fun _ => rfl, mirrorsPart .baseType fun _ => rfl, nofun⟩
  | field =>
    simp only [Property.table, List.forall_mem_cons]
    exact ⟨mirrorsPart .fieldFlags fun _ => rfl, mirrorsPart .fieldName fun _ => rfl,
      mirrorsPart .fieldSignature fun _ => rfl, nofun⟩
  | methodDef =>
    simp only [Property.table, List.forall_mem_cons]
    exact ⟨mirrorsPart .rva fun _ => rfl, mirrorsPart .implFlags fun _ => rfl,
      mirrorsPart .methodFlags fun _ => rfl, mirrorsPart .methodName fun _ => rfl,
      mirrorsPart .methodSignature fun _ => rfl, nofun⟩
  | nestedClass => exact nofun
  | moduleRef =>
    simp only [Property.table, List.forall_mem_cons]
    exact ⟨mirrorsPart .moduleRefName fun _ => rfl, nofun⟩
  | assemblyRef =>
    simp only [Property.table, List.forall_mem_cons]
    exact ⟨mirrorsPart .version fun _ => rfl, mirrorsPart .assemblyFlags fun _ => rfl,
      mirrorsPart .publicKeyOrToken fun _ => rfl, mirrorsPart .assemblyName fun _ => rfl,
      mirrorsPart .culture fun _ => rfl, mirrorsPart .hashValue fun _ => rfl, nofun⟩

/-- An attribute is updated alike, if its new value refers to nothing new. -/
theorem MirrorsPart.update {α : Type} {a : Attribute k α} {refs : α → List AnyRef}
    (ha : MirrorsPart image a refs) (h : Twins image g e) {r : Ref k} (hr : g.isAlive r.any)
    {f : α → α} (hf : ∀ v, refs (f v) ⊆ refs v) :
    (twins image).Matches (a.update r f) g e (fun v g' => ∀ s ∈ refs v, g'.IsKnown s)
      fun _ => True := by
  change (twins image).Matches (do
    let value ← a.read r
    a.write r (f value)
    pure (f value)) g e _ _
  refine (ha.read h hr).bind fun v g₁ e₁ hk₁ h₁ hv => ?_
  have hknown : ∀ s ∈ refs (f v), g₁.IsKnown s := fun s hs => hv s (hf v hs)
  refine (ha.write h₁ (hk₁.alive _ hr) hknown).bind fun _ g₂ e₂ hk₂ h₂ _ => .pure h₂ ?_
  exact fun s hs => hk₂.isKnown (hknown s hs)

theorem refs_following (k : ValueKind) (v : k.Value) : k.refs (k.following v) ⊆ k.refs v := by
  cases k <;> exact List.Subset.refl _

/-- A value is shown alike, once what it refers to is known. -/
theorem Twins.answer_eq (h : Twins image g e) {k : ValueKind} {v : k.Value}
    (hv : ∀ s ∈ k.refs v, g.IsKnown s) : k.answer e v = k.answer g v := by
  cases k with
  | reference =>
    have hfilter := h.filter_isAlive fun s hs => hv s (Option.mem_toList.mpr hs)
    exact congrArg Answer.ofRef? hfilter
  | guid => cases v <;> rfl
  | _ => rfl

theorem isLiving_answer (g : Graph) (k : ValueKind) (v : k.Value) : (k.answer g v).IsLiving g := by
  cases k with
  | reference =>
    exact Answer.isLiving_ofRef? fun _ hs => (Option.mem_filter_iff.mp hs).2
  | guid => cases v <;> exact nofun
  | _ => exact nofun

/-! ### Lists -/

/-- The members in a list, and their names, are read alike in twins. -/
structure MirrorsList (image : MetadataImage) (list : ListProperty k) : Prop where
  /-- The members exist. -/
  read : ∀ {g e : Graph} {r : Ref k}, Twins image g e → g.isAlive r.any →
    (twins image).Matches (list.part.read r) g e (fun v g' => ∀ x ∈ v, g'.isAlive x.any)
      fun _ => True
  /-- If members have names, they can be asked for. -/
  name : ∀ a ∈ list.memberName?, ∀ {g e : Graph} {x : Ref list.memberKind}, Twins image g e →
    g.isAlive x.any → (twins image).Matches (a.read x) g e (fun _ _ => True) fun _ => True

theorem mirrorsList_table : ∀ p ∈ ListProperty.table k, MirrorsList image p.2 := by
  cases k with
  | module =>
    simp only [ListProperty.table, List.forall_mem_cons]
    refine ⟨⟨mirrorsEdge_topLevel.readMembers, ?_⟩, nofun⟩
    rintro a ⟨⟩
    exact fun h hx => h.ask .typeName hx
  | typeDef =>
    simp only [ListProperty.table, List.forall_mem_cons]
    refine ⟨⟨mirrorsEdge_fields.readMembers, ?_⟩, ⟨mirrorsEdge_methods.readMembers, ?_⟩,
      ⟨mirrorsEdge_nesting.readMembers, nofun⟩, nofun⟩
    · rintro a ⟨⟩
      exact fun h hx => h.ask .fieldName hx
    · rintro a ⟨⟩
      exact fun h hx => h.ask .methodName hx
  | _ => exact nofun

end Graph

end ManagedImage
