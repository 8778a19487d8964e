import ManagedImage.Graph.Basic

/-!
# Attributes of entities

An attribute is one deferred part of the entities of a kind, together with how
it is loaded from the row of an entity.  Loading only looks at the image, never
at other entities, so it does not matter when it happens.

## Main definitions

* `Attribute k α` — an attribute of the entities of kind `k` with values in `α`.
* `Attribute.read`, `write`, `update` — the attribute of one entity in a graph.
* `Attribute.value` — what reading gives, as a function of the graph.

## Main results

* `Attribute.fst_runOn_read` — reading gives the value, whether it had to be loaded or not.
* `Attribute.stored_set_self`, `Attribute.stored_set_of_ne` — replacing the attribute of an entity
  changes nothing in another entity.
-/

namespace ManagedImage

/-- A deferred part of the entities of a kind. -/
structure Attribute (k : EntityKind) (α : Type) where
  /-- The part of an entity. -/
  get : k.Entity → Deferred α
  /-- Replaces the part. -/
  set : Deferred α → k.Entity → k.Entity
  /-- The value that the row of an entity stands for. -/
  load : MetadataImage → Row → Except Error α
  /-- The entities that a value refers to. -/
  refs : α → List AnyRef := fun _ => []
  /-- What is put in is there. -/
  get_set : ∀ d e, get (set d e) = d := by intros; rfl
  /-- What is there in an entity that has just been made is what would be loaded. -/
  load_of_get_ofRow : ∀ (i : MetadataImage) (r : Row) (value : α),
    get (k.ofRow i.config r) = .evaluated value → load i r = .ok value := by
      intro _ _ _ h; cases h <;> rfl

namespace Attribute

variable {k : EntityKind} {α : Type}

/-- The attribute of one entity as a part of a graph. -/
def cell (a : Attribute k α) (r : Ref k) : Cell Graph (Deferred α) where
  get g := ((g.entity? r).map a.get).getD .unevaluated
  set d g := g.modifyEntity r (a.set d)

/-- The value that the image gives; an entity without a row has none. -/
def loaded (a : Attribute k α) (r : Ref k) (image? : Option MetadataImage) : Except Error α :=
  match image? with
  | none => .error .imageDropped
  | some image =>
    match image.rowOf? r.any with
    | none => .error .imageDropped
    | some row => a.load image row

/-- Loads the value and makes the entities that it refers to. -/
def fetch (a : Attribute k α) (r : Ref k) : GraphAction α := fun g =>
  match a.loaded r g.image? with
  | .error e => (.error e, g)
  | .ok value =>
    match g.image? with
    | none => (.ok value, g)
    | some image => (.ok value, g.materialise image (a.refs value))

/-- Reads the attribute of an entity, loading it if needed. -/
def read (a : Attribute k α) (r : Ref k) : GraphAction α := Deferred.force (a.cell r) (a.fetch r)

/-- Replaces the attribute of an entity. -/
def write (a : Attribute k α) (r : Ref k) (value : α) : GraphAction Unit :=
  Action.change ((a.cell r).set (.evaluated value))

/-- Replaces the attribute of an entity by its image under `f`, and gives the new value. -/
def update (a : Attribute k α) (r : Ref k) (f : α → α) : GraphAction α :=
  Deferred.update (a.cell r) (a.fetch r) f

/-- The attribute of an entity as it stands. -/
def stored (a : Attribute k α) (r : Ref k) (g : Graph) : Deferred α := (a.cell r).get g

/-- What reading the attribute gives, without the changes that reading makes. -/
def value (a : Attribute k α) (r : Ref k) (g : Graph) : Except Error α :=
  match a.stored r g with
  | .evaluated value => .ok value
  | .unevaluated => a.loaded r g.image?

theorem stored_set_self {g : Graph} {a : Attribute k α} {r : Ref k} (d : Deferred α)
    (h : g.isAlive r.any) : a.stored r ((a.cell r).set d g) = d := by
  rw [← Graph.isSome_entity?, Option.isSome_iff_exists] at h
  obtain ⟨e, he⟩ := h
  simp [stored, cell, he, a.get_set]

theorem stored_set_of_ne {g : Graph} {l : EntityKind} {β : Type} {a : Attribute k α}
    {b : Attribute l β} {r : Ref k} {s : Ref l} (d : Deferred α) (h : r.any ≠ s.any) :
    b.stored s ((a.cell r).set d g) = b.stored s g := by
  simp [stored, cell, Graph.entity?_modifyEntity_of_ne g _ h]

/-- Reading gives the value of the attribute. -/
theorem fst_runOn_read (a : Attribute k α) (r : Ref k) (g : Graph) :
    ((a.read r).runOn g).1 = a.value r g := by
  rw [read, Deferred.force, Action.runOn_bind, Action.runOn_get, value]
  change (Action.runOn (match a.stored r g with
    | .evaluated value => pure value
    | .unevaluated => _) g).1 = _
  cases a.stored r g with
  | evaluated value => rfl
  | unevaluated =>
    rw [Action.runOn_bind]
    unfold fetch
    simp only [Action.runOn]
    cases a.loaded r g.image? with
    | error e => rfl
    | ok value => cases g.image? <;> rfl

end Attribute

end ManagedImage
