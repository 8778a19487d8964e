import ManagedImage.Graph.Entity
import ManagedImage.Graph.Image
import Std.Data.DHashMap

/-!
# Graphs of entities

A graph holds the entities that exist at a time.  Entities of rows come into
being when they are first asked for, once per row, and stay as long as the
image does; authored entities are added with numbers of their own.

## Main definitions

* `EntityKind.ofRow` — the contents of an entity that has just been made from its row.
* `Graph` — an image, if it is still there, and the entities.
* `Graph.materialise` — makes the entities of rows that do not exist yet.
* `Graph.author` — adds an entity without a row.

## Main results

* `Graph.entity?_modifyEntity_self`, `Graph.entity?_modifyEntity_of_ne` — a change of one entity
  changes that entity only.
-/

namespace ManagedImage

/-- A number that should fit into 16 bits; one that does not is cut to the largest. -/
def saturate16 (n : UInt32) : UInt16 := if n.toNat < 65536 then n.toUInt16 else 65535

namespace EntityKind

/-- The contents of an entity made from its row.  The numbers in the row are there; texts, byte
strings and everything that refers to other rows is still to be loaded. -/
def ofRow (config : Config) (r : Row) : (k : EntityKind) → k.Entity
  | module => {
      generation := .evaluated (saturate16 (r.column 0))
      name := .unevaluated
      mvid := .unevaluated
      encId := .unevaluated
      encBaseId := .unevaluated
      topLevelTypes := .unevaluated
      maxDepth := config.maxNestingDepth }
  | typeRef => {
      name := .unevaluated
      namespaceName := .unevaluated
      resolutionScope := .unevaluated }
  | typeDef => {
      flags := .evaluated (r.column 0)
      name := .unevaluated
      namespaceName := .unevaluated
      baseType := .unevaluated
      module := .unevaluated
      declaringType := .unevaluated
      fields := .unevaluated
      methods := .unevaluated
      nestedClasses := .unevaluated
      maxDepth := config.maxNestingDepth }
  | field => {
      flags := .evaluated (saturate16 (r.column 0))
      name := .unevaluated
      signature := .unevaluated
      declaringType := .unevaluated }
  | methodDef => {
      rva := .evaluated (r.column 0)
      implFlags := .evaluated (saturate16 (r.column 1))
      flags := .evaluated (saturate16 (r.column 2))
      name := .unevaluated
      signature := .unevaluated
      declaringType := .unevaluated }
  | nestedClass => {
      nested := .unevaluated
      enclosing := .unevaluated }
  | moduleRef => {
      name := .unevaluated }
  | assemblyRef => {
      version := .evaluated ⟨saturate16 (r.column 0), saturate16 (r.column 1),
        saturate16 (r.column 2), saturate16 (r.column 3)⟩
      flags := .evaluated (r.column 4)
      publicKeyOrToken := .unevaluated
      name := .unevaluated
      culture := .unevaluated
      hashValue := .unevaluated }

end EntityKind

/-- The row of an entity, if the entity has one. -/
def MetadataImage.rowOf? (i : MetadataImage) (r : AnyRef) : Option Row :=
  match r.id with
  | .row rid => i.tables.row? r.kind.table rid
  | .authored _ => none

/-- The entities that exist, over an image that may be gone. -/
structure Graph where
  /-- The image, while it is there. -/
  image? : Option MetadataImage
  /-- The entities. -/
  entities : Std.DHashMap AnyRef fun r => r.kind.Entity
  /-- The number of the next authored entity. -/
  nextNumber : Nat

/-- An action on a graph. -/
abbrev GraphAction (α : Type) := Action Graph Error α

namespace Graph

variable {k : EntityKind}

/-- A graph without entities. -/
def empty (image? : Option MetadataImage) : Graph := ⟨image?, ∅, 0⟩

/-- The contents of an entity that exists. -/
def entity? (g : Graph) (r : Ref k) : Option k.Entity := g.entities.get? r.any

/-- The entity exists. -/
def isAlive (g : Graph) (r : AnyRef) : Bool := g.entities.contains r

/-- Changes an entity that exists. -/
def modifyEntity (g : Graph) (r : Ref k) (f : k.Entity → k.Entity) : Graph :=
  { g with entities := g.entities.modify r.any f }

/-- Makes the entities of rows that do not exist yet. -/
def materialise (image : MetadataImage) (refs : List AnyRef) (g : Graph) : Graph :=
  { g with
    entities := refs.foldl
      (fun entities r =>
        if entities.contains r then entities
        else match image.rowOf? r with
          | some row => entities.insert r (r.kind.ofRow image.config row)
          | none => entities)
      g.entities }

/-- The entity that a token names, made if needed. -/
def resolve (t : Token) : StateM Graph (Option AnyRef) := fun g =>
  match g.image? with
  | none => (none, g)
  | some image =>
    let r := image.resolve? t
    (r, g.materialise image r.toList)

/-- The entity that a coded index refers to, made if needed. -/
def resolveCoded (kind : CodedKind) (value : UInt32) : GraphAction (Option AnyRef) := fun g =>
  match g.image? with
  | none => (.error .imageDropped, g)
  | some image =>
    match image.resolveCoded kind value with
    | .ok r => (.ok r, g.materialise image r.toList)
    | .error e => (.error e, g)

/-- Adds an entity without a row. -/
def author (contents : k.Entity) : GraphAction (Ref k) := fun g =>
  let r : Ref k := ⟨.authored g.nextNumber⟩
  (.ok r, { g with
    entities := g.entities.insert r.any contents
    nextNumber := g.nextNumber + 1 })

/-- Takes back the authored entity that was added last. -/
def withdraw (r : Ref k) (g : Graph) : Graph :=
  { g with entities := g.entities.erase r.any, nextNumber := g.nextNumber - 1 }

/-- How many entities of rows exist. -/
def rowEntityCount (g : Graph) : Nat :=
  g.entities.fold (fun n r _ => if r.id.isRow then n + 1 else n) 0

/-- The image is let go. -/
def dropImage (g : Graph) : Graph := { g with image? := none }

@[simp] theorem image?_modifyEntity (g : Graph) (r : Ref k) (f : k.Entity → k.Entity) :
    (g.modifyEntity r f).image? = g.image? := rfl

@[simp] theorem isAlive_modifyEntity (g : Graph) (r : Ref k) (f : k.Entity → k.Entity)
    (s : AnyRef) : (g.modifyEntity r f).isAlive s = g.isAlive s :=
  Std.DHashMap.contains_modify

@[simp] theorem entity?_modifyEntity_self (g : Graph) (r : Ref k) (f : k.Entity → k.Entity) :
    (g.modifyEntity r f).entity? r = (g.entity? r).map f :=
  Std.DHashMap.get?_modify_self

theorem entity?_modifyEntity_of_ne (g : Graph) {l : EntityKind} {r : Ref k} {s : Ref l}
    (f : k.Entity → k.Entity) (h : r.any ≠ s.any) :
    (g.modifyEntity r f).entity? s = g.entity? s :=
  Std.DHashMap.get?_modify.trans (by simp [h, entity?])

theorem isSome_entity? (g : Graph) (r : Ref k) : (g.entity? r).isSome = g.isAlive r.any :=
  Std.DHashMap.contains_eq_isSome_get?.symm

end Graph

end ManagedImage
