import ManagedImage.Graph.Attributes
import ManagedImage.Ownership.Basic

/-!
# Who owns whom in a graph

Modules own top-level types, types own fields, methods and nesting records.
Each of these edges has two sides, a list and a back-pointer, which are kept in
step by the operations on an `Ownership`.

## Main definitions

* `Edge` — the two sides of an owner-member relation between kinds of entities.
* `Edge.ownership` — how a graph holds the edge.
* `Edge.topLevel`, `Edge.fields`, `Edge.methods`, `Edge.nesting` — the four edges.
-/

namespace ManagedImage

/-- The two sides of an owner-member relation. -/
structure Edge (o m : EntityKind) where
  /-- The members of an owner. -/
  members : Attribute o (List (Ref m))
  /-- The owner of a member. -/
  owner : Attribute m (Option (Ref o))

/-- The entity that is referred to, while it exists. -/
def Graph.living {k : EntityKind} (r : Option (Ref k)) : GraphAction (Option (Ref k)) := do
  let g ← get
  return r.filter fun r => g.isAlive r.any

namespace Edge

variable {o m : EntityKind}

/-- How a graph holds the edge, with a hook that runs after the owner of a member has changed. -/
def ownership (e : Edge o m) (ownerChanged : Ref m → Option (Ref o) → GraphAction Unit) :
    Ownership Graph Error (Ref o) (Ref m) where
  isAlive r g := g.isAlive r.any
  items r := e.members.read r
  putItems r items := (e.members.cell r).set (.evaluated items)
  owner r := do Graph.living (← e.owner.read r)
  putOwner r owner := (e.owner.cell r).set (.evaluated owner)
  ownerChanged := ownerChanged
  ownerGone := .violation .ownerGone

/-- Modules own types that are not nested. -/
def topLevel : Edge .module .typeDef := ⟨Attribute.Module.topLevelTypes, Attribute.TypeDef.module⟩

/-- Types own fields. -/
def fields : Edge .typeDef .field := ⟨Attribute.TypeDef.fields, Attribute.Field.declaringType⟩

/-- Types own methods. -/
def methods : Edge .typeDef .methodDef :=
  ⟨Attribute.TypeDef.methods, Attribute.MethodDef.declaringType⟩

/-- Types own the records of the types nested in them. -/
def nesting : Edge .typeDef .nestedClass :=
  ⟨Attribute.TypeDef.nestedClasses, Attribute.NestedClass.enclosing⟩

end Edge

namespace Graph

/-- Fields in types. -/
def fieldOwnership : Ownership Graph Error (Ref .typeDef) (Ref .field) :=
  Edge.fields.ownership fun _ _ => pure ()

/-- Methods in types. -/
def methodOwnership : Ownership Graph Error (Ref .typeDef) (Ref .methodDef) :=
  Edge.methods.ownership fun _ _ => pure ()

/-- Types in modules. -/
def typeOwnership : Ownership Graph Error (Ref .module) (Ref .typeDef) :=
  Edge.topLevel.ownership fun _ _ => pure ()

/-- Nesting records in types.  When a record changes hands, the type that it nests follows. -/
def recordOwnership : Ownership Graph Error (Ref .typeDef) (Ref .nestedClass) :=
  Edge.nesting.ownership fun record enclosing => do
    match ← Attribute.NestedClass.nested.read record with
    | some type => Attribute.TypeDef.declaringType.write type enclosing
    | none => pure ()

end Graph

end ManagedImage
