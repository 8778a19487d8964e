import ManagedImage.Deferred
import ManagedImage.Graph.Ref
import ManagedImage.Heap.Guids
import ManagedImage.Version

/-!
# The contents of entities

What an entity holds depends on its kind.  Every part that can be changed is a
deferred value, so that an entity may exist before its texts have been looked
up.  Entities point at each other by reference only.

## Main definitions

* `Entity.Module`, `Entity.TypeDef`, … — the contents of an entity of each kind.
* `EntityKind.Entity` — the contents that belong to a kind.
* `EntityKind.held` — the entities that an entity keeps alive.
-/

namespace ManagedImage

namespace Entity

/-- The contents of a module. -/
structure Module where
  /-- The generation in an edit session. -/
  generation : Deferred UInt16
  /-- The name. -/
  name : Deferred String
  /-- What tells this version of the module from all others. -/
  mvid : Deferred (Option Guid)
  /-- What tells this generation from all others. -/
  encId : Deferred (Option Guid)
  /-- The generation that this one was made from. -/
  encBaseId : Deferred (Option Guid)
  /-- The types that are not nested. -/
  topLevelTypes : Deferred (List (Ref .typeDef))
  /-- How many levels of nesting a walk may go down. -/
  maxDepth : Nat

/-- The contents of a reference to a type. -/
structure TypeRef where
  /-- The simple name. -/
  name : Deferred String
  /-- The namespace. -/
  namespaceName : Deferred String
  /-- Where the type is found. -/
  resolutionScope : Deferred (Option AnyRef)

/-- The contents of a type. -/
structure TypeDef where
  /-- Visibility, layout and other attributes. -/
  flags : Deferred UInt32
  /-- The simple name. -/
  name : Deferred String
  /-- The namespace. -/
  namespaceName : Deferred String
  /-- The type that this one extends. -/
  baseType : Deferred (Option AnyRef)
  /-- The module, for a top-level type. -/
  module : Deferred (Option (Ref .module))
  /-- The enclosing type, for a nested type. -/
  declaringType : Deferred (Option (Ref .typeDef))
  /-- The fields. -/
  fields : Deferred (List (Ref .field))
  /-- The methods. -/
  methods : Deferred (List (Ref .methodDef))
  /-- The records of the types nested in this one. -/
  nestedClasses : Deferred (List (Ref .nestedClass))
  /-- How many levels of nesting a walk may go up. -/
  maxDepth : Nat

/-- The contents of a field. -/
structure Field where
  /-- Visibility and other attributes. -/
  flags : Deferred UInt16
  /-- The name. -/
  name : Deferred String
  /-- The encoded signature. -/
  signature : Deferred Bytes
  /-- The type that owns the field. -/
  declaringType : Deferred (Option (Ref .typeDef))

/-- The contents of a method. -/
structure MethodDef where
  /-- The address of the body. -/
  rva : Deferred UInt32
  /-- How the body is implemented. -/
  implFlags : Deferred UInt16
  /-- Visibility and other attributes. -/
  flags : Deferred UInt16
  /-- The name. -/
  name : Deferred String
  /-- The encoded signature. -/
  signature : Deferred Bytes
  /-- The type that owns the method. -/
  declaringType : Deferred (Option (Ref .typeDef))

/-- The contents of a nesting record. -/
structure NestedClass where
  /-- The nested type. -/
  nested : Deferred (Option (Ref .typeDef))
  /-- The enclosing type, which owns the record. -/
  enclosing : Deferred (Option (Ref .typeDef))

/-- The contents of a reference to a module. -/
structure ModuleRef where
  /-- The name. -/
  name : Deferred String

/-- The contents of a reference to an assembly. -/
structure AssemblyRef where
  /-- The version asked for. -/
  version : Deferred AssemblyVersion
  /-- Attributes of the reference. -/
  flags : Deferred UInt32
  /-- The public key or its token, empty if the reference has none. -/
  publicKeyOrToken : Deferred Bytes
  /-- The simple name. -/
  name : Deferred String
  /-- The culture, empty for the neutral one. -/
  culture : Deferred String
  /-- The hash of the assembly. -/
  hashValue : Deferred Bytes

end Entity

namespace EntityKind

/-- The contents of the entities of a kind. -/
@[reducible] def Entity : EntityKind → Type
  | module => Entity.Module
  | typeRef => Entity.TypeRef
  | typeDef => Entity.TypeDef
  | field => Entity.Field
  | methodDef => Entity.MethodDef
  | nestedClass => Entity.NestedClass
  | moduleRef => Entity.ModuleRef
  | assemblyRef => Entity.AssemblyRef

/-- The entities that an entity keeps alive: the members in the lists that have been loaded, and
the type that a nesting record has been found to nest. -/
def held : (k : EntityKind) → k.Entity → List AnyRef
  | module, e => (e.topLevelTypes.peek?.getD []).map Ref.any
  | typeDef, e =>
    (e.fields.peek?.getD []).map Ref.any ++ (e.methods.peek?.getD []).map Ref.any
      ++ (e.nestedClasses.peek?.getD []).map Ref.any
  | nestedClass, e => (e.nested.peek?.getD none).toList.map Ref.any
  | _, _ => []

end EntityKind

end ManagedImage
