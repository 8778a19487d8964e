import ManagedImage.Graph.Attributes

/-!
# The parts of entities

An entity is made up of attributes, and each attribute is a part of its own: replacing one leaves
all others as they were.  To say so once for all attributes, they are listed here by name.

## Main definitions

* `Part k` — the names of the attributes of the entities of kind `k`.
* `Part.Value`, `Part.attr` — the type of the values of a part, and the attribute itself.
* `Part.held` — the entities that a value keeps alive.

## Main results

* `Part.get_set_of_ne` — replacing one part of an entity leaves the others alone.
* `Part.refs_of_get_ofRow` — what is there in an entity that has just been made from its row refers
  to no other entity.
-/

namespace ManagedImage

/-- The name of an attribute of the entities of a kind. -/
inductive Part : EntityKind → Type where
  | generation : Part .module
  | moduleName : Part .module
  | mvid : Part .module
  | encId : Part .module
  | encBaseId : Part .module
  | topLevelTypes : Part .module
  | typeRefName : Part .typeRef
  | typeRefNamespace : Part .typeRef
  | resolutionScope : Part .typeRef
  | typeFlags : Part .typeDef
  | typeName : Part .typeDef
  | typeNamespace : Part .typeDef
  | baseType : Part .typeDef
  | module : Part .typeDef
  | declaringType : Part .typeDef
  | fields : Part .typeDef
  | methods : Part .typeDef
  | nestedClasses : Part .typeDef
  | fieldFlags : Part .field
  | fieldName : Part .field
  | fieldSignature : Part .field
  | fieldOwner : Part .field
  | rva : Part .methodDef
  | implFlags : Part .methodDef
  | methodFlags : Part .methodDef
  | methodName : Part .methodDef
  | methodSignature : Part .methodDef
  | methodOwner : Part .methodDef
  | nested : Part .nestedClass
  | enclosing : Part .nestedClass
  | moduleRefName : Part .moduleRef
  | version : Part .assemblyRef
  | assemblyFlags : Part .assemblyRef
  | publicKeyOrToken : Part .assemblyRef
  | assemblyName : Part .assemblyRef
  | culture : Part .assemblyRef
  | hashValue : Part .assemblyRef

namespace Part

variable {k : EntityKind}

/-- The type of the values of a part. -/
@[reducible] def Value : {k : EntityKind} → Part k → Type
  | _, generation | _, fieldFlags | _, implFlags | _, methodFlags => UInt16
  | _, typeFlags | _, rva | _, assemblyFlags => UInt32
  | _, moduleName | _, typeRefName | _, typeRefNamespace | _, typeName | _, typeNamespace => String
  | _, fieldName | _, methodName | _, moduleRefName | _, assemblyName | _, culture => String
  | _, mvid | _, encId | _, encBaseId => Option Guid
  | _, fieldSignature | _, methodSignature | _, publicKeyOrToken | _, hashValue => Bytes
  | _, resolutionScope | _, baseType => Option AnyRef
  | _, version => AssemblyVersion
  | _, module => Option (Ref .module)
  | _, declaringType | _, fieldOwner | _, methodOwner | _, nested | _, enclosing =>
    Option (Ref .typeDef)
  | _, topLevelTypes => List (Ref .typeDef)
  | _, fields => List (Ref .field)
  | _, methods => List (Ref .methodDef)
  | _, nestedClasses => List (Ref .nestedClass)

/-- The attribute with the given name. -/
@[reducible] def attr : {k : EntityKind} → (p : Part k) → Attribute k p.Value
  | _, generation => Attribute.Module.generation
  | _, moduleName => Attribute.Module.name
  | _, mvid => Attribute.Module.mvid
  | _, encId => Attribute.Module.encId
  | _, encBaseId => Attribute.Module.encBaseId
  | _, topLevelTypes => Attribute.Module.topLevelTypes
  | _, typeRefName => Attribute.TypeRef.name
  | _, typeRefNamespace => Attribute.TypeRef.namespaceName
  | _, resolutionScope => Attribute.TypeRef.resolutionScope
  | _, typeFlags => Attribute.TypeDef.flags
  | _, typeName => Attribute.TypeDef.name
  | _, typeNamespace => Attribute.TypeDef.namespaceName
  | _, baseType => Attribute.TypeDef.baseType
  | _, module => Attribute.TypeDef.module
  | _, declaringType => Attribute.TypeDef.declaringType
  | _, fields => Attribute.TypeDef.fields
  | _, methods => Attribute.TypeDef.methods
  | _, nestedClasses => Attribute.TypeDef.nestedClasses
  | _, fieldFlags => Attribute.Field.flags
  | _, fieldName => Attribute.Field.name
  | _, fieldSignature => Attribute.Field.signature
  | _, fieldOwner => Attribute.Field.declaringType
  | _, rva => Attribute.MethodDef.rva
  | _, implFlags => Attribute.MethodDef.implFlags
  | _, methodFlags => Attribute.MethodDef.flags
  | _, methodName => Attribute.MethodDef.name
  | _, methodSignature => Attribute.MethodDef.signature
  | _, methodOwner => Attribute.MethodDef.declaringType
  | _, nested => Attribute.NestedClass.nested
  | _, enclosing => Attribute.NestedClass.enclosing
  | _, moduleRefName => Attribute.ModuleRef.name
  | _, version => Attribute.AssemblyRef.version
  | _, assemblyFlags => Attribute.AssemblyRef.flags
  | _, publicKeyOrToken => Attribute.AssemblyRef.publicKeyOrToken
  | _, assemblyName => Attribute.AssemblyRef.name
  | _, culture => Attribute.AssemblyRef.culture
  | _, hashValue => Attribute.AssemblyRef.hashValue

/-- The entities that a value of the part keeps alive. -/
def held : {k : EntityKind} → (p : Part k) → p.Value → List AnyRef
  | _, topLevelTypes, v => v.map Ref.any
  | _, fields, v => v.map Ref.any
  | _, methods, v => v.map Ref.any
  | _, nestedClasses, v => v.map Ref.any
  | _, nested, v => v.toList.map Ref.any
  | _, _, _ => []

/-- Replacing one part of an entity leaves the others alone. -/
theorem get_set_of_ne {p q : Part k} (h : p ≠ q) (d : Deferred p.Value) (e : k.Entity) :
    q.attr.get (p.attr.set d e) = q.attr.get e := by
  cases p <;> cases q <;> first | rfl | exact absurd rfl h

/-- What is there in an entity that has just been made refers to no other entity. -/
theorem refs_of_get_ofRow {p : Part k} {config : Config} {row : Row} {v : p.Value}
    (h : p.attr.get (k.ofRow config row) = .evaluated v) : p.attr.refs v = [] := by
  cases p <;> first | rfl | exact absurd h (by simp [attr, EntityKind.ofRow,
    Attribute.Module.topLevelTypes, Attribute.TypeRef.resolutionScope, Attribute.TypeDef.baseType,
    Attribute.TypeDef.module, Attribute.TypeDef.declaringType, Attribute.TypeDef.fields,
    Attribute.TypeDef.methods, Attribute.TypeDef.nestedClasses, Attribute.Field.declaringType,
    Attribute.MethodDef.declaringType, Attribute.NestedClass.nested,
    Attribute.NestedClass.enclosing])

theorem held_subset_refs (p : Part k) (v : p.Value) : p.held v ⊆ p.attr.refs v := by
  cases p <;> first | exact List.nil_subset _ | exact List.Subset.refl _

/-- A value that is there keeps what it holds. -/
theorem held_subset_held {p : Part k} {e : k.Entity} {v : p.Value}
    (h : p.attr.get e = .evaluated v) : p.held v ⊆ k.held e := by
  cases p with
  | topLevelTypes =>
    have h : e.topLevelTypes = .evaluated v := h
    simp [held, EntityKind.held, h]
  | fields =>
    have h : e.fields = .evaluated v := h
    intro s hs
    simp only [EntityKind.held, h, Deferred.peek?_evaluated, Option.getD_some, List.mem_append]
    exact Or.inl (Or.inl hs)
  | methods =>
    have h : e.methods = .evaluated v := h
    intro s hs
    simp only [EntityKind.held, h, Deferred.peek?_evaluated, Option.getD_some, List.mem_append]
    exact Or.inl (Or.inr hs)
  | nestedClasses =>
    have h : e.nestedClasses = .evaluated v := h
    intro s hs
    simp only [EntityKind.held, h, Deferred.peek?_evaluated, Option.getD_some, List.mem_append]
    exact Or.inr hs
  | nested =>
    have h : e.nested = .evaluated v := h
    simp [held, EntityKind.held, h]
  | _ => exact List.nil_subset _

end Part

end ManagedImage
