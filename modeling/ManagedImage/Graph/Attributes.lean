import ManagedImage.Graph.Attribute

/-!
# The attributes of each kind of entity

Each attribute says where its value stands in the row of the entity: a number
in a column, a heap index in a column, or a place in the index of the image.

## Main definitions

* `Load` — the ways of loading a value from a row.
* `Attribute.Module`, `Attribute.TypeDef`, … — namespaces with the attributes of a kind.
-/

namespace ManagedImage

namespace Load

/-- A number of 16 bits. -/
def word (column : Nat) (_ : MetadataImage) (r : Row) : Except Error UInt16 :=
  .ok (saturate16 (r.column column))

/-- A number of 32 bits. -/
def dword (column : Nat) (_ : MetadataImage) (r : Row) : Except Error UInt32 :=
  .ok (r.column column)

/-- The text at the index in a column. -/
def text (column : Nat) (i : MetadataImage) (r : Row) : Except Error String :=
  i.view.stringAt (r.column column)

/-- The identifier at the index in a column. -/
def guid (column : Nat) (i : MetadataImage) (r : Row) : Except Error (Option Guid) :=
  i.view.guidAt (r.column column)

/-- The byte string at the index in a column. -/
def blob (column : Nat) (i : MetadataImage) (r : Row) : Except Error Bytes :=
  i.view.blobAt (r.column column)

/-- The entity that the coded index in a column refers to. -/
def coded (kind : CodedKind) (column : Nat) (i : MetadataImage) (r : Row) :
    Except Error (Option AnyRef) :=
  i.resolveCoded kind (r.column column)

/-- The entity of kind `k` whose row number stands in a column. -/
def entity (k : EntityKind) (column : Nat) (i : MetadataImage) (r : Row) :
    Except Error (Option (Ref k)) :=
  .ok (i.entityAt? k (r.column column))

/-- The type that has the row in one of its lists. -/
def owner (l : MemberList) (i : MetadataImage) (r : Row) : Except Error (Option (Ref .typeDef)) :=
  (·.bind (i.entityAt? .typeDef)) <$> i.memberOwner l r.rid

/-- The members of kind `k` in a list of the type in the row. -/
def members (l : MemberList) (k : EntityKind) (i : MetadataImage) (r : Row) :
    Except Error (List (Ref k)) :=
  (·.filterMap (i.entityAt? k)) <$> i.tables.memberRids l r.rid

/-- The nesting records of the type in the row. -/
def records (i : MetadataImage) (r : Row) : Except Error (List (Ref .nestedClass)) :=
  (·.filterMap (i.entityAt? .nestedClass)) <$> i.nestingRecords r.rid

/-- The type that encloses the type in the row. -/
def enclosing (i : MetadataImage) (r : Row) : Except Error (Option (Ref .typeDef)) :=
  (·.bind (i.entityAt? .typeDef)) <$> i.enclosingRid r.rid

/-- The first module, unless the type in the row is nested. -/
def module (i : MetadataImage) (r : Row) : Except Error (Option (Ref .module)) :=
  (fun enclosing => if enclosing.isSome then none else i.entityAt? .module 1) <$>
    i.enclosingRid r.rid

/-- The type with row number `rid`, if it is not nested. -/
def topLevelAt (i : MetadataImage) (rid : UInt32) : Except Error (Option (Ref .typeDef)) :=
  (fun enclosing => if enclosing.isSome then none else i.entityAt? .typeDef rid) <$>
    i.enclosingRid rid

/-- The types that are not nested. -/
def topLevel (i : MetadataImage) (_ : Row) : Except Error (List (Ref .typeDef)) :=
  List.filterMap id <$> (OwnerIndex.rids i.tables .typeDef).mapM (topLevelAt i)

/-- The version in the first four columns. -/
def version (_ : MetadataImage) (r : Row) : Except Error AssemblyVersion :=
  .ok ⟨saturate16 (r.column 0), saturate16 (r.column 1), saturate16 (r.column 2),
    saturate16 (r.column 3)⟩

end Load

namespace Attribute

/-- What a reference that may be missing refers to. -/
def optionalRef {k : EntityKind} (r : Option (Ref k)) : List AnyRef := r.toList.map Ref.any

/-- What a list of references refers to. -/
def listRefs {k : EntityKind} (rs : List (Ref k)) : List AnyRef := rs.map Ref.any

namespace Module

/-- The generation in an edit session. -/
def generation : Attribute .module UInt16 where
  get e := e.generation
  set generation e := { e with generation }
  load := Load.word 0

/-- The name. -/
def name : Attribute .module String where
  get e := e.name
  set name e := { e with name }
  load := Load.text 1

/-- What tells this version of the module from all others. -/
def mvid : Attribute .module (Option Guid) where
  get e := e.mvid
  set mvid e := { e with mvid }
  load := Load.guid 2

/-- What tells this generation from all others. -/
def encId : Attribute .module (Option Guid) where
  get e := e.encId
  set encId e := { e with encId }
  load := Load.guid 3

/-- The generation that this one was made from. -/
def encBaseId : Attribute .module (Option Guid) where
  get e := e.encBaseId
  set encBaseId e := { e with encBaseId }
  load := Load.guid 4

/-- The types that are not nested. -/
def topLevelTypes : Attribute .module (List (Ref .typeDef)) where
  get e := e.topLevelTypes
  set topLevelTypes e := { e with topLevelTypes }
  load := Load.topLevel
  refs := listRefs

end Module

namespace TypeRef

/-- The simple name. -/
def name : Attribute .typeRef String where
  get e := e.name
  set name e := { e with name }
  load := Load.text 1

/-- The namespace. -/
def namespaceName : Attribute .typeRef String where
  get e := e.namespaceName
  set namespaceName e := { e with namespaceName }
  load := Load.text 2

/-- Where the type is found. -/
def resolutionScope : Attribute .typeRef (Option AnyRef) where
  get e := e.resolutionScope
  set resolutionScope e := { e with resolutionScope }
  load := Load.coded .resolutionScope 0
  refs := Option.toList

end TypeRef

namespace TypeDef

/-- Visibility, layout and other attributes. -/
def flags : Attribute .typeDef UInt32 where
  get e := e.flags
  set flags e := { e with flags }
  load := Load.dword 0

/-- The simple name. -/
def name : Attribute .typeDef String where
  get e := e.name
  set name e := { e with name }
  load := Load.text 1

/-- The namespace. -/
def namespaceName : Attribute .typeDef String where
  get e := e.namespaceName
  set namespaceName e := { e with namespaceName }
  load := Load.text 2

/-- The type that this one extends. -/
def baseType : Attribute .typeDef (Option AnyRef) where
  get e := e.baseType
  set baseType e := { e with baseType }
  load := Load.coded .typeDefOrRef 3
  refs := Option.toList

/-- The module, for a top-level type. -/
def module : Attribute .typeDef (Option (Ref .module)) where
  get e := e.module
  set module e := { e with module }
  load := Load.module
  refs := optionalRef

/-- The enclosing type, for a nested type. -/
def declaringType : Attribute .typeDef (Option (Ref .typeDef)) where
  get e := e.declaringType
  set declaringType e := { e with declaringType }
  load := Load.enclosing
  refs := optionalRef

/-- The fields. -/
def fields : Attribute .typeDef (List (Ref .field)) where
  get e := e.fields
  set fields e := { e with fields }
  load := Load.members .fields .field
  refs := listRefs

/-- The methods. -/
def methods : Attribute .typeDef (List (Ref .methodDef)) where
  get e := e.methods
  set methods e := { e with methods }
  load := Load.members .methods .methodDef
  refs := listRefs

/-- The records of the types nested in this one. -/
def nestedClasses : Attribute .typeDef (List (Ref .nestedClass)) where
  get e := e.nestedClasses
  set nestedClasses e := { e with nestedClasses }
  load := Load.records
  refs := listRefs

end TypeDef

namespace Field

/-- Visibility and other attributes. -/
def flags : Attribute .field UInt16 where
  get e := e.flags
  set flags e := { e with flags }
  load := Load.word 0

/-- The name. -/
def name : Attribute .field String where
  get e := e.name
  set name e := { e with name }
  load := Load.text 1

/-- The encoded signature. -/
def signature : Attribute .field Bytes where
  get e := e.signature
  set signature e := { e with signature }
  load := Load.blob 2

/-- The type that owns the field. -/
def declaringType : Attribute .field (Option (Ref .typeDef)) where
  get e := e.declaringType
  set declaringType e := { e with declaringType }
  load := Load.owner .fields
  refs := optionalRef

end Field

namespace MethodDef

/-- The address of the body. -/
def rva : Attribute .methodDef UInt32 where
  get e := e.rva
  set rva e := { e with rva }
  load := Load.dword 0

/-- How the body is implemented. -/
def implFlags : Attribute .methodDef UInt16 where
  get e := e.implFlags
  set implFlags e := { e with implFlags }
  load := Load.word 1

/-- Visibility and other attributes. -/
def flags : Attribute .methodDef UInt16 where
  get e := e.flags
  set flags e := { e with flags }
  load := Load.word 2

/-- The name. -/
def name : Attribute .methodDef String where
  get e := e.name
  set name e := { e with name }
  load := Load.text 3

/-- The encoded signature. -/
def signature : Attribute .methodDef Bytes where
  get e := e.signature
  set signature e := { e with signature }
  load := Load.blob 4

/-- The type that owns the method. -/
def declaringType : Attribute .methodDef (Option (Ref .typeDef)) where
  get e := e.declaringType
  set declaringType e := { e with declaringType }
  load := Load.owner .methods
  refs := optionalRef

end MethodDef

namespace NestedClass

/-- The nested type. -/
def nested : Attribute .nestedClass (Option (Ref .typeDef)) where
  get e := e.nested
  set nested e := { e with nested }
  load := Load.entity .typeDef 0
  refs := optionalRef

/-- The enclosing type, which owns the record. -/
def enclosing : Attribute .nestedClass (Option (Ref .typeDef)) where
  get e := e.enclosing
  set enclosing e := { e with enclosing }
  load := Load.entity .typeDef 1
  refs := optionalRef

end NestedClass

namespace ModuleRef

/-- The name. -/
def name : Attribute .moduleRef String where
  get e := e.name
  set name e := { e with name }
  load := Load.text 0

end ModuleRef

namespace AssemblyRef

/-- The version asked for. -/
def version : Attribute .assemblyRef AssemblyVersion where
  get e := e.version
  set version e := { e with version }
  load := Load.version

/-- Attributes of the reference. -/
def flags : Attribute .assemblyRef UInt32 where
  get e := e.flags
  set flags e := { e with flags }
  load := Load.dword 4

/-- The public key or its token. -/
def publicKeyOrToken : Attribute .assemblyRef Bytes where
  get e := e.publicKeyOrToken
  set publicKeyOrToken e := { e with publicKeyOrToken }
  load := Load.blob 5

/-- The simple name. -/
def name : Attribute .assemblyRef String where
  get e := e.name
  set name e := { e with name }
  load := Load.text 6

/-- The culture. -/
def culture : Attribute .assemblyRef String where
  get e := e.culture
  set culture e := { e with culture }
  load := Load.text 7

/-- The hash of the assembly. -/
def hashValue : Attribute .assemblyRef Bytes where
  get e := e.hashValue
  set hashValue e := { e with hashValue }
  load := Load.blob 8

end AssemblyRef

end Attribute

end ManagedImage
