import ManagedImage.Table.Id

/-!
# Kinds of coded index

A column that may refer to rows of several tables has a kind, which lists the
tables in the order of their tags.

## Main definitions

* `CodedKind` — the thirteen kinds.
* `CodedKind.slots` — the table that each tag chooses.
* `CodedKind.tagBits` — how many bits the tag takes.
-/

namespace ManagedImage

/-- A choice of tables that one column may refer to. -/
inductive CodedKind where
  /-- A type, however it is given. -/
  | typeDefOrRef
  /-- The owner of a constant. -/
  | hasConstant
  /-- The row that carries an attribute. -/
  | hasCustomAttribute
  /-- The owner of a marshalling rule. -/
  | hasFieldMarshal
  /-- The owner of a security declaration. -/
  | hasDeclSecurity
  /-- Where a referenced member is declared. -/
  | memberRefParent
  /-- What an accessor method belongs to. -/
  | hasSemantics
  /-- A method, defined here or referenced. -/
  | methodDefOrRef
  /-- A member forwarded to unmanaged code. -/
  | memberForwarded
  /-- Where an exported type or a resource is found. -/
  | implementation
  /-- The constructor of an attribute. -/
  | customAttributeType
  /-- Where a referenced type is found. -/
  | resolutionScope
  /-- The owner of a type parameter. -/
  | typeOrMethodDef
  deriving DecidableEq, Repr, Inhabited

namespace CodedKind

/-- All kinds. -/
def all : List CodedKind :=
  [.typeDefOrRef, .hasConstant, .hasCustomAttribute, .hasFieldMarshal, .hasDeclSecurity,
    .memberRefParent, .hasSemantics, .methodDefOrRef, .memberForwarded, .implementation,
    .customAttributeType, .resolutionScope, .typeOrMethodDef]

/-- The table of each tag; a reserved tag has none. -/
def slots : CodedKind → List (Option TableId)
  | .typeDefOrRef => [some .typeDef, some .typeRef, some .typeSpec]
  | .hasConstant => [some .field, some .param, some .property]
  | .hasCustomAttribute =>
    [some .methodDef, some .field, some .typeRef, some .typeDef, some .param,
      some .interfaceImpl, some .memberRef, some .module, some .declSecurity,
      some .property, some .event, some .standAloneSig, some .moduleRef, some .typeSpec,
      some .assembly, some .assemblyRef, some .file, some .exportedType,
      some .manifestResource, some .genericParam, some .genericParamConstraint,
      some .methodSpec]
  | .hasFieldMarshal => [some .field, some .param]
  | .hasDeclSecurity => [some .typeDef, some .methodDef, some .assembly]
  | .memberRefParent =>
    [some .typeDef, some .typeRef, some .moduleRef, some .methodDef, some .typeSpec]
  | .hasSemantics => [some .event, some .property]
  | .methodDefOrRef => [some .methodDef, some .memberRef]
  | .memberForwarded => [some .field, some .methodDef]
  | .implementation => [some .file, some .assemblyRef, some .exportedType]
  | .customAttributeType => [none, none, some .methodDef, some .memberRef, none]
  | .resolutionScope => [some .module, some .moduleRef, some .assemblyRef, some .typeRef]
  | .typeOrMethodDef => [some .typeDef, some .methodDef]

/-- The tables that an index of this kind may refer to, in tag order. -/
def tables (k : CodedKind) : List TableId := k.slots.filterMap id

/-- The fewest bits that number all slots. -/
def tagBits (k : CodedKind) : Nat := (k.slots.length - 1).log2 + 1

/-- The bits of the tag. -/
def tagMask (k : CodedKind) : UInt32 := ((1 : UInt32) <<< UInt32.ofNat k.tagBits) - 1

/-- The tag that chooses `table`, if the kind may refer to it. -/
def tagOf? (k : CodedKind) (table : TableId) : Option Nat := k.slots.idxOf? (some table)

/-- The name of the kind, as it stands in messages. -/
def name : CodedKind → String
  | .typeDefOrRef => "TypeDefOrRef"
  | .hasConstant => "HasConstant"
  | .hasCustomAttribute => "HasCustomAttribute"
  | .hasFieldMarshal => "HasFieldMarshal"
  | .hasDeclSecurity => "HasDeclSecurity"
  | .memberRefParent => "MemberRefParent"
  | .hasSemantics => "HasSemantics"
  | .methodDefOrRef => "MethodDefOrRef"
  | .memberForwarded => "MemberForwarded"
  | .implementation => "Implementation"
  | .customAttributeType => "CustomAttributeType"
  | .resolutionScope => "ResolutionScope"
  | .typeOrMethodDef => "TypeOrMethodDef"

/-- The kind with the given name. -/
def ofName? (name : String) : Option CodedKind := all.find? (·.name == name)

@[simp] theorem mem_all (k : CodedKind) : k ∈ all := by
  cases k <;> decide

/-- The tag bits number all slots, and one bit less would not. -/
theorem slots_length_le (k : CodedKind) :
    k.slots.length ≤ 1 <<< k.tagBits ∧ 1 <<< (k.tagBits - 1) < k.slots.length := by
  cases k <;> decide

end CodedKind

end ManagedImage
