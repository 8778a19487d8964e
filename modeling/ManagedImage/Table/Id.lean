/-!
# Table numbers

Metadata is a set of at most 45 tables.  The number of a table is its position
in the stream, its bit in the header masks and the high byte of its tokens.

## Main definitions

* `TableId` — the defined tables.
* `TableId.index`, `TableId.ofIndex?` — the number of a table, and back.
* `TableId.all` — all tables in the order of their numbers.
-/

namespace ManagedImage

/-- A defined metadata table. -/
inductive TableId where
  /-- The module that the image holds. -/
  | module
  /-- A type defined in another module. -/
  | typeRef
  /-- A type defined in this module. -/
  | typeDef
  /-- Indirection into `field`, for tables that are not in order. -/
  | fieldPtr
  /-- A field of a type. -/
  | field
  /-- Indirection into `methodDef`. -/
  | methodPtr
  /-- A method of a type. -/
  | methodDef
  /-- Indirection into `param`. -/
  | paramPtr
  /-- A parameter of a method. -/
  | param
  /-- A type implements an interface. -/
  | interfaceImpl
  /-- A member of another type, by name and signature. -/
  | memberRef
  /-- The compile-time value of a field, parameter or property. -/
  | constant
  /-- An attribute given to a row. -/
  | customAttribute
  /-- How a field or parameter is marshalled. -/
  | fieldMarshal
  /-- Declarative security of a type, method or assembly. -/
  | declSecurity
  /-- Packing and size of a type. -/
  | classLayout
  /-- Offset of a field in its type. -/
  | fieldLayout
  /-- A signature without a member. -/
  | standAloneSig
  /-- The events of a type. -/
  | eventMap
  /-- Indirection into `event`. -/
  | eventPtr
  /-- An event of a type. -/
  | event
  /-- The properties of a type. -/
  | propertyMap
  /-- Indirection into `property`. -/
  | propertyPtr
  /-- A property of a type. -/
  | property
  /-- A method serves as accessor of an event or property. -/
  | methodSemantics
  /-- A method body overrides a declaration. -/
  | methodImpl
  /-- Another module of the assembly or an unmanaged library. -/
  | moduleRef
  /-- A type given by its signature. -/
  | typeSpec
  /-- A method or field forwarded to unmanaged code. -/
  | implMap
  /-- Initial data of a field. -/
  | fieldRva
  /-- Log of an edit session. -/
  | encLog
  /-- Token map of an edit session. -/
  | encMap
  /-- The assembly manifest. -/
  | assembly
  /-- Processor that the assembly asks for. -/
  | assemblyProcessor
  /-- Operating system that the assembly asks for. -/
  | assemblyOs
  /-- Another assembly. -/
  | assemblyRef
  /-- Processor that a referenced assembly asks for. -/
  | assemblyRefProcessor
  /-- Operating system that a referenced assembly asks for. -/
  | assemblyRefOs
  /-- A file of the assembly. -/
  | file
  /-- A type exported through the manifest. -/
  | exportedType
  /-- A resource of the manifest. -/
  | manifestResource
  /-- A type is nested in another type. -/
  | nestedClass
  /-- A type parameter of a type or method. -/
  | genericParam
  /-- An instantiation of a generic method. -/
  | methodSpec
  /-- A constraint on a type parameter. -/
  | genericParamConstraint
  deriving DecidableEq, Repr, Inhabited, Hashable

namespace TableId

/-- All tables, each at the position of its number. -/
def all : List TableId :=
  [.module, .typeRef, .typeDef, .fieldPtr, .field, .methodPtr, .methodDef, .paramPtr,
    .param, .interfaceImpl, .memberRef, .constant, .customAttribute, .fieldMarshal,
    .declSecurity, .classLayout, .fieldLayout, .standAloneSig, .eventMap, .eventPtr,
    .event, .propertyMap, .propertyPtr, .property, .methodSemantics, .methodImpl,
    .moduleRef, .typeSpec, .implMap, .fieldRva, .encLog, .encMap, .assembly,
    .assemblyProcessor, .assemblyOs, .assemblyRef, .assemblyRefProcessor, .assemblyRefOs,
    .file, .exportedType, .manifestResource, .nestedClass, .genericParam, .methodSpec,
    .genericParamConstraint]

/-- The number of the table. -/
def index : TableId → Nat
  | .module => 0x00
  | .typeRef => 0x01
  | .typeDef => 0x02
  | .fieldPtr => 0x03
  | .field => 0x04
  | .methodPtr => 0x05
  | .methodDef => 0x06
  | .paramPtr => 0x07
  | .param => 0x08
  | .interfaceImpl => 0x09
  | .memberRef => 0x0A
  | .constant => 0x0B
  | .customAttribute => 0x0C
  | .fieldMarshal => 0x0D
  | .declSecurity => 0x0E
  | .classLayout => 0x0F
  | .fieldLayout => 0x10
  | .standAloneSig => 0x11
  | .eventMap => 0x12
  | .eventPtr => 0x13
  | .event => 0x14
  | .propertyMap => 0x15
  | .propertyPtr => 0x16
  | .property => 0x17
  | .methodSemantics => 0x18
  | .methodImpl => 0x19
  | .moduleRef => 0x1A
  | .typeSpec => 0x1B
  | .implMap => 0x1C
  | .fieldRva => 0x1D
  | .encLog => 0x1E
  | .encMap => 0x1F
  | .assembly => 0x20
  | .assemblyProcessor => 0x21
  | .assemblyOs => 0x22
  | .assemblyRef => 0x23
  | .assemblyRefProcessor => 0x24
  | .assemblyRefOs => 0x25
  | .file => 0x26
  | .exportedType => 0x27
  | .manifestResource => 0x28
  | .nestedClass => 0x29
  | .genericParam => 0x2A
  | .methodSpec => 0x2B
  | .genericParamConstraint => 0x2C

/-- How many tables are defined. -/
def count : Nat := 45

/-- The table with the given number. -/
def ofIndex? (n : Nat) : Option TableId := all[n]?

/-- The name of the table, as it stands in messages. -/
def name : TableId → String
  | .module => "Module"
  | .typeRef => "TypeRef"
  | .typeDef => "TypeDef"
  | .fieldPtr => "FieldPtr"
  | .field => "Field"
  | .methodPtr => "MethodPtr"
  | .methodDef => "MethodDef"
  | .paramPtr => "ParamPtr"
  | .param => "Param"
  | .interfaceImpl => "InterfaceImpl"
  | .memberRef => "MemberRef"
  | .constant => "Constant"
  | .customAttribute => "CustomAttribute"
  | .fieldMarshal => "FieldMarshal"
  | .declSecurity => "DeclSecurity"
  | .classLayout => "ClassLayout"
  | .fieldLayout => "FieldLayout"
  | .standAloneSig => "StandAloneSig"
  | .eventMap => "EventMap"
  | .eventPtr => "EventPtr"
  | .event => "Event"
  | .propertyMap => "PropertyMap"
  | .propertyPtr => "PropertyPtr"
  | .property => "Property"
  | .methodSemantics => "MethodSemantics"
  | .methodImpl => "MethodImpl"
  | .moduleRef => "ModuleRef"
  | .typeSpec => "TypeSpec"
  | .implMap => "ImplMap"
  | .fieldRva => "FieldRva"
  | .encLog => "EncLog"
  | .encMap => "EncMap"
  | .assembly => "Assembly"
  | .assemblyProcessor => "AssemblyProcessor"
  | .assemblyOs => "AssemblyOs"
  | .assemblyRef => "AssemblyRef"
  | .assemblyRefProcessor => "AssemblyRefProcessor"
  | .assemblyRefOs => "AssemblyRefOs"
  | .file => "File"
  | .exportedType => "ExportedType"
  | .manifestResource => "ManifestResource"
  | .nestedClass => "NestedClass"
  | .genericParam => "GenericParam"
  | .methodSpec => "MethodSpec"
  | .genericParamConstraint => "GenericParamConstraint"

/-- The table with the given name. -/
def ofName? (name : String) : Option TableId := all.find? (·.name == name)

@[simp] theorem length_all : all.length = count := rfl

theorem index_lt (t : TableId) : t.index < count := by
  cases t <;> decide

@[simp] theorem ofIndex?_index (t : TableId) : ofIndex? t.index = some t := by
  cases t <;> rfl

@[simp] theorem index_get_all (i : Fin count) : (all.get i).index = i.val := by
  revert i
  decide

@[simp] theorem get_all_index (t : TableId) : all.get ⟨t.index, t.index_lt⟩ = t := by
  cases t <;> rfl

theorem index_of_ofIndex? {n : Nat} {t : TableId} (h : ofIndex? n = some t) : t.index = n := by
  obtain ⟨hn, rfl⟩ := List.getElem?_eq_some_iff.mp h
  exact index_get_all ⟨n, hn⟩

theorem index_injective {t u : TableId} (h : t.index = u.index) : t = u := by
  have := congrArg ofIndex? h
  simpa using this

@[simp] theorem mem_all (t : TableId) : t ∈ all := by
  cases t <;> decide

end TableId

end ManagedImage
