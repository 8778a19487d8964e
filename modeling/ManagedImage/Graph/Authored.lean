import ManagedImage.Graph.Entity

/-!
# Authored entities

An authored entity has no row to be loaded from, so everything in it is there
from the start.  It owns nothing and nothing owns it.

## Main definitions

* `Entity.Module.authored`, `Entity.TypeDef.authored`, … — the contents of a new entity of each
  kind.
-/

namespace ManagedImage

namespace Entity

/-- How many levels of nesting walks from authored entities may go through. -/
def authoredDepth : Nat := 64

/-- The contents of a new module. -/
def Module.authored (name : String) (mvid : Option Guid) : Module where
  generation := .evaluated 0
  name := .evaluated name
  mvid := .evaluated mvid
  encId := .evaluated none
  encBaseId := .evaluated none
  topLevelTypes := .evaluated []
  maxDepth := authoredDepth

/-- The contents of a new type reference. -/
def TypeRef.authored (namespaceName name : String) (scope : Option AnyRef) : TypeRef where
  name := .evaluated name
  namespaceName := .evaluated namespaceName
  resolutionScope := .evaluated scope

/-- The contents of a new type. -/
def TypeDef.authored (namespaceName name : String) (flags : UInt32) : TypeDef where
  flags := .evaluated flags
  name := .evaluated name
  namespaceName := .evaluated namespaceName
  baseType := .evaluated none
  module := .evaluated none
  declaringType := .evaluated none
  fields := .evaluated []
  methods := .evaluated []
  nestedClasses := .evaluated []
  maxDepth := authoredDepth

/-- The contents of a new field. -/
def Field.authored (name : String) (flags : UInt16) (signature : Bytes) : Field where
  flags := .evaluated flags
  name := .evaluated name
  signature := .evaluated signature
  declaringType := .evaluated none

/-- The contents of a new method. -/
def MethodDef.authored (name : String) (flags : UInt16) (signature : Bytes) : MethodDef where
  rva := .evaluated 0
  implFlags := .evaluated 0
  flags := .evaluated flags
  name := .evaluated name
  signature := .evaluated signature
  declaringType := .evaluated none

/-- The contents of a new nesting record. -/
def NestedClass.authored (type : Ref .typeDef) : NestedClass where
  nested := .evaluated (some type)
  enclosing := .evaluated none

/-- The contents of a new module reference. -/
def ModuleRef.authored (name : String) : ModuleRef where
  name := .evaluated name

/-- The contents of a new assembly reference. -/
def AssemblyRef.authored (name : String) (version : AssemblyVersion) : AssemblyRef where
  version := .evaluated version
  flags := .evaluated 0
  publicKeyOrToken := .evaluated #[]
  name := .evaluated name
  culture := .evaluated ""
  hashValue := .evaluated #[]

end Entity

end ManagedImage
