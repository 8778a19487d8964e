import ManagedImage.Graph.Nesting

/-!
# Full names

The full name of a type is made of the names on the way from its outermost
enclosing type down to it, behind the namespace of the outermost one.

## Main definitions

* `QualifiedName.render` — the text of a full name.
* `Graph.fullName`, `Graph.referenceFullName` — the full name of a type and of a type reference.
* `Graph.displayName` — the display name of an assembly reference.
-/

namespace ManagedImage

/-- The text of a full name, from the names with the outermost first. -/
def QualifiedName.render (namespaceName : String) (names : List String) : String :=
  let path := "/".intercalate names
  if namespaceName.isEmpty then path else namespaceName ++ "." ++ path

namespace Graph

variable {k : EntityKind}

/-- Goes on outwards from `current` for at most `steps` steps.  The names of what lies inside are
known, and so is the namespace of the outermost of it. -/
def climb (limit : Nat) (name namespaceName : Attribute k String)
    (outer : Ref k → GraphAction (Option (Ref k))) :
    (steps : Nat) → (names : List String) → (space : String) → (current : Option (Ref k)) →
      GraphAction String
  | _, names, space, none => return QualifiedName.render space names
  | 0, _, _, some _ => throw (.recursionLimit limit)
  | steps + 1, names, _, some current => do
    let name' ← name.read current
    let space ← namespaceName.read current
    climb limit name namespaceName outer steps (name' :: names) space (← outer current)

/-- The full name of an entity that has at most `limit` entities around it. -/
def qualifiedName (limit : Nat) (name namespaceName : Attribute k String)
    (outer : Ref k → GraphAction (Option (Ref k))) (r : Ref k) : GraphAction String := do
  let name' ← name.read r
  let space ← namespaceName.read r
  climb limit name namespaceName outer limit [name'] space (← outer r)

/-- How many levels of nesting a walk from a type may go up. -/
def typeLimit (type : Ref .typeDef) (g : Graph) : Nat := ((g.entity? type).map (·.maxDepth)).getD 0

/-- The full name of a type. -/
def fullName (type : Ref .typeDef) : GraphAction String := do
  qualifiedName (typeLimit type (← get)) Attribute.TypeDef.name Attribute.TypeDef.namespaceName
    enclosingType type

/-- Where a referenced type is found, while that exists. -/
def scope (type : Ref .typeRef) : GraphAction (Option AnyRef) := do
  let scope ← Attribute.TypeRef.resolutionScope.read type
  let g ← get
  return scope.filter g.isAlive

/-- How many levels of nesting a walk from a type reference may go up. -/
def referenceLimit : Nat := 64

/-- The full name of a type reference; the types around it are the references in whose scope it
is. -/
def referenceFullName (type : Ref .typeRef) : GraphAction String :=
  qualifiedName referenceLimit Attribute.TypeRef.name Attribute.TypeRef.namespaceName
    (fun type => do return (← scope type).bind (AnyRef.as? .typeRef)) type

/-- The display name of an assembly reference: name, version and culture. -/
def displayName (assembly : Ref .assemblyRef) : GraphAction String := do
  let culture ← Attribute.AssemblyRef.culture.read assembly
  let name ← Attribute.AssemblyRef.name.read assembly
  let version ← Attribute.AssemblyRef.version.read assembly
  return name ++ ", Version=" ++ version.display ++ ", Culture="
    ++ (if culture.isEmpty then "neutral" else culture)

end Graph

end ManagedImage
