import ManagedImage.Graph.Authored
import ManagedImage.Graph.Edges

/-!
# Nesting types in types

A type is either in the list of a module or nested through one record in the
list of its enclosing type.  The operations here move types between the two
without ever leaving a type in both places.

## Main definitions

* `Graph.enclosingType`, `Graph.nestedTypes` — one step out and one step in.
* `Graph.nestingRecord?` — the record through which a type is nested.
* `Graph.attachType`, `Graph.attachRecord` — moves a type to a module, a record to a type.
* `Graph.setNested` — makes a record nest another type.
* `Graph.nest` — nests a type in another one.
-/

namespace ManagedImage

namespace Graph

/-- The type that encloses a nested type. -/
def enclosingType (type : Ref .typeDef) : GraphAction (Option (Ref .typeDef)) := do
  living (← Attribute.TypeDef.declaringType.read type)

/-- The types that records nest; a record may nest none. -/
def typesOf : List (Ref .nestedClass) → GraphAction (List (Ref .typeDef))
  | [] => pure []
  | record :: records => do
    let type ← Attribute.NestedClass.nested.read record
    let types ← typesOf records
    return type.toList ++ types

/-- The types that are nested directly in a type. -/
def nestedTypes (type : Ref .typeDef) : GraphAction (List (Ref .typeDef)) := do
  typesOf (← Attribute.TypeDef.nestedClasses.read type)

/-- The first of some records that nests the type. -/
def findRecord (type : Ref .typeDef) :
    List (Ref .nestedClass) → GraphAction (Option (Ref .nestedClass))
  | [] => pure none
  | record :: records => do
    if (← Attribute.NestedClass.nested.read record) = some type then
      return some record
    else
      findRecord type records

/-- The record in the list of the enclosing type through which a type is nested. -/
def nestingRecord? (type : Ref .typeDef) : GraphAction (Option (Ref .nestedClass)) := do
  match ← enclosingType type with
  | none => return none
  | some enclosing => findRecord type (← Attribute.TypeDef.nestedClasses.read enclosing)

/-- Takes a type out of its module and from under any record but `record`. -/
def release (record : Ref .nestedClass) (type : Ref .typeDef) : GraphAction Unit := do
  let _ ← typeOwnership.detach type
  match ← nestingRecord? type with
  | some other =>
    if other ≠ record then
      let _ ← recordOwnership.detach other
  | none => pure ()

/-- Moves a type to the list of a module.  A nested type loses its record first. -/
def attachType (module : Ref .module) (type : Ref .typeDef) : GraphAction Unit :=
  typeOwnership.attach
    (fun type _ => do
      match ← nestingRecord? type with
      | some record =>
        let _ ← recordOwnership.detach record
      | none => pure ())
    module type

/-- Moves a record to the list of a type.  The type that it nests is released first. -/
def attachRecord (enclosing : Ref .typeDef) (record : Ref .nestedClass) : GraphAction Unit :=
  recordOwnership.attach
    (fun record _ => do
      match ← Attribute.NestedClass.nested.read record with
      | some type => release record type
      | none => pure ())
    enclosing record

/-- Makes a record nest another type, or none.  The type that it nested is no longer enclosed, and
the new one is released first if the record is in the list of a living type. -/
def setNested (record : Ref .nestedClass) (type : Option (Ref .typeDef)) : GraphAction Unit := do
  let previous ← Attribute.NestedClass.nested.read record
  let enclosing ← Attribute.NestedClass.enclosing.read record
  if previous.isSome ∧ previous = type then
    return
  match type with
  | some type =>
    if (← living enclosing).isSome then
      release record type
  | none => pure ()
  match previous with
  | some previous => Attribute.TypeDef.declaringType.write previous none
  | none => pure ()
  match type with
  | some type => Attribute.TypeDef.declaringType.write type enclosing
  | none => pure ()
  Attribute.NestedClass.nested.write record type

/-- Nests a type in another one and gives the record.  A type that is nested already keeps its
record; otherwise a new one is authored. -/
def nest (enclosing type : Ref .typeDef) : GraphAction (Ref .nestedClass) := do
  match ← nestingRecord? type with
  | some record =>
    attachRecord enclosing record
    return record
  | none =>
    let record : Ref .nestedClass ← author (Entity.NestedClass.authored type)
    (attachRecord enclosing record).orUndo (withdraw record)
    return record

end Graph

end ManagedImage
