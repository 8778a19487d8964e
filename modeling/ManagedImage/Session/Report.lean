import ManagedImage.Session.Command

/-!
# Reports on entities

What can be read off an entity, by name: its attributes, its lists, and what is
computed from several of them.

## Main definitions

* `ValueKind.answer` — shows a value.
* `Report.computed` — what is computed for an entity.
* `Report.entity` — everything about an entity at once.
-/

namespace ManagedImage

/-- Shows a value.  A reference to an entity that is gone is shown as none. -/
def ValueKind.answer (g : Graph) : (k : ValueKind) → k.Value → Answer
  | .word, n => .number n.toNat
  | .dword, n => .number n.toNat
  | .text, s => .text s
  | .bytes, b => .bytes b
  | .guid, none => .nothing
  | .guid, some id => .text id.display
  | .version, v => .text v.display
  | .reference, r => .ofRef? (r.filter g.isAlive)

namespace Report

variable {k : EntityKind}

/-- An entity of a known kind, or nothing. -/
def ofRef? (r : Option (Ref k)) : Answer := .ofRef? (r.map Ref.any)

/-- Some entities of a known kind. -/
def ofRefs (rs : List (Ref k)) : Answer := .list (rs.map fun r => .entity r.any)

/-- The entity in an attribute, while it exists. -/
def livingReference (a : Attribute k (Option AnyRef)) (r : Ref k) : GraphAction Answer := do
  let value ← a.read r
  let g ← get
  return .ofRef? (value.filter g.isAlive)

/-- What is computed for an entity, by name. -/
def computed : AnyRef → List (String × GraphAction Answer)
  | ⟨.typeDef, id⟩ =>
    let type : Ref .typeDef := ⟨id⟩
    [("full_name", Answer.text <$> Graph.fullName type),
      ("module", ofRef? <$> Graph.typeOwnership.owner type),
      ("enclosing_type", ofRef? <$> Graph.enclosingType type),
      ("nested_types", ofRefs <$> Graph.nestedTypes type),
      ("base", livingReference Attribute.TypeDef.baseType type)]
  | ⟨.typeRef, id⟩ =>
    let type : Ref .typeRef := ⟨id⟩
    [("full_name", Answer.text <$> Graph.referenceFullName type),
      ("scope", livingReference Attribute.TypeRef.resolutionScope type)]
  | ⟨.field, id⟩ => [("declaring_type", ofRef? <$> Graph.fieldOwnership.owner ⟨id⟩)]
  | ⟨.methodDef, id⟩ => [("declaring_type", ofRef? <$> Graph.methodOwnership.owner ⟨id⟩)]
  | ⟨.nestedClass, id⟩ =>
    let record : Ref .nestedClass := ⟨id⟩
    [("enclosing_type", ofRef? <$> Graph.recordOwnership.owner record),
      ("class", ofRef? <$> Attribute.NestedClass.nested.read record)]
  | ⟨.assemblyRef, id⟩ => [("display_name", Answer.text <$> Graph.displayName ⟨id⟩)]
  | _ => []

/-- The lists of an entity, by name. -/
def lists (r : AnyRef) : List (String × GraphAction Answer) :=
  (ListProperty.table r.kind).map fun (name, list) => (name, ofRefs <$> list.part.read r.typed)

/-- Some steps of a walk. -/
def ofWalk (steps : List (Except Error (Ref .typeDef))) : Answer :=
  .list (steps.map (Answer.ofExcept fun type => .entity type.any))

/-- How many steps of a walk are shown. -/
def walkLimit : Nat := 200

/-- The types of a module, nested ones too, at most `limit`. -/
def allTypes (limit : Nat) (module : Ref .module) : StateM Graph Answer := do
  let walk ← Traversal.start module
  return ofWalk (← walk.take limit)

/-- The computed values that a report shows. -/
def shown : List String :=
  ["full_name", "module", "enclosing_type", "nested_types", "declaring_type", "class"]

/-- Everything about an entity: what is computed, its lists, and the types of a module. -/
def entity (r : AnyRef) : StateM Graph Answer := do
  let parts := (computed r).filter (fun p => shown.contains p.1) ++ lists r
  let answers ← parts.mapM fun (name, a) => do
    return (name, Answer.ofExcept id (← a.run))
  let walk ← match r.as? .module with
    | some module => do pure [("all_types", ← allTypes walkLimit module)]
    | none => pure []
  return .record (("id", .entity r) :: answers ++ walk)

/-- The kinds of entities of rows that a full report shows. -/
def rowKinds : List EntityKind := [.module, .typeDef, .field, .methodDef, .nestedClass]

/-- How many rows of a table a full report shows. -/
def rowLimit : Nat := 40

/-- The tokens of the rows that a full report shows. -/
def tokens (image : MetadataImage) : List Token :=
  rowKinds.flatMap fun k =>
    (List.range (min rowLimit (image.tables.rowCount k.table).toNat)).map fun i =>
      Token.ofRow k.table (UInt32.ofNat (i + 1))

/-- The authored entities that exist, in the order of their numbers. -/
def authored (g : Graph) : List AnyRef :=
  (List.range g.nextNumber).flatMap fun number =>
    (EntityKind.all.map fun k => ⟨k, .authored number⟩).filter g.isAlive

/-- A report on the first rows of each table of the image, and on all authored entities.  All entities exist
before the first is looked at. -/
def graph (image : MetadataImage) : StateM Graph Answer := do
  let rows ← (tokens image).mapM Graph.resolve
  let entities := rows.filterMap id ++ authored (← get)
  return .list (← entities.mapM entity)

end Report

end ManagedImage
