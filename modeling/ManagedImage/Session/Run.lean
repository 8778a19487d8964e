import ManagedImage.Session.Report

/-!
# Carrying out commands

## Main definitions

* `Session.run` — carries out a command.
* `Session.perform` — carries out a request, holds its answer if that is asked for, and lets go of
  what nothing holds any more.
-/

namespace ManagedImage

namespace Session

/-- The value of the needed kind that is written in a command. -/
def valueOf (value : Literal) : (k : ValueKind) → SessionAction k.Value
  | .word => match value with
    | .number n => return UInt16.ofNat n
    | _ => refuse (.unreadable value)
  | .dword => match value with
    | .number n => return UInt32.ofNat n
    | _ => refuse (.unreadable value)
  | .text => match value with
    | .text s => return s
    | _ => refuse (.unreadable value)
  | .bytes => match value with
    | .text s => match Hex.bytes? s with
      | some bytes => return bytes
      | none => refuse (.unreadable value)
    | _ => refuse (.unreadable value)
  | .guid => match value with
    | .null => return none
    | .text s => match (Hex.bytes? s).bind fun bytes => Guid.ofList? bytes.toList with
      | some id => return some id
      | none => refuse (.unreadable value)
    | _ => refuse (.unreadable value)
  | .version => match value with
    | .numbers [a, b, c, d] =>
      return ⟨UInt16.ofNat a, UInt16.ofNat b, UInt16.ofNat c, UInt16.ofNat d⟩
    | _ => refuse (.unreadable value)
  | .reference => match value with
    | .null => return none
    | _ => return some (← entity value)

/-- What a name stands for, which must be something. -/
def named {α : Type} (f : String → Option α) (name : Literal) : SessionAction α :=
  match name.text?.bind f with
  | some a => pure a
  | none => refuse (.noSuchField name)

/-- The attribute of an entity with the given name. -/
def property (r : AnyRef) (name : Literal) : SessionAction (Property r.kind) :=
  named (Property.ofName? r.kind) name

/-- The list of an entity with the given name. -/
def listProperty (r : AnyRef) (name : Literal) : SessionAction (ListProperty r.kind) :=
  named (ListProperty.ofName? r.kind) name

/-- Asks about an attribute, or updates it. -/
def runQuery (query : PropertyQuery) (r : AnyRef) (name : Literal) : SessionAction Answer := do
  let p ← property r name
  let stored ← asking (p.part.stored r.typed)
  match query with
  | .peek => asking fun g => (stored.peek?.map (p.valueKind.answer g)).getD .nothing
  | .isEvaluated => return .flag stored.isEvaluated
  | .describe => return .text (stored.describe p.valueKind.describe)
  | .update =>
    let value ← onGraph (p.part.update r.typed p.valueKind.following)
    asking fun g => p.valueKind.answer g value

/-- The value of an attribute, or something computed. -/
def runGet (r : AnyRef) (name : Literal) : SessionAction Answer := do
  match name.text?.bind fun text => (Report.computed r).lookup text with
  | some a => onGraph a
  | none =>
    let p ← property r name
    let value ← onGraph (p.part.read r.typed)
    asking fun g => p.valueKind.answer g value

/-- Asks about a list. -/
def runList (query : ListQuery) (r : AnyRef) (name : Literal) : SessionAction Answer := do
  let list ← listProperty r name
  let items := onGraph (list.part.read r.typed)
  match query with
  | .items => return Report.ofRefs (← items)
  | .length => return .number (← items).length
  | .isEmpty => return .flag (← items).isEmpty
  | .describe => asking fun g => .text (Ownership.describeItems (list.part.stored r.typed g))

/-- The name of an entity, or the error that came up. -/
def nameAnswer {α : Type} (name : α → GraphAction String) (a : α) : StateM Graph Answer := do
  return Answer.ofExcept .text (← (name a).run)

/-- The full names of the types that a walk has visited. -/
def walkNames (steps : List (Except Error (Ref .typeDef))) : StateM Graph Answer := do
  return .list (← steps.mapM fun
    | .ok type => nameAnswer Graph.fullName type
    | .error e => pure (.failed e))

/-- The names of the entities in a list, or of all types of a module. -/
def runNames (r : AnyRef) (name : Literal) : SessionAction Answer := do
  match r.as? .module, name with
  | some module, .text "all_types" =>
    onGraphState do
      let walk ← Traversal.start module
      walkNames (← walk.take Report.walkLimit)
  | _, _ =>
    let list ← listProperty r name
    match list.memberName? with
    | none => refuse (.noSuchField name)
    | some memberName =>
      let items ← onGraph (list.part.read r.typed)
      return .list (← onGraphState (items.mapM (nameAnswer memberName.read)))

/-- Does something with an owner and a member of known kinds. -/
def linkOn {o m : EntityKind} (link : Link) (own : Ownership Graph Error (Ref o) (Ref m))
    (attach : Ref o → Ref m → GraphAction Unit) (owner : Ref o) (member : Ref m) :
    GraphAction Answer := do
  match link with
  | .setOwner | .attach =>
    attach owner member
    return .done
  | .remove => return .flag (← own.remove owner member)
  | .contains => return .flag (← own.contains owner member)

/-- Does something with an owner and a member. -/
def runLink (link : Link) (owner member : AnyRef) : SessionAction Answer := do
  match owner, member with
  | ⟨.module, o⟩, ⟨.typeDef, m⟩ =>
    onGraph (linkOn link Graph.typeOwnership Graph.attachType ⟨o⟩ ⟨m⟩)
  | ⟨.typeDef, o⟩, ⟨.field, m⟩ =>
    onGraph (linkOn link Graph.fieldOwnership (Graph.fieldOwnership.attach fun _ _ => pure ())
      ⟨o⟩ ⟨m⟩)
  | ⟨.typeDef, o⟩, ⟨.methodDef, m⟩ =>
    onGraph (linkOn link Graph.methodOwnership (Graph.methodOwnership.attach fun _ _ => pure ())
      ⟨o⟩ ⟨m⟩)
  | ⟨.typeDef, o⟩, ⟨.nestedClass, m⟩ =>
    onGraph (linkOn link Graph.recordOwnership Graph.attachRecord ⟨o⟩ ⟨m⟩)
  | _, _ => refuse (.wrongKinds (.text link.name))

/-- The owner of an entity. -/
def runOwner (name : Literal) (r : AnyRef) : SessionAction Answer := do
  match r with
  | ⟨.typeDef, id⟩ => Report.ofRef? <$> onGraph (Graph.typeOwnership.owner ⟨id⟩)
  | ⟨.field, id⟩ => Report.ofRef? <$> onGraph (Graph.fieldOwnership.owner ⟨id⟩)
  | ⟨.methodDef, id⟩ => Report.ofRef? <$> onGraph (Graph.methodOwnership.owner ⟨id⟩)
  | ⟨.nestedClass, id⟩ => Report.ofRef? <$> onGraph (Graph.recordOwnership.owner ⟨id⟩)
  | _ => refuse (.wrongKinds name)

/-- Takes an entity from its owner. -/
def runDetach (name : Literal) (r : AnyRef) : SessionAction Answer := do
  match r with
  | ⟨.typeDef, id⟩ => Answer.flag <$> onGraph (Graph.typeOwnership.detach ⟨id⟩)
  | ⟨.field, id⟩ => Answer.flag <$> onGraph (Graph.fieldOwnership.detach ⟨id⟩)
  | ⟨.methodDef, id⟩ => Answer.flag <$> onGraph (Graph.methodOwnership.detach ⟨id⟩)
  | ⟨.nestedClass, id⟩ => Answer.flag <$> onGraph (Graph.recordOwnership.detach ⟨id⟩)
  | _ => refuse (.wrongKinds name)

/-- Takes a step of a walk. -/
def runStep (name : Literal) : SessionAction Answer := do
  match name, ← walk? name with
  | .text key, some walk =>
    let (step, walk) ← onGraphState walk.next
    Action.change (keepWalk key walk)
    match step with
    | some (.ok type) => return .entity type.any
    | some (.error e) => throw (.error e)
    | none => return .nothing
  | _, _ => refuse (.noSuchEntity name)

/-- Makes a record nest a type, or none.  The type is looked up before the record. -/
def runSetNested (of type : Literal) : SessionAction Answer := do
  let type? ← match type with
    | .null => pure none
    | type => some <$> entity type
  let record ← entity of
  match record.as? .nestedClass, type?, type?.bind (·.as? .typeDef) with
  | some record, none, _ =>
    onGraph (Graph.setNested record none)
    return .done
  | some record, some _, some type =>
    onGraph (Graph.setNested record (some type))
    return .done
  | _, _, _ => refuse (.wrongKinds of)

/-- Authors an entity of kind `k`. -/
def add (k : EntityKind) (contents : k.Entity) : SessionAction Answer := do
  let r : Ref k ← onGraph (Graph.author contents)
  return .entity r.any

/-- Authors an entity. -/
def runAuthor : NewEntity → SessionAction Answer
  | .module name mvid => add .module (Entity.Module.authored name mvid)
  | .type space name flags => add .typeDef (Entity.TypeDef.authored space name flags)
  | .typeReference space name scope => do
    add .typeRef (Entity.TypeRef.authored space name (← valueOf scope .reference))
  | .field name flags signature => add .field (Entity.Field.authored name flags signature)
  | .method name flags signature => add .methodDef (Entity.MethodDef.authored name flags signature)
  | .moduleReference name => add .moduleRef (Entity.ModuleRef.authored name)
  | .assemblyReference name version =>
    add .assemblyRef (Entity.AssemblyRef.authored name version)
  | .nestingRecord type => do
    add .nestedClass (Entity.NestedClass.authored (← entityOf .typeDef type))

/-- Carries out a command. -/
def run : Command → SessionAction Answer
  | .resolve token => Answer.ofRef? <$> resolve token
  | .find kind token => do
    return Report.ofRef? ((← resolve token).bind (AnyRef.as? kind))
  | .resolveCoded kind value => do
    let _ ← image
    Answer.ofRef? <$> onGraph (Graph.resolveCoded kind value)
  | .module => do
    return Report.ofRef? ((← resolve (Token.ofRow .module 1)).bind (AnyRef.as? .module))
  | .cachedCount => do
    let _ ← image
    asking fun g => .number g.rowEntityCount
  | .tables => asking fun g =>
    let present := fun (image : MetadataImage) =>
      TableId.all.filter fun t => image.tables.rowCount t ≠ 0
    .list ((g.image?.map present).getD [] |>.map fun t => .text t.name)
  | .author contents => runAuthor contents
  | .get of name => do runGet (← entity of) name
  | .set of name value => do
    let r ← entity of
    let p ← property r name
    let value ← valueOf value p.valueKind
    onGraph (p.part.write r.typed value)
    return .done
  | .query query of name => do runQuery query (← entity of) name
  | .list query of name => do runList query (← entity of) name
  | .names of name => do runNames (← entity of) name
  | .allTypes of limit => do
    onGraphState (Report.allTypes limit (← entityOf .module of))
  | .startWalk of name => do
    let walk ← onGraphState (Traversal.start (← entityOf .module of))
    Action.change (keepWalk name walk)
    return .done
  | .stepWalk name => runStep name
  | .link link owner member => do
    let owner ← entity owner
    let member ← entity member
    runLink link owner member
  | .owner of => do runOwner of (← entity of)
  | .detach of => do runDetach of (← entity of)
  | .setNested of type => runSetNested of type
  | .nest of type => do
    let enclosing ← entity of
    let type ← entity type
    match enclosing.as? .typeDef, type.as? .typeDef with
    | some enclosing, some type =>
      let record ← onGraph (Graph.nest enclosing type)
      return .entity record.any
    | _, _ => refuse (.wrongKinds of)
  | .describe of => do
    let r ← entity of
    return .list [.text r.kind.name, .text r.token.display, .text r.label]
  | .same a b => do
    let a ← entity a
    let b ← entity b
    return .flag (a = b)
  | .downgrade of name => do
    Action.change (hold name (.weak (← entity of)))
    return .done
  | .upgrade of => do
    match ← handle? of with
    | some (.weak r) => asking fun g => .ofRef? (if g.isAlive r then some r else none)
    | _ => refuse (.noSuchEntity of)
  | .drop of => do
    let held := (← handle? of).isSome
    Action.change fun s => (of.text?.map (letGo · s)).getD s
    return .flag held
  | .dropImage => do
    let present ← asking (·.image?.isSome)
    Action.change fun s => { s with graph := s.graph.dropImage }
    return .flag present
  | .dump => do onGraphState (Report.graph (← image))

/-- Carries out a request.  An entity that it answers with is held under the name that was asked
for; whatever nothing holds afterwards is let go. -/
def perform (request : Request) : StateM Session Answer := do
  let answer ← match ← (run request.command).run with
    | .ok answer => pure answer
    | .error failure => pure failure.answer
  match request.keepAs?, answer with
  | some name, .entity r => modify (hold name (.strong r))
  | _, _ => pure ()
  modify sweep
  return answer

end Session

end ManagedImage
