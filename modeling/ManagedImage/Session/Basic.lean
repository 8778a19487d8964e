import ManagedImage.Graph.Liveness
import ManagedImage.Graph.Traversal
import ManagedImage.Session.Answer

/-!
# Sessions

A session is a graph together with what its user holds on to: entities, and
entities that need not stay, under names of one kind, and walks under names of
another.

## Main definitions

* `Handle` — an entity that is held.
* `Session` — a graph, the handles and the walks.
* `SessionAction` — an action on a session, which ends with an error or a refusal where it fails.
* `Session.entity` — the entity that a value names.
-/

namespace ManagedImage

/-- An entity that the user of a graph holds on to. -/
inductive Handle where
  /-- An entity, which stays as long as the handle does. -/
  | strong (r : AnyRef)
  /-- An entity, which may go. -/
  | weak (r : AnyRef)

/-- The entities that a handle keeps. -/
def Handle.held : Handle → List AnyRef
  | strong r => [r]
  | weak _ => []

/-- A graph that is being used. -/
structure Session where
  /-- The graph. -/
  graph : Graph
  /-- The handles, by name. -/
  handles : Std.HashMap String Handle
  /-- The walks that have been started, by name. -/
  walks : Std.HashMap String Traversal

/-- Why a command ends early. -/
inductive Failure where
  /-- An error came up. -/
  | error (e : Error)
  /-- The command could not be carried out. -/
  | refusal (r : Refusal)

/-- An action on a session. -/
abbrev SessionAction (α : Type) := Action Session Failure α

/-- The answer that a failure amounts to. -/
def Failure.answer : Failure → Answer
  | error e => .failed e
  | refusal r => .refused r

namespace Session

/-- A session without handles. -/
def start (image? : Option MetadataImage) : Session := ⟨.empty image?, ∅, ∅⟩

/-- Ends a command that cannot be carried out. -/
def refuse {α : Type} (r : Refusal) : SessionAction α := throw (.refusal r)

/-- Does something with the graph. -/
def onGraph {α : Type} (a : GraphAction α) : SessionAction α := fun ⟨graph, handles, walks⟩ =>
  match a graph with
  | (.ok value, graph') => (.ok value, ⟨graph', handles, walks⟩)
  | (.error e, graph') => (.error (.error e), ⟨graph', handles, walks⟩)

/-- Does something with the graph that does not fail. -/
def onGraphState {α : Type} (a : StateM Graph α) : SessionAction α := fun ⟨graph, handles, walks⟩ =>
  let (value, graph') := a graph
  (.ok value, ⟨graph', handles, walks⟩)

/-- Reads from the graph. -/
def asking {α : Type} (f : Graph → α) : SessionAction α := Action.ask fun s => f s.graph

/-- Gives a name to an entity. -/
def hold (name : String) (h : Handle) (s : Session) : Session :=
  { s with handles := s.handles.insert name h }

/-- Takes the name from an entity. -/
def letGo (name : String) (s : Session) : Session := { s with handles := s.handles.erase name }

/-- Gives a name to a walk. -/
def keepWalk (name : String) (walk : Traversal) (s : Session) : Session :=
  { s with walks := s.walks.insert name walk }

/-- The handle that a value names. -/
def handle? (name : Literal) : SessionAction (Option Handle) :=
  Action.ask fun s => name.text?.bind (s.handles[·]?)

/-- The walk that a value names. -/
def walk? (name : Literal) : SessionAction (Option Traversal) :=
  Action.ask fun s => name.text?.bind (s.walks[·]?)

/-- The image must be there. -/
def image : SessionAction MetadataImage := do
  match ← asking (·.image?) with
  | some image => return image
  | none => refuse .noImage

/-- The entity that a token names. -/
def resolve (t : Token) : SessionAction (Option AnyRef) := do
  let _ ← image
  onGraphState (Graph.resolve t)

/-- The entity that a value names: the one that is held under that name, or the one that a number
names as a token. -/
def entity (name : Literal) : SessionAction AnyRef := do
  match name with
  | .text _ =>
    match ← handle? name with
    | some (.strong r) => return r
    | _ => refuse (.noSuchEntity name)
  | .number n =>
    match ← resolve ⟨UInt32.ofNat n⟩ with
    | some r => return r
    | none => refuse (.noSuchEntity name)
  | _ => refuse (.noSuchEntity name)

/-- The entity of kind `k` that a value names. -/
def entityOf (k : EntityKind) (name : Literal) : SessionAction (Ref k) := do
  match (← entity name).as? k with
  | some r => return r
  | none => refuse (.wrongKinds name)

/-- The entities that the user keeps. -/
def held (s : Session) : List AnyRef :=
  let handled := s.handles.fold (fun found _ h => h.held ++ found) []
  s.walks.fold (fun found _ w => w.held ++ found) handled

/-- Lets go of the entities that nothing holds any more. -/
def sweep (s : Session) : Session :=
  if s.graph.isSettled then s else { s with graph := s.graph.sweep s.held }

end Session

end ManagedImage
