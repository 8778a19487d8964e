import ManagedImage.Graph.Naming
import ManagedImage.Graph.Property
import ManagedImage.Session.Basic

/-!
# Commands

Everything that a user can do with a graph is a command.  Commands name
entities by the handles that hold them or by their tokens.

## Main definitions

* `Command` — what can be done.
* `Link`, `ListQuery` — the commands on owners and members, and on lists.
* `NewEntity` — the entities that can be authored.
-/

namespace ManagedImage

/-- A change of, or a question about, an owner and a member. -/
inductive Link where
  /-- The member is given the owner. -/
  | setOwner
  /-- The owner is given the member. -/
  | attach
  /-- The member is taken from the owner. -/
  | remove
  /-- Is the member in the list of the owner? -/
  | contains
  deriving DecidableEq, Repr

namespace Link

/-- The name of the command. -/
def name : Link → String
  | setOwner => "set_owner"
  | attach => "attach"
  | remove => "remove"
  | contains => "contains"

/-- The command with the given name. -/
def ofName? (name : String) : Option Link :=
  [setOwner, attach, remove, contains].find? (·.name == name)

end Link

/-- A question about a list. -/
inductive ListQuery where
  /-- What is in it? -/
  | items
  /-- How long is it? -/
  | length
  /-- Is it empty? -/
  | isEmpty
  /-- A text that shows its length, if it has been loaded. -/
  | describe
  deriving DecidableEq, Repr

/-- The question with the given name. -/
def ListQuery.ofName? : String → Option ListQuery
  | "items" => some items
  | "len" => some length
  | "is_empty" => some isEmpty
  | "debug" => some describe
  | _ => none

/-- A question about an attribute as it stands, or a change that looks at it first. -/
inductive PropertyQuery where
  /-- The value, if it is there. -/
  | peek
  /-- Is the value there? -/
  | isEvaluated
  /-- A text that shows the value, if it is there. -/
  | describe
  /-- Replace the value by the following one. -/
  | update
  deriving DecidableEq, Repr

/-- The question with the given name. -/
def PropertyQuery.ofName? : String → Option PropertyQuery
  | "peek" => some peek
  | "evaluated" => some isEvaluated
  | "debug" => some describe
  | "update" => some update
  | _ => none

/-- The kind of entity that a command with the given name finds by token. -/
def EntityKind.ofCommand? : String → Option EntityKind
  | "type_definition" => some typeDef
  | "type_reference" => some typeRef
  | "field" => some field
  | "method" => some methodDef
  | "nested_class" => some nestedClass
  | "module_reference" => some moduleRef
  | "assembly_reference" => some assemblyRef
  | _ => none

/-- An entity that is to be authored. -/
inductive NewEntity where
  /-- A module. -/
  | module (name : String) (mvid : Option Guid)
  /-- A type. -/
  | type (namespaceName name : String) (flags : UInt32)
  /-- A type reference, which is found in `scope`. -/
  | typeReference (namespaceName name : String) (scope : Literal)
  /-- A field. -/
  | field (name : String) (flags : UInt16) (signature : Bytes)
  /-- A method. -/
  | method (name : String) (flags : UInt16) (signature : Bytes)
  /-- A module reference. -/
  | moduleReference (name : String)
  /-- An assembly reference. -/
  | assemblyReference (name : String) (version : AssemblyVersion)
  /-- A nesting record, which is in no list. -/
  | nestingRecord (type : Literal)

/-- Something that can be done with a graph. -/
inductive Command where
  /-- The entity of a token. -/
  | resolve (token : Token)
  /-- The entity of a token, if it is of the kind. -/
  | find (kind : EntityKind) (token : Token)
  /-- The entity that a coded index refers to. -/
  | resolveCoded (kind : CodedKind) (value : UInt32)
  /-- The first module. -/
  | module
  /-- How many entities of rows exist? -/
  | cachedCount
  /-- The tables of the image that have rows. -/
  | tables
  /-- Author an entity. -/
  | author (contents : NewEntity)
  /-- The value of an attribute, or something computed from several. -/
  | get (of : Literal) (property : Literal)
  /-- Replace the value of an attribute. -/
  | set (of : Literal) (property : Literal) (value : Literal)
  /-- Ask about an attribute, or update it. -/
  | query (query : PropertyQuery) (of : Literal) (property : Literal)
  /-- Ask about a list. -/
  | list (query : ListQuery) (of : Literal) (list : Literal)
  /-- The names of the entities in a list, or of all types of a module. -/
  | names (of : Literal) (list : Literal)
  /-- The types of a module, nested ones too. -/
  | allTypes (of : Literal) (limit : Nat)
  /-- Start a walk over the types of a module. -/
  | startWalk (of : Literal) (name : String)
  /-- Take a step of a walk. -/
  | stepWalk (walk : Literal)
  /-- Do something with an owner and a member. -/
  | link (link : Link) (owner member : Literal)
  /-- The owner of an entity. -/
  | owner (of : Literal)
  /-- Take an entity from its owner. -/
  | detach (of : Literal)
  /-- Make a record nest a type, or none. -/
  | setNested (of type : Literal)
  /-- Nest a type in another one. -/
  | nest (of type : Literal)
  /-- The kind, token and label of an entity. -/
  | describe (of : Literal)
  /-- Are two entities one? -/
  | same (a b : Literal)
  /-- Hold an entity in a way that does not keep it. -/
  | downgrade (of : Literal) (name : String)
  /-- The entity that is held in such a way, while it exists. -/
  | upgrade (of : Literal)
  /-- Let go of a handle. -/
  | drop (of : Literal)
  /-- Let go of the image. -/
  | dropImage
  /-- Show everything. -/
  | dump

/-- The command lets go of the image. -/
def Command.dropsImage : Command → Bool
  | .dropImage => true
  | _ => false

/-- A command, with a name for the entity that it answers with. -/
structure Request where
  /-- What is to be done. -/
  command : Command
  /-- The name under which the answer is held. -/
  keepAs? : Option String

end ManagedImage
