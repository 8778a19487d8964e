import ManagedImage.Token

/-!
# Entities and references

Metadata describes entities: modules, types, members and references to other
files.  An entity comes from a row of an image, or it was authored and has no
row.  A reference names an entity without holding its contents, and two
references to one entity are equal.

## Main definitions

* `EntityKind` — the kinds of entity, each with the table of its rows.
* `Identity` — a row number, or the number of an authored entity.
* `Ref k`, `AnyRef` — a reference to an entity of one kind, or of any kind.
-/

namespace ManagedImage

/-- A kind of entity. -/
inductive EntityKind where
  /-- A module, which owns top-level types. -/
  | module
  /-- A type that is defined elsewhere. -/
  | typeRef
  /-- A type. -/
  | typeDef
  /-- A field of a type. -/
  | field
  /-- A method of a type. -/
  | methodDef
  /-- A record that nests one type in another. -/
  | nestedClass
  /-- A reference to another module. -/
  | moduleRef
  /-- A reference to another assembly. -/
  | assemblyRef
  deriving DecidableEq, Repr, Hashable

namespace EntityKind

/-- All kinds. -/
def all : List EntityKind :=
  [module, typeRef, typeDef, field, methodDef, nestedClass, moduleRef, assemblyRef]

/-- The table whose rows are entities of this kind. -/
def table : EntityKind → TableId
  | module => .module
  | typeRef => .typeRef
  | typeDef => .typeDef
  | field => .field
  | methodDef => .methodDef
  | nestedClass => .nestedClass
  | moduleRef => .moduleRef
  | assemblyRef => .assemblyRef

/-- The kind of entity in the rows of a table, if they are entities. -/
def ofTable? : TableId → Option EntityKind
  | .module => some module
  | .typeRef => some typeRef
  | .typeDef => some typeDef
  | .field => some field
  | .methodDef => some methodDef
  | .nestedClass => some nestedClass
  | .moduleRef => some moduleRef
  | .assemblyRef => some assemblyRef
  | _ => none

/-- The name of the kind is that of its table. -/
def name (k : EntityKind) : String := k.table.name

@[simp] theorem mem_all (k : EntityKind) : k ∈ all := by
  cases k <;> decide

@[simp] theorem ofTable?_table (k : EntityKind) : ofTable? k.table = some k := by
  cases k <;> rfl

theorem ofTable?_eq_some_iff {t : TableId} {k : EntityKind} :
    ofTable? t = some k ↔ t = k.table := by
  constructor
  · intro h
    unfold ofTable? at h
    split at h <;> simp_all [table] <;> subst h <;> rfl
  · rintro rfl
    exact ofTable?_table k

end EntityKind

/-- What tells an entity from all others of its kind. -/
inductive Identity where
  /-- The entity of the row with this number. -/
  | row (rid : UInt32)
  /-- The entity that was authored with this number. -/
  | authored (number : Nat)
  deriving DecidableEq, Repr, Hashable

namespace Identity

/-- The row number; an authored entity has row 0. -/
def rid : Identity → UInt32
  | row rid => rid
  | authored _ => 0

/-- The entity comes from a row. -/
def isRow : Identity → Bool
  | row _ => true
  | authored _ => false

end Identity

/-- A reference to an entity of kind `k`. -/
structure Ref (k : EntityKind) where
  /-- Which entity of the kind. -/
  id : Identity
  deriving DecidableEq, Repr

/-- A reference to an entity. -/
structure AnyRef where
  /-- The kind of the entity. -/
  kind : EntityKind
  /-- Which entity of the kind. -/
  id : Identity
  deriving DecidableEq, Repr, Hashable

/-- The same entity, with its kind forgotten. -/
def Ref.any {k : EntityKind} (r : Ref k) : AnyRef := ⟨k, r.id⟩

namespace AnyRef

/-- The same entity, with its kind in the type. -/
def typed (r : AnyRef) : Ref r.kind := ⟨r.id⟩

/-- The same entity, if it is of kind `k`. -/
def as? (k : EntityKind) (r : AnyRef) : Option (Ref k) := if r.kind = k then some ⟨r.id⟩ else none

/-- The token of the entity; that of an authored entity has row 0. -/
def token (r : AnyRef) : Token := Token.ofRow r.kind.table r.id.rid

/-- A text for the entity: its kind with its token, or with its number if it was authored. -/
def label (r : AnyRef) : String :=
  match r.id with
  | .row _ => r.kind.name ++ ":" ++ r.token.display
  | .authored number => r.kind.name ++ "#" ++ toString number

@[simp] theorem any_typed (r : AnyRef) : r.typed.any = r := rfl

@[simp] theorem as?_any {k : EntityKind} (r : Ref k) : r.any.as? k = some r := by
  simp [as?, Ref.any]

theorem as?_eq_some_iff {k : EntityKind} {r : AnyRef} {s : Ref k} :
    r.as? k = some s ↔ r = s.any := by
  obtain ⟨kind, id⟩ := r
  obtain ⟨id'⟩ := s
  by_cases h : kind = k
  · subst h
    simp [as?, Ref.any]
  · simp [as?, Ref.any, h]

end AnyRef

theorem Ref.any_injective {k : EntityKind} {r s : Ref k} (h : r.any = s.any) : r = s := by
  cases r
  cases s
  simpa [Ref.any] using h

end ManagedImage
