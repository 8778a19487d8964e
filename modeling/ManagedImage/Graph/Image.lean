import ManagedImage.Graph.Grouping
import ManagedImage.Graph.MemberRuns
import ManagedImage.Table.CodedIndex
import ManagedImage.View

/-!
# Images as sources of entities

An image offers the entities of its rows.  Which type owns a member, and which
type encloses another, is not in the row of the member or of the nested type;
an index answers both, unless a row that it needs cannot be read.

## Main definitions

* `OwnerIndex` — members to types, nested types to enclosing types, and back.
* `MetadataImage` — a view with its index.
* `MetadataImage.resolve?`, `MetadataImage.resolveCoded` — the entity that a token or a coded
  index names.
-/

namespace ManagedImage

/-- Who owns what in a tables stream, by row numbers. -/
structure OwnerIndex where
  /-- The first type that has a field. -/
  fieldOwner : Std.HashMap UInt32 UInt32
  /-- The first type that has a method. -/
  methodOwner : Std.HashMap UInt32 UInt32
  /-- The enclosing type that the first nesting record of a type names. -/
  enclosing : Std.HashMap UInt32 UInt32
  /-- The nesting records of an enclosing type. -/
  records : Std.HashMap UInt32 (List UInt32)

namespace OwnerIndex

/-- The row numbers of a table. -/
def rids (s : TablesStream) (t : TableId) : List UInt32 := ((s.rows? t).map Rows.rids).getD []

/-- Each member of each type, with the type. -/
def memberPairs (s : TablesStream) (l : MemberList) : Except Error (List (UInt32 × UInt32)) := do
  let runs ← (rids s .typeDef).mapM fun type =>
    List.map (fun member => (member, type)) <$> s.memberRids l type
  return runs.flatten

/-- The first type that has each member.  What is past the end of the table of members has none,
although a pointer may name it. -/
def owners (s : TablesStream) (l : MemberList) : Except Error (Std.HashMap UInt32 UInt32) := do
  let pairs ← memberPairs s l
  return Grouping.first (pairs.filter fun p => p.1 ≤ s.rowCount l.target)

/-- The nesting records. -/
def nestingRows (s : TablesStream) : List Row := ((s.rows? .nestedClass).map Rows.readable).getD []

/-- The index of a tables stream. -/
def ofTables (s : TablesStream) : Except Error OwnerIndex := do
  return {
    fieldOwner := ← owners s .fields
    methodOwner := ← owners s .methods
    enclosing := Grouping.first ((nestingRows s).map fun r => (r.column 0, r.column 1))
    records := Grouping.all ((nestingRows s).map fun r => (r.column 1, r.rid)) }

end OwnerIndex

/-- A decoded image. -/
structure MetadataImage where
  /-- The decoded streams. -/
  view : MetadataView
  /-- Who owns what, or why that cannot be told. -/
  index : Except Error OwnerIndex
  /-- The index is that of the tables. -/
  index_eq : index = OwnerIndex.ofTables view.tables

namespace MetadataImage

/-- The image of a view. -/
def ofView (view : MetadataView) : MetadataImage := ⟨view, _, rfl⟩

/-- Decodes the streams of an image. -/
def decode (config : Config) (source : MetadataStreams) : Except Error MetadataImage :=
  ofView <$> MetadataView.decode config source

/-- The tables. -/
def tables (i : MetadataImage) : TablesStream := i.view.tables

/-- The configuration that the image was decoded with. -/
def config (i : MetadataImage) : Config := i.view.config

/-- The entity that a token names: its table must be one of entities, and have the row. -/
def resolve? (i : MetadataImage) (t : Token) : Option AnyRef :=
  match t.tableId?.bind EntityKind.ofTable? with
  | none => none
  | some kind =>
    if t.row = 0 ∨ i.tables.rowCount kind.table < t.row then none
    else some ⟨kind, .row t.row⟩

/-- The entity of kind `k` in the row with number `rid`, whose low 24 bits count. -/
def entityAt? (i : MetadataImage) (k : EntityKind) (rid : UInt32) : Option (Ref k) :=
  (i.resolve? (Token.ofRow k.table rid)).bind (AnyRef.as? k)

/-- The entity that a coded index refers to. -/
def resolveCoded (i : MetadataImage) (kind : CodedKind) (value : UInt32) :
    Except Error (Option AnyRef) := do
  let index ← kind.decode value
  return if index.isNull then none else i.resolve? index.token

/-- The first type that has the member with row number `rid`. -/
def memberOwner (i : MetadataImage) (l : MemberList) (rid : UInt32) :
    Except Error (Option UInt32) := do
  let index ← i.index
  return match l with
    | .fields => index.fieldOwner[rid]?
    | .methods => index.methodOwner[rid]?

/-- The type that encloses the type with row number `rid`. -/
def enclosingRid (i : MetadataImage) (rid : UInt32) : Except Error (Option UInt32) := do
  return (← i.index).enclosing[rid]?

/-- The nesting records of the enclosing type with row number `rid`. -/
def nestingRecords (i : MetadataImage) (rid : UInt32) : Except Error (List UInt32) := do
  return (← i.index).records.getD rid []

end MetadataImage

end ManagedImage
