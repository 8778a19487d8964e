import ManagedImage.Table.Fields
import ManagedImage.Table.Widths

/-!
# Columns and layouts

Every table has a fixed list of columns.  Together with the widths of one stream
they give the layout of its rows.

## Main definitions

* `ColumnKind` — what a column holds, which decides its width.
* `TableId.columns` — the columns of each table.
* `Layout` — the columns of a table with their widths.
* `Layout.resolve` — the layout of a table in one stream.
* `TableId.length_columns` — there is a column for each field of a row.
-/

namespace ManagedImage

/-- A heap that a column may refer to. -/
inductive HeapKind where
  /-- Texts. -/
  | string
  /-- Globally unique identifiers. -/
  | guid
  /-- Byte strings. -/
  | blob
  deriving DecidableEq, Repr

/-- What a column holds. -/
inductive ColumnKind where
  /-- A number of `width` bytes. -/
  | fixed (width : Nat)
  /-- An index into a heap. -/
  | heap (heap : HeapKind)
  /-- A row number of one table. -/
  | table (table : TableId)
  /-- A row number of one of several tables. -/
  | coded (kind : CodedKind)
  deriving DecidableEq, Repr

/-- The name of a heap. -/
def HeapKind.name : HeapKind → String
  | string => "String"
  | guid => "Guid"
  | blob => "Blob"

/-- A text that shows the kind of a column. -/
def ColumnKind.describe : ColumnKind → String
  | fixed width => "Fixed(" ++ toString width ++ ")"
  | heap h => "Heap(" ++ h.name ++ ")"
  | table t => "Table(" ++ t.name ++ ")"
  | coded k => "Coded(" ++ k.name ++ ")"

/-- The width of a column in a stream with the given widths. -/
def ColumnKind.width (w : Widths) : ColumnKind → Nat
  | fixed width => width
  | heap .string => w.stringBytes
  | heap .guid => w.guidBytes
  | heap .blob => w.blobBytes
  | table t => w.tableBytes t
  | coded k => w.codedBytes k

/-- The names and kinds of the columns of a table, in row order. -/
def TableId.columns : TableId → List (String × ColumnKind)
  | .module =>
    [("Generation", .fixed 2), ("Name", .heap .string), ("Mvid", .heap .guid),
      ("EncId", .heap .guid), ("EncBaseId", .heap .guid)]
  | .typeRef =>
    [("ResolutionScope", .coded .resolutionScope), ("TypeName", .heap .string),
      ("TypeNamespace", .heap .string)]
  | .typeDef =>
    [("Flags", .fixed 4), ("TypeName", .heap .string), ("TypeNamespace", .heap .string),
      ("Extends", .coded .typeDefOrRef), ("FieldList", .table .field),
      ("MethodList", .table .methodDef)]
  | .fieldPtr => [("Field", .table .field)]
  | .field => [("Flags", .fixed 2), ("Name", .heap .string), ("Signature", .heap .blob)]
  | .methodPtr => [("Method", .table .methodDef)]
  | .methodDef =>
    [("RVA", .fixed 4), ("ImplFlags", .fixed 2), ("Flags", .fixed 2),
      ("Name", .heap .string), ("Signature", .heap .blob), ("ParamList", .table .param)]
  | .paramPtr => [("Param", .table .param)]
  | .param => [("Flags", .fixed 2), ("Sequence", .fixed 2), ("Name", .heap .string)]
  | .interfaceImpl => [("Class", .table .typeDef), ("Interface", .coded .typeDefOrRef)]
  | .memberRef =>
    [("Class", .coded .memberRefParent), ("Name", .heap .string),
      ("Signature", .heap .blob)]
  | .constant =>
    [("Type", .fixed 1), ("Padding", .fixed 1), ("Parent", .coded .hasConstant),
      ("Value", .heap .blob)]
  | .customAttribute =>
    [("Parent", .coded .hasCustomAttribute), ("Type", .coded .customAttributeType),
      ("Value", .heap .blob)]
  | .fieldMarshal => [("Parent", .coded .hasFieldMarshal), ("NativeType", .heap .blob)]
  | .declSecurity =>
    [("Action", .fixed 2), ("Parent", .coded .hasDeclSecurity),
      ("PermissionSet", .heap .blob)]
  | .classLayout =>
    [("PackingSize", .fixed 2), ("ClassSize", .fixed 4), ("Parent", .table .typeDef)]
  | .fieldLayout => [("Offset", .fixed 4), ("Field", .table .field)]
  | .standAloneSig => [("Signature", .heap .blob)]
  | .eventMap => [("Parent", .table .typeDef), ("EventList", .table .event)]
  | .eventPtr => [("Event", .table .event)]
  | .event =>
    [("EventFlags", .fixed 2), ("Name", .heap .string), ("EventType", .coded .typeDefOrRef)]
  | .propertyMap => [("Parent", .table .typeDef), ("PropertyList", .table .property)]
  | .propertyPtr => [("Property", .table .property)]
  | .property => [("Flags", .fixed 2), ("Name", .heap .string), ("Type", .heap .blob)]
  | .methodSemantics =>
    [("Semantics", .fixed 2), ("Method", .table .methodDef),
      ("Association", .coded .hasSemantics)]
  | .methodImpl =>
    [("Class", .table .typeDef), ("MethodBody", .coded .methodDefOrRef),
      ("MethodDeclaration", .coded .methodDefOrRef)]
  | .moduleRef => [("Name", .heap .string)]
  | .typeSpec => [("Signature", .heap .blob)]
  | .implMap =>
    [("MappingFlags", .fixed 2), ("MemberForwarded", .coded .memberForwarded),
      ("ImportName", .heap .string), ("ImportScope", .table .moduleRef)]
  | .fieldRva => [("RVA", .fixed 4), ("Field", .table .field)]
  | .encLog => [("Token", .fixed 4), ("FuncCode", .fixed 4)]
  | .encMap => [("Token", .fixed 4)]
  | .assembly =>
    [("HashAlgId", .fixed 4), ("MajorVersion", .fixed 2), ("MinorVersion", .fixed 2),
      ("BuildNumber", .fixed 2), ("RevisionNumber", .fixed 2), ("Flags", .fixed 4),
      ("PublicKey", .heap .blob), ("Name", .heap .string), ("Culture", .heap .string)]
  | .assemblyProcessor => [("Processor", .fixed 4)]
  | .assemblyOs =>
    [("OSPlatformID", .fixed 4), ("OSMajorVersion", .fixed 4), ("OSMinorVersion", .fixed 4)]
  | .assemblyRef =>
    [("MajorVersion", .fixed 2), ("MinorVersion", .fixed 2), ("BuildNumber", .fixed 2),
      ("RevisionNumber", .fixed 2), ("Flags", .fixed 4), ("PublicKeyOrToken", .heap .blob),
      ("Name", .heap .string), ("Culture", .heap .string), ("HashValue", .heap .blob)]
  | .assemblyRefProcessor => [("Processor", .fixed 4), ("AssemblyRef", .table .assemblyRef)]
  | .assemblyRefOs =>
    [("OSPlatformID", .fixed 4), ("OSMajorVersion", .fixed 4), ("OSMinorVersion", .fixed 4),
      ("AssemblyRef", .table .assemblyRef)]
  | .file => [("Flags", .fixed 4), ("Name", .heap .string), ("HashValue", .heap .blob)]
  | .exportedType =>
    [("Flags", .fixed 4), ("TypeDefId", .fixed 4), ("TypeName", .heap .string),
      ("TypeNamespace", .heap .string), ("Implementation", .coded .implementation)]
  | .manifestResource =>
    [("Offset", .fixed 4), ("Flags", .fixed 4), ("Name", .heap .string),
      ("Implementation", .coded .implementation)]
  | .nestedClass => [("NestedClass", .table .typeDef), ("EnclosingClass", .table .typeDef)]
  | .genericParam =>
    [("Number", .fixed 2), ("Flags", .fixed 2), ("Owner", .coded .typeOrMethodDef),
      ("Name", .heap .string)]
  | .methodSpec => [("Method", .coded .methodDefOrRef), ("Instantiation", .heap .blob)]
  | .genericParamConstraint =>
    [("Owner", .table .genericParam), ("Constraint", .coded .typeDefOrRef)]

/-- A table has one column for each field of its rows. -/
theorem TableId.length_columns (t : TableId) : t.columns.length = t.arity := by
  cases t <;> rfl

/-- A column with its width. -/
structure Column where
  /-- The name of the column. -/
  name : String
  /-- What the column holds. -/
  kind : ColumnKind
  /-- The bytes that the column takes in a row. -/
  size : Nat
  deriving DecidableEq, Repr

/-- How the rows of a table lie in memory.  A layout may also be put together by hand, with
columns that fit no table and a row size that is not the sum of theirs. -/
structure Layout where
  /-- The table whose rows are laid out. -/
  table : TableId
  /-- The columns in row order. -/
  columns : List Column
  /-- The distance from one row to the next. -/
  rowSize : Nat
  deriving DecidableEq, Repr

/-- The bytes that the given columns take together. -/
def Column.totalSize : List Column → Nat
  | [] => 0
  | c :: columns => c.size + totalSize columns

namespace Layout

/-- The layout with the given columns, one right after the other. -/
def ofColumns (table : TableId) (columns : List Column) : Layout :=
  ⟨table, columns, Column.totalSize columns⟩

/-- The layout of `table` in a stream with the given widths. -/
def resolve (w : Widths) (table : TableId) : Layout :=
  ofColumns table (table.columns.map fun (name, kind) => ⟨name, kind, kind.width w⟩)

/-- The layouts of all tables in a stream with the given widths. -/
def resolveAll (w : Widths) : PerTable Layout := PerTable.ofFn (resolve w)

/-- Where the first of the given columns with the given name starts, the first column being at
`start`. -/
def offsetFrom? (name : String) (start : Nat) : List Column → Option Nat
  | [] => none
  | c :: columns =>
    if c.name == name then some start else offsetFrom? name (start + c.size) columns

/-- Where the column with the given name starts in a row. -/
def offset? (l : Layout) (name : String) : Option Nat := offsetFrom? name 0 l.columns

@[simp] theorem table_resolve (w : Widths) (t : TableId) : (resolve w t).table = t := rfl

@[simp] theorem length_columns_resolve (w : Widths) (t : TableId) :
    (resolve w t).columns.length = t.arity := by
  rw [resolve, ofColumns, List.length_map, TableId.length_columns]

theorem rowSize_resolve (w : Widths) (t : TableId) :
    (resolve w t).rowSize = Column.totalSize (resolve w t).columns := rfl

end Layout

/-- A fixed column of a table is one, two or four bytes wide. -/
theorem TableId.fixed_width_of_mem {t : TableId} {name : String} {width : Nat}
    (h : (name, ColumnKind.fixed width) ∈ t.columns) : width = 1 ∨ width = 2 ∨ width = 4 := by
  have key : ∀ c ∈ t.columns, ∀ n, c.2 = ColumnKind.fixed n → n = 1 ∨ n = 2 ∨ n = 4 := by
    cases t <;> simp [TableId.columns]
  exact key _ h width rfl

end ManagedImage
