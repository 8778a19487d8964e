import ManagedImage.Table.CodedKind
import ManagedImage.Token

/-!
# Errors

Whatever can go wrong is named by its cause, together with the values that a
reader needs to find the fault.  The wording is a function of the cause.

## Main definitions

* `Malformation` — the bytes, or the values to be written, break the format.
* `Violation` — a caller broke the rules of an object.
* `SinkFault` — an output could not be moved or written.
* `Error` — any of these, with a few causes of their own.
* `Error.message` — the wording.
* `FailsAs` — a computation whose errors are of certain categories.
-/

namespace ManagedImage

/-- A way in which bytes or values break the metadata format. -/
inductive Malformation where
  /-- The stream of `length` bytes is shorter than the fixed header. -/
  | streamTooShort (length : Nat)
  /-- The reserved word or the version of the header is not one that is accepted. -/
  | headerRejected (reserved : UInt32) (major minor : UInt8)
  /-- The header announces rows of `count` tables that are not defined. -/
  | undefinedTables (count : Nat)
  /-- The rows of a table reach past the end of the stream. -/
  | tablePastEnd (table : TableId) (size offset length : Nat)
  /-- A value is too large for a column of two bytes. -/
  | wordTooWide (value : UInt32)
  /-- A value is too large for a column of one byte. -/
  | byteTooWide (value : UInt32) (column : String)
  /-- A column is neither one, two nor four bytes wide. -/
  | unsupportedWidth (column : String) (width : Nat)
  /-- The layout has fewer columns than the rows of the table. -/
  | tooFewColumns
  /-- A row of one table was to be written with the layout of another. -/
  | layoutMismatch (row layout : TableId)
  /-- The tag of a coded index chooses a reserved slot. -/
  | reservedTag (kind : CodedKind) (value : UInt32) (tag : Nat)
  /-- The tag of a coded index is past the slots. -/
  | invalidTag (kind : CodedKind) (value : UInt32) (tag : Nat)
  /-- The kind of coded index does not refer to the table. -/
  | notACandidate (table : TableId) (kind : CodedKind)
  /-- The row number leaves no room for the tag. -/
  | codedRowTooWide (row : UInt32) (kind : CodedKind)
  /-- A string heap must start with the empty string. -/
  | emptyStringHeap
  /-- No text in UTF-8 with a terminator stands at the index. -/
  | invalidString (index : Nat)
  /-- The size of a GUID heap is no multiple of the size of a GUID. -/
  | raggedGuidHeap (size : Nat)
  /-- A blob heap must start with the empty blob. -/
  | emptyBlobHeap
  /-- The first byte of a blob starts no length. -/
  | blobLength (first : UInt8)
  /-- A string is asked for, and there is no string heap. -/
  | missingStrings (index : UInt32)
  /-- A GUID is asked for, and there is no GUID heap. -/
  | missingGuids (index : UInt32)
  /-- A blob is asked for, and there is no blob heap. -/
  | missingBlobs (index : UInt32)
  deriving DecidableEq, Repr

/-- A way in which a caller breaks the rules of an object. -/
inductive Violation where
  /-- A member was to be attached to a collection without a living owner. -/
  | ownerGone
  /-- The number is no kind of fixup. -/
  | unknownFixupKind (number : UInt8)
  /-- A fixup came after the addresses were assigned. -/
  | fixupAfterAssignment (offset : UInt32)
  /-- The operand of a fixup does not lie within the code. -/
  | fixupPastEnd (offset : UInt32) (length : Nat)
  /-- Addresses are assigned once. -/
  | alreadyAssigned
  /-- The assignment leaves out a segment. -/
  | unplacedSegment (segment : Nat)
  /-- The assignment leaves out a symbol that a fixup refers to. -/
  | unaddressedTarget (symbol segment : Nat)
  /-- An address was asked for before there were any. -/
  | addressReadEarly (symbol : Nat)
  /-- The symbol was given no address. -/
  | unaddressedSymbol (symbol : Nat)
  /-- There is no such segment. -/
  | unknownSegment (segment : Nat)
  /-- A segment was to be written before it has a place. -/
  | writtenEarly (segment : Nat)
  /-- A segment is written once. -/
  | writtenTwice (segment : Nat)
  /-- An absolute address does not fit into 32 bits. -/
  | absoluteTooWide (base : UInt64) (target : UInt32)
  /-- A displacement does not fit into 32 bits. -/
  | displacementTooWide (displacement : Int)
  deriving DecidableEq, Repr

/-- A way in which an output refuses to move or to be written. -/
inductive SinkFault where
  /-- A write would pass the fixed end. -/
  | writePastEnd (count position size : Nat)
  /-- A seek to a position before the start or past all positions. -/
  | seekOutOfRange
  /-- A write at a position that no buffer reaches. -/
  | positionOutOfRange
  /-- The file could not be created. -/
  | notFound
  deriving DecidableEq, Repr

/-- Everything that can go wrong. -/
inductive Error where
  /-- The format is broken. -/
  | malformed (cause : Malformation)
  /-- Bytes beyond the end of a buffer were asked for. -/
  | outOfBounds
  /-- The table has no such row. -/
  | rowOutOfRange (table : TableId) (row rows : UInt32)
  /-- The rules of an object were broken. -/
  | violation (cause : Violation)
  /-- A value was to be loaded from an image that is gone. -/
  | imageDropped
  /-- A walk went deeper than `limit` levels. -/
  | recursionLimit (limit : Nat)
  /-- An output failed. -/
  | sink (fault : SinkFault)
  deriving DecidableEq, Repr

/-- Where the fault of an error lies. -/
inductive ErrorCategory where
  /-- In the bytes or values. -/
  | format
  /-- In a row number. -/
  | range
  /-- In how an object was used. -/
  | invariant
  /-- Elsewhere. -/
  | other
  deriving DecidableEq, Repr

/-- The name of a category. -/
def ErrorCategory.name : ErrorCategory → String
  | format => "format"
  | range => "out_of_range"
  | invariant => "invariant"
  | other => "other"

/-- The name of the symbol with the given number. -/
def symbolName (symbol : Nat) : String := "symbol#" ++ toString symbol

namespace Malformation

/-- The wording of a format error. -/
def message : Malformation → String
  | streamTooShort length =>
    "Tables stream of " ++ toString length ++ " bytes is shorter than its 24 byte header"
  | headerRejected reserved major minor =>
    "Tables stream header rejected - reserved 0x" ++ Hex.digits reserved.toNat ++ ", version "
      ++ toString major.toNat ++ "." ++ toString minor.toNat
  | undefinedTables count =>
    "Tables stream announces " ++ toString count ++ " undefined tables"
  | tablePastEnd table size offset length =>
    "Table " ++ table.name ++ " needs " ++ toString size ++ " bytes at offset "
      ++ toString offset ++ ", stream has " ++ toString length
  | wordTooWide value =>
    "Value 0x" ++ Hex.digits value.toNat ++ " does not fit into a 2 byte column"
  | byteTooWide value column =>
    "Value 0x" ++ Hex.digits value.toNat ++ " does not fit into 1 byte column " ++ column
  | unsupportedWidth column width =>
    "Column " ++ column ++ " has unsupported width " ++ toString width
  | tooFewColumns => "Row layout has fewer columns than the row type"
  | layoutMismatch row layout =>
    "Can't write a " ++ row.name ++ " row with the " ++ layout.name ++ " layout"
  | reservedTag kind value tag =>
    kind.name ++ " coded index 0x" ++ Hex.digits value.toNat ++ " uses reserved tag "
      ++ toString tag
  | invalidTag kind value tag =>
    kind.name ++ " coded index 0x" ++ Hex.digits value.toNat ++ " has invalid tag "
      ++ toString tag
  | notACandidate table kind =>
    table.name ++ " is not a valid target for a " ++ kind.name ++ " coded index"
  | codedRowTooWide row kind =>
    "Row " ++ toString row.toNat ++ " does not fit into a " ++ kind.name ++ " coded index"
  | emptyStringHeap => "Provided #Strings heap is empty"
  | invalidString index => "Invalid string at index - " ++ toString index
  | raggedGuidHeap size =>
    "Size of the #GUID heap (" ++ toString size ++ ") is not a multiple of 16"
  | emptyBlobHeap => "Invalid memory for #Blob heap"
  | blobLength first => "Invalid compressed length prefix 0x" ++ Hex.padded 2 first.toNat
  | missingStrings index =>
    "String index " ++ toString index.toNat ++ " without a #Strings heap"
  | missingGuids index => "GUID index " ++ toString index.toNat ++ " without a #GUID heap"
  | missingBlobs index => "Blob index " ++ toString index.toNat ++ " without a #Blob heap"

end Malformation

namespace Violation

/-- The wording of a broken rule. -/
def message : Violation → String
  | ownerGone => "Attaching to a collection whose owner is gone"
  | unknownFixupKind number => "Unknown address fixup kind " ++ toString number.toNat
  | fixupAfterAssignment offset =>
    "Fixup at offset " ++ toString offset.toNat ++ " added after address assignment"
  | fixupPastEnd offset length =>
    "Fixup operand at offset " ++ toString offset.toNat ++ " exceeds the " ++ toString length
      ++ " byte segment"
  | alreadyAssigned => "Addresses were already assigned"
  | unplacedSegment segment => "Segment " ++ toString segment ++ " has no placement"
  | unaddressedTarget symbol segment =>
    "Symbol " ++ symbolName symbol ++ " referenced by segment " ++ toString segment
      ++ " has no address"
  | addressReadEarly symbol =>
    "Address of " ++ symbolName symbol ++ " read before address assignment"
  | unaddressedSymbol symbol => symbolName symbol ++ " has no assigned address"
  | unknownSegment segment => "Unknown segment " ++ toString segment
  | writtenEarly segment =>
    "Segment " ++ toString segment ++ " written before placement"
  | writtenTwice segment => "Segment " ++ toString segment ++ " written twice"
  | absoluteTooWide base target =>
    "Absolute address 0x" ++ Hex.digits base.toNat ++ " + 0x" ++ Hex.digits target.toNat
      ++ " exceeds 32 bits"
  | displacementTooWide displacement =>
    "Displacement " ++ toString displacement ++ " exceeds 32 bits"

end Violation

namespace SinkFault

/-- The name of the kind of fault. -/
def name : SinkFault → String
  | writePastEnd .. => "WriteZero"
  | seekOutOfRange | positionOutOfRange => "InvalidInput"
  | notFound => "NotFound"

/-- The wording of an output fault, where the library words it. -/
def message? : SinkFault → Option String
  | writePastEnd count position size =>
    some ("write of " ++ toString count ++ " bytes at 0x" ++ Hex.digits position
      ++ " exceeds output size 0x" ++ Hex.digits size)
  | seekOutOfRange => some "seek to a negative or overflowing position"
  | positionOutOfRange => some "cursor out of range"
  | notFound => none

end SinkFault

namespace Error

/-- The wording, if the library words the error. -/
def message? : Error → Option String
  | malformed cause => some cause.message
  | outOfBounds =>
    some "Out of Bounds - attempted to access data beyond the available buffer"
  | rowOutOfRange table row rows =>
    some ("Row " ++ toString row.toNat ++ " is out of range for table " ++ table.name
      ++ " with " ++ toString rows.toNat ++ " rows")
  | violation cause => some cause.message
  | imageDropped => some "The metadata image backing this entity has been dropped"
  | recursionLimit limit =>
    some ("Reach the maximum recursion level allowed - " ++ toString limit)
  | sink fault => fault.message?

/-- The name of the kind of error. -/
def name : Error → String
  | malformed _ => "Malformed"
  | outOfBounds => "OutOfBounds"
  | rowOutOfRange .. => "RowOutOfRange"
  | violation _ => "InvariantViolation"
  | imageDropped => "ImageDropped"
  | recursionLimit _ => "RecursionLimit"
  | sink _ => "FileError"

/-- Who is at fault. -/
def category : Error → ErrorCategory
  | malformed _ | outOfBounds => .format
  | rowOutOfRange .. => .range
  | violation _ => .invariant
  | imageDropped | recursionLimit _ | sink _ => .other

end Error

/-- A computation that comes through has come through its first part. -/
theorem exists_of_bind_eq_ok {ε α β : Type} {x : Except ε α} {f : α → Except ε β} {b : β}
    (h : x >>= f = .ok b) : ∃ a, x = .ok a ∧ f a = .ok b := by
  cases x with
  | error e => exact absurd h (by simp [bind, Except.bind])
  | ok a => exact ⟨a, rfl, h⟩

/-- A computation that fails has failed in its first part or behind it. -/
theorem eq_error_or_of_bind_eq_error {ε α β : Type} {x : Except ε α} {f : α → Except ε β} {e : ε}
    (h : x >>= f = .error e) : x = .error e ∨ ∃ a, x = .ok a ∧ f a = .error e := by
  cases x with
  | error e' => exact Or.inl (congrArg Except.error (Except.error.inj h))
  | ok a => exact Or.inr ⟨a, rfl, h⟩

theorem exists_of_map_eq_ok {ε α β : Type} {f : α → β} {x : Except ε α} {b : β}
    (h : f <$> x = .ok b) : ∃ a, x = .ok a ∧ f a = b := by
  cases x with
  | error e => cases h
  | ok a => exact ⟨a, rfl, Except.ok.inj h⟩

/-- Whatever goes wrong is in one of the categories. -/
def FailsAs (categories : List ErrorCategory) {α : Type} (x : Except Error α) : Prop :=
  ∀ e, x = .error e → e.category ∈ categories

namespace FailsAs

variable {categories : List ErrorCategory} {α β : Type} {x : Except Error α}

theorem ok (a : α) : FailsAs categories (.ok a : Except Error α) := fun _ h => nomatch h

theorem error {e : Error} (h : e.category ∈ categories) :
    FailsAs categories (.error e : Except Error α) := by
  rintro _ ⟨⟩
  exact h

theorem bind {f : α → Except Error β} (hx : FailsAs categories x)
    (hf : ∀ a, FailsAs categories (f a)) : FailsAs categories (x >>= f) := by
  cases x with
  | error e => exact fun e' h => hx e' (congrArg Except.error (Except.error.inj h))
  | ok a => exact hf a

theorem map {f : α → β} (hx : FailsAs categories x) : FailsAs categories (f <$> x) := by
  cases x with
  | error e => exact fun e' h => hx e' (congrArg Except.error (Except.error.inj h))
  | ok a => exact ok (f a)

theorem mapM {f : α → Except Error β} (hf : ∀ a, FailsAs categories (f a)) (xs : List α) :
    FailsAs categories (xs.mapM f) := by
  induction xs with
  | nil => exact ok []
  | cons a xs ih =>
    rw [List.mapM_cons]
    exact (hf a).bind fun b => ih.bind fun bs => ok (b :: bs)

end FailsAs

end ManagedImage
