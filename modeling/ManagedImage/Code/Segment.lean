import ManagedImage.Bytes.Buffer
import ManagedImage.Error

/-!
# Code segments

A segment is a piece of native code with fixups: operands of four bytes that get
the address of a symbol once the addresses are known.

## Main definitions

* `Fixup` — an operand that refers to a symbol.
* `Segment` — code with its fixups and its place.
* `Segment.addFixup` — records a fixup.
-/

namespace ManagedImage

/-- What is written over the operand of a fixup. -/
inductive FixupKind where
  /-- The address of the symbol. -/
  | absolute
  /-- The distance from the end of the operand to the symbol. -/
  | relative
  deriving DecidableEq, Repr

namespace FixupKind

/-- The kind with the given number. -/
def ofNumber (n : UInt8) : Except Error FixupKind :=
  if n = 0 then .ok absolute
  else if n = 1 then .ok relative
  else .error (.violation (.unknownFixupKind n))

/-- The name of the kind. -/
def name : FixupKind → String
  | absolute => "Absolute32"
  | relative => "Relative32"

/-- The number of the kind. -/
def number : FixupKind → UInt8
  | absolute => 0
  | relative => 1

end FixupKind

/-- An operand that refers to a symbol. -/
structure Fixup where
  /-- Where the operand starts in the code. -/
  offset : UInt32
  /-- What is written over the operand. -/
  kind : FixupKind
  /-- The number of the symbol. -/
  target : Nat
  deriving DecidableEq, Repr

/-- The place of a segment. -/
structure Placement where
  /-- Where the segment starts in the file. -/
  offset : UInt64
  /-- Where the segment starts in memory, relative to the image base. -/
  rva : UInt32
  deriving DecidableEq, Repr

/-- How far a segment has come. -/
inductive SegmentState where
  /-- The segment has no place yet. -/
  | unpositioned
  /-- The segment has a place and has not been written. -/
  | positioned (placement : Placement)
  /-- The segment has been written. -/
  | written (placement : Placement)
  deriving DecidableEq, Repr

/-- The name of the state. -/
def SegmentState.name : SegmentState → String
  | unpositioned => "Unpositioned"
  | positioned _ => "Positioned"
  | written _ => "Written"

/-- The place of the segment, once it has one. -/
def SegmentState.placement? : SegmentState → Option Placement
  | unpositioned => none
  | positioned placement | written placement => some placement

/-- A piece of code. -/
structure Segment where
  /-- The code, with the operands as they were given. -/
  code : Bytes
  /-- The fixups, in the order in which they are applied. -/
  fixups : List Fixup
  /-- How far the segment has come. -/
  state : SegmentState
  deriving DecidableEq, Repr

namespace Segment

/-- How many bytes the operand of a fixup takes. -/
def operandSize : Nat := 4

/-- A segment without fixups. -/
def ofCode (code : Bytes) : Segment := ⟨code, [], .unpositioned⟩

/-- Records a fixup, whose operand must lie within the code. -/
def addFixup (s : Segment) (f : Fixup) : Except Error Segment :=
  if s.state ≠ .unpositioned then .error (.violation (.fixupAfterAssignment f.offset))
  else if s.code.size < f.offset.toNat + operandSize then
    .error (.violation (.fixupPastEnd f.offset s.code.size))
  else .ok { s with fixups := s.fixups ++ [f] }

end Segment

end ManagedImage
