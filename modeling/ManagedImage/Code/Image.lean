import ManagedImage.Code.Assignment
import ManagedImage.Sink.Basic

/-!
# Code images

A code image collects segments and symbols, gets all addresses at once, and then
writes each segment once, with its operands filled in.

## Main definitions

* `CodeImage` — segments, symbols and addresses.
* `CodeImage.assign` — takes over an assignment of addresses.
* `CodeImage.stage` — the code of a segment with its operands filled in.
* `CodeImage.writeSegment` — writes a segment into a sink.
-/

namespace ManagedImage

/-- Native code in the making. -/
structure CodeImage where
  /-- The address at which the image will lie in memory. -/
  base : UInt64
  /-- The segments, by number. -/
  segments : Array Segment
  /-- The names of the symbols, by number. -/
  symbols : Array String
  /-- The addresses of the symbols, once they are assigned. -/
  addresses? : Option (Array (Option UInt32))
  deriving DecidableEq, Repr

namespace CodeImage

/-- An image without segments and symbols. -/
def empty (base : UInt64) : CodeImage := ⟨base, #[], #[], none⟩

/-- Adds a symbol and gives its number. -/
def defineSymbol (i : CodeImage) (name : String) : Nat × CodeImage :=
  (i.symbols.size, { i with symbols := i.symbols.push name })

/-- Adds a segment and gives its number. -/
def addSegment (i : CodeImage) (s : Segment) : Nat × CodeImage :=
  (i.segments.size, { i with segments := i.segments.push s })

/-- The addresses are assigned. -/
def isAssigned (i : CodeImage) : Bool := i.addresses?.isSome

/-- Records a fixup in a segment; nothing happens where there is no such segment. -/
def addFixup (i : CodeImage) (segment : Nat) (f : Fixup) : Option (Except Error CodeImage) :=
  i.segments[segment]?.map fun s =>
    (s.addFixup f).map fun s' => { i with segments := i.segments.setIfInBounds segment s' }

/-- The place of segment number `n`, if the assignment also has the addresses that its fixups
need. -/
def placementIn (a : Assignment) (n : Nat) (s : Segment) : Except Error Placement :=
  match a.segment? n with
  | none => .error (.violation (.unplacedSegment n))
  | some placement =>
    match s.fixups.find? fun f => (a.symbol? f.target).isNone with
    | some f => .error (.violation (.unaddressedTarget f.target n))
    | none => .ok placement

/-- The places of the given segments, which are numbered from `n` on. -/
def placementsIn (a : Assignment) : (n : Nat) → List Segment → Except Error (List Placement)
  | _, [] => .ok []
  | n, s :: segments => do
    let placement ← placementIn a n s
    return placement :: (← placementsIn a (n + 1) segments)

/-- Takes over the places of all segments and the addresses of all symbols, once.  Every segment
needs a place, and every symbol that a fixup refers to an address. -/
def assign (i : CodeImage) (a : Assignment) : Except Error CodeImage :=
  if i.isAssigned then .error (.violation .alreadyAssigned)
  else do
    let placements ← placementsIn a 0 i.segments.toList
    let segments := i.segments.toList.zipWith
      (fun s placement => { s with state := .positioned placement }) placements
    return { i with
      segments := segments.toArray
      addresses? := some ((Array.range i.symbols.size).map a.symbol?) }

/-- The address of a symbol, relative to the image base. -/
def symbolRva (i : CodeImage) (symbol : Nat) : Except Error UInt32 :=
  match i.addresses? with
  | none => .error (.violation (.addressReadEarly symbol))
  | some addresses =>
    match addresses[symbol]? with
    | some (some rva) => .ok rva
    | _ => .error (.violation (.unaddressedSymbol symbol))

/-- The number that goes over the operand of a fixup, for a symbol at `target` and a segment at
`placement`.  A negative distance is taken modulo 2³². -/
def operand (i : CodeImage) (placement : Placement) (f : Fixup) (target : UInt32) :
    Except Error Nat :=
  match f.kind with
  | .absolute =>
    let address := i.base.toNat + target.toNat
    if address < UInt32.size then .ok address
    else .error (.violation (.absoluteTooWide i.base target))
  | .relative =>
    let displacement : Int :=
      target.toNat - (placement.rva.toNat + f.offset.toNat + Segment.operandSize)
    if -0x80000000 ≤ displacement ∧ displacement < 0x80000000 then
      .ok (displacement % 0x100000000).toNat
    else .error (.violation (.displacementTooWide displacement))

/-- Fills in the operand of a fixup. -/
def applyFixup (i : CodeImage) (placement : Placement) (code : Bytes) (f : Fixup) :
    Except Error Bytes := do
  let target ← i.symbolRva f.target
  let value ← i.operand placement f target
  if f.offset.toNat + Segment.operandSize ≤ code.size then
    return code.overlay f.offset.toNat (LittleEndian.encode Segment.operandSize value)
  else throw .outOfBounds

/-- The code of a segment at `placement` with all operands filled in, one after the other. -/
def stage (i : CodeImage) (s : Segment) (placement : Placement) : Except Error Bytes :=
  s.fixups.foldlM (i.applyFixup placement) s.code

/-- Marks a segment as written. -/
def markWritten (i : CodeImage) (n : Nat) (placement : Placement) : CodeImage :=
  { i with segments := i.segments.modify n fun s => { s with state := .written placement } }

/-- The place of a segment that can be written now. -/
def writable (i : CodeImage) (n : Nat) : Except Error (Segment × Placement) :=
  match i.segments[n]? with
  | none => .error (.violation (.unknownSegment n))
  | some s =>
    match s.state with
    | .positioned placement => .ok (s, placement)
    | .unpositioned => .error (.violation (.writtenEarly n))
    | .written _ => .error (.violation (.writtenTwice n))

variable {S : Type} [Sink S]

/-- Writes staged code at its place and moves the sink behind it. -/
def emit (placement : Placement) (code : Bytes) (sink : S) : Except Error Unit × S :=
  match Sink.seek placement.offset sink with
  | (.error e, sink') => (.error e, sink')
  | (.ok (), sink') =>
    match Sink.writeAll code sink' with
    | (.error e, sink') => (.error e, sink')
    | (.ok (), sink') => Sink.seek (UInt64.ofNat (placement.offset.toNat + code.size)) sink'

/-- Writes segment number `n` into the sink.  The sink is not touched unless the whole segment can
be staged, and the segment counts as written only when the sink has taken it. -/
def writeSegment (i : CodeImage) (n : Nat) (sink : S) : Except Error Unit × CodeImage × S :=
  match i.writable n with
  | .error e => (.error e, i, sink)
  | .ok (s, placement) =>
    match i.stage s placement with
    | .error e => (.error e, i, sink)
    | .ok code =>
      match emit placement code sink with
      | (.ok (), sink') => (.ok (), i.markWritten n placement, sink')
      | (.error e, sink') => (.error e, i, sink')

/-- Writes the given segments one after the other, up to the first failure. -/
def writeSegments (i : CodeImage) : List Nat → S → Except Error Unit × CodeImage × S
  | [], sink => (.ok (), i, sink)
  | n :: ns, sink =>
    match i.writeSegment n sink with
    | (.ok (), i', sink') => writeSegments i' ns sink'
    | (.error e, i', sink') => (.error e, i', sink')

/-- Writes all segments in order. -/
def writeAll (i : CodeImage) (sink : S) : Except Error Unit × CodeImage × S :=
  i.writeSegments (List.range i.segments.size) sink

end CodeImage

end ManagedImage
