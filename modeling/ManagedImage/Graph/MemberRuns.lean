import ManagedImage.Graph.Ref
import ManagedImage.Stream.Tables

/-!
# Runs of members

The fields and methods of a type are not listed.  The row of the type says
where its run of members starts, and the run ends where that of the next type
starts.  A run is one of positions in the member table, unless there is a
pointer table: then it is one of positions in the pointer table, whose rows
name the members.

## Main definitions

* `MemberList` — fields or methods.
* `TablesStream.memberRids` — the rows of the members of a type.
-/

namespace ManagedImage

/-- A list of members of a type. -/
inductive MemberList where
  /-- The fields. -/
  | fields
  /-- The methods. -/
  | methods
  deriving DecidableEq, Repr

namespace MemberList

/-- The kind of the members. -/
def kind : MemberList → EntityKind
  | fields => .field
  | methods => .methodDef

/-- The table of the members. -/
def target (l : MemberList) : TableId := l.kind.table

/-- The table that may stand between the runs and the members. -/
def pointer : MemberList → TableId
  | fields => .fieldPtr
  | methods => .methodPtr

/-- Where the run of a type starts, as its row says. -/
def start (l : MemberList) (type : Row) : UInt32 :=
  match l with
  | fields => type.column 4
  | methods => type.column 5

end MemberList

namespace TablesStream

/-- A row of a table, if there is one. -/
def row? (s : TablesStream) (t : TableId) (rid : UInt32) : Option Row := (s.row t rid).toOption

/-- How many positions the runs are taken from. -/
def positionCount (s : TablesStream) (l : MemberList) : UInt32 :=
  if s.rowCount l.pointer = 0 then s.rowCount l.target else s.rowCount l.pointer

/-- The first number behind the positions.  Of `2 ^ 32 - 1` positions it is 0, and all runs end
there. -/
def positionEnd (s : TablesStream) (l : MemberList) : Nat := (s.positionCount l + 1).toNat

/-- The positions in the run of a type. -/
def memberPositions (s : TablesStream) (l : MemberList) (type : UInt32) : List Nat :=
  match s.row? .typeDef type with
  | none => []
  | some row =>
    let start := max (l.start row).toNat 1
    let stop := match s.row? .typeDef (type + 1) with
      | some next => min (l.start next).toNat (s.positionEnd l)
      | none => s.positionEnd l
    List.range' start (stop - start)

/-- The member row that a position stands for.  It stands for none if there is no table of pointers,
although some are counted. -/
def memberAt (s : TablesStream) (l : MemberList) (position : Nat) :
    Except Error (Option UInt32) :=
  if s.rowCount l.pointer = 0 then .ok (some (UInt32.ofNat position))
  else match s.rows? l.pointer with
    | none => .ok none
    | some pointers => (fun pointer => some (pointer.column 0)) <$> pointers.row (.ofNat position)

/-- The rows of the members of a type, unless a pointer cannot be read. -/
def memberRids (s : TablesStream) (l : MemberList) (type : UInt32) :
    Except Error (List UInt32) := do
  let found ← (s.memberPositions l type).mapM (s.memberAt l)
  return found.filterMap id

end TablesStream

end ManagedImage
