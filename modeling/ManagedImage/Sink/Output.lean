import ManagedImage.Sink.Basic

/-!
# Output files

An output file has its final size from the start and is filled through a cursor
that may stand anywhere.  It is kept only if it is finalised.

## Main definitions

* `Output` — the contents and the cursor of an open file.
* `Output.write`, `Output.seek`, `Output.flush` — fill it, move the cursor, save it.
* `OutputFile` — a file that is open, kept or removed.
-/

namespace ManagedImage

/-- The contents and the cursor of an output file. -/
structure Output where
  /-- The contents, as long as the file. -/
  data : Bytes
  /-- Where the next bytes go. -/
  position : UInt64
  deriving DecidableEq, Repr

/-- Where a seek counts from, and how far it goes. -/
inductive SeekTarget where
  /-- From the start. -/
  | start (offset : UInt64)
  /-- From the end. -/
  | fromEnd (delta : Int)
  /-- From the cursor. -/
  | current (delta : Int)
  deriving DecidableEq, Repr

namespace Output

/-- A file of `size` zero bytes with the cursor at the start. -/
def create (size : Nat) : Output := ⟨.zeros size, 0⟩

/-- The size of the file. -/
def size (o : Output) : Nat := o.data.size

/-- Writes at the cursor and moves it behind the bytes.  A write that would pass the end of the file
changes nothing, and neither does an empty one behind the end. -/
def write (bytes : Bytes) (o : Output) : Except Error Nat × Output :=
  let start := o.position.toNat
  let stop := start + bytes.size
  if stop ≤ o.size then
    (.ok bytes.size, ⟨Bytes.overlay o.data start bytes.toList, UInt64.ofNat stop⟩)
  else (.error (.sink (.writePastEnd bytes.size start o.size)), o)

/-- Writes all bytes; to write none succeeds wherever the cursor is. -/
def writeAll (bytes : Bytes) (o : Output) : Except Error Unit × Output :=
  if bytes.isEmpty then (.ok (), o)
  else match o.write bytes with
    | (.ok _, o') => (.ok (), o')
    | (.error e, o') => (.error e, o')

/-- The position that a seek asks for. -/
def target (o : Output) : SeekTarget → Int
  | .start offset => Int.ofNat offset.toNat
  | .fromEnd delta => Int.ofNat o.size + delta
  | .current delta => Int.ofNat o.position.toNat + delta

/-- Moves the cursor, which may go behind the end but not before the start or past 64 bits. -/
def seek (goal : SeekTarget) (o : Output) : Except Error UInt64 × Output :=
  let t := o.target goal
  if 0 ≤ t ∧ t.toNat < UInt64.size then
    let position := UInt64.ofNat t.toNat
    (.ok position, { o with position })
  else (.error (.sink .seekOutOfRange), o)

/-- Hands the contents over to the system, which is taken to succeed. -/
def flush (o : Output) : Except Error Unit × Output := (.ok (), o)

instance : Sink Output where
  seek offset o :=
    match o.seek (.start offset) with
    | (reached, o') => (reached.map fun _ => (), o')
  writeAll := writeAll

end Output

/-- An output file over its life. -/
inductive OutputFile where
  /-- The file is being written. -/
  | opened (output : Output)
  /-- The file was finalised with these contents. -/
  | kept (data : Bytes)
  /-- The file was given up and removed. -/
  | removed

namespace OutputFile

/-- Creates a file in a directory; a file that was there is emptied. -/
def create (directoryExists : Bool) (size : Nat) : Except Error OutputFile :=
  if directoryExists then .ok (.opened (.create size)) else .error (.sink .notFound)

/-- The bytes on disk, if there is a file. -/
def contents? : OutputFile → Option Bytes
  | opened output => some output.data
  | kept data => some data
  | removed => none

/-- Closes the file for good. -/
def finalize : OutputFile → OutputFile
  | opened output => kept output.data
  | f => f

/-- Gives the file up; one that was finalised stays. -/
def drop : OutputFile → OutputFile
  | opened _ => removed
  | f => f

end OutputFile

end ManagedImage
