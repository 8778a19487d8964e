import ManagedImage.Heap.Blobs
import ManagedImage.Heap.Guids
import ManagedImage.Heap.Strings
import ManagedImage.Stream.Tables

/-!
# Views of metadata

The metadata of an image comes as a tables stream and up to three heaps.  A
view holds them decoded.

## Main definitions

* `MetadataStreams` — the bytes of the streams.
* `MetadataView` — the decoded streams.
* `MetadataView.stringAt`, `guidAt`, `blobAt` — what a heap index in a row stands for.
-/

namespace ManagedImage

/-- The bytes of the metadata of an image. -/
structure MetadataStreams where
  /-- The tables stream. -/
  tables : Bytes
  /-- The heap of texts, if there is one. -/
  strings? : Option Bytes
  /-- The heap of identifiers, if there is one. -/
  guids? : Option Bytes
  /-- The heap of byte strings, if there is one. -/
  blobs? : Option Bytes

/-- Decoded metadata. -/
structure MetadataView where
  /-- How the streams were decoded. -/
  config : Config
  /-- The bytes that were decoded. -/
  source : MetadataStreams
  /-- The tables. -/
  tables : TablesStream
  /-- The heap of texts. -/
  strings? : Option StringHeap
  /-- The heap of identifiers. -/
  guids? : Option GuidHeap
  /-- The heap of byte strings. -/
  blobs? : Option BlobHeap

namespace MetadataView

/-- Decodes a heap that may be missing. -/
def heap? {α : Type} (ofBytes : Bytes → Except Error α) :
    Option Bytes → Except Error (Option α)
  | none => .ok none
  | some data => some <$> ofBytes data

/-- Decodes the streams: the tables first, then the heaps of texts, identifiers and blobs. -/
def decode (config : Config) (source : MetadataStreams) : Except Error MetadataView := do
  let tables ← TablesStream.decode config source.tables
  let strings? ← heap? StringHeap.ofBytes source.strings?
  let guids? ← heap? GuidHeap.ofBytes source.guids?
  let blobs? ← heap? BlobHeap.ofBytes source.blobs?
  return { config, source, tables, strings?, guids?, blobs? }

/-- The text at an index; index 0 is the empty text, with or without a heap. -/
def stringAt (v : MetadataView) (index : UInt32) : Except Error String :=
  if index = 0 then .ok ""
  else match v.strings? with
    | some heap => heap.get index.toNat
    | none => .error (.malformed (.missingStrings index))

/-- The identifier at an index; index 0 is no identifier. -/
def guidAt (v : MetadataView) (index : UInt32) : Except Error (Option Guid) :=
  if index = 0 then .ok none
  else match v.guids? with
    | some heap => some <$> heap.get index.toNat
    | none => .error (.malformed (.missingGuids index))

/-- The byte string at an index; index 0 is the empty one. -/
def blobAt (v : MetadataView) (index : UInt32) : Except Error Bytes :=
  if index = 0 then .ok #[]
  else match v.blobs? with
    | some heap => heap.get index.toNat
    | none => .error (.malformed (.missingBlobs index))

end MetadataView

end ManagedImage
