import Ebml.Element.Children
import Ebml.Element.Primitive

/-!
# Metadata of a cluster

What a cluster holds beside its blocks: its timecode, the tracks that are silent in it, its position
in the segment and the size of the cluster before.  The timecode is always written, and first.  What
is empty or zero is left out.
-/

namespace Ebml

/-- Everything in a cluster that is not a block. -/
structure ClusterMetadata where
  /-- The timecode that those of the blocks are relative to. -/
  timecode : UInt64 := 0
  /-- The tracks without blocks in the cluster. -/
  silentTracks : List UInt64 := []
  /-- The position of the cluster in its segment, or zero. -/
  position : UInt64 := 0
  /-- The size of the cluster before, or zero. -/
  prevSize : UInt64 := 0
  /-- Where the cluster was last read. -/
  offset : Nat := 0
  /-- The octets of the size of the cluster when it was last read, and zero before. -/
  sizeLength : Nat := 0
deriving DecidableEq

namespace ClusterMetadata

/-- An element with an unsigned number. -/
def unsignedElement (id : ElementId) (value : UInt64) : PrimitiveElement :=
  { id, value := .uint value }

/-- The element of the timecode. -/
def timecodeElement (m : ClusterMetadata) : PrimitiveElement :=
  unsignedElement .timecode m.timecode

/-- The elements of the silent tracks. -/
def silentTrackElements (m : ClusterMetadata) : List PrimitiveElement :=
  m.silentTracks.map (unsignedElement .silentTrackNumber)

/-- The elements after the silent tracks. -/
def trailingElements (m : ClusterMetadata) : List PrimitiveElement :=
  (if m.position = 0 then [] else [unsignedElement .position m.position]) ++
    (if m.prevSize = 0 then [] else [unsignedElement .prevSize m.prevSize])

/-- The size of the element that holds the silent tracks, which is left out if there are none. -/
def silentTracksSize (m : ClusterMetadata) : Nat :=
  if m.silentTracks.isEmpty then 0
  else
    let size := Element.childrenSize m.silentTrackElements
    ElementId.silentTracks.size + VarInt.octetLength size + size

/-- The number of bytes of the metadata in the body of the cluster. -/
def size (m : ClusterMetadata) : Nat :=
  Element.totalSize m.timecodeElement + m.silentTracksSize +
    Element.childrenSize m.trailingElements

/-- Writes the element that holds the silent tracks. -/
def writeSilentTracks (m : ClusterMetadata) : Writer Nat := do
  if m.silentTracks.isEmpty then return 0
  let idLength ← ElementId.silentTracks.write
  let sizeLength ← VarInt.write (Element.childrenSize m.silentTrackElements)
  let body ← Writer.each Element.write m.silentTrackElements
  return idLength + sizeLength + body

/-- Writes the metadata. -/
def write (m : ClusterMetadata) : Writer Nat := do
  let timecode ← Element.write m.timecodeElement
  let silentTracks ← m.writeSilentTracks
  let trailing ← Writer.each Element.write m.trailingElements
  return timecode + silentTracks + trailing

/-- Reads a child of the silent tracks. -/
def readSilentTrack (tracks : List UInt64) (id : ElementId) : Reader (List UInt64 × Nat) := do
  if id ≠ .silentTrackNumber then
    throw (.invalidChildId ElementId.silentTracks.value id.value)
  let (track, count) ← PrimitiveElement.readUnsignedChild id
  return (tracks ++ [track], count)

/-- Reads a child of a cluster if it is metadata, and counts the bytes read. -/
def readChild? (m : ClusterMetadata) (id : ElementId) :
    Reader (Option (ClusterMetadata × Nat)) := do
  if id = .timecode then
    let (timecode, count) ← PrimitiveElement.readUnsignedChild id
    return some ({ m with timecode }, count)
  else if id = .position then
    let (position, count) ← PrimitiveElement.readUnsignedChild id
    return some ({ m with position }, count)
  else if id = .prevSize then
    let (prevSize, count) ← PrimitiveElement.readUnsignedChild id
    return some ({ m with prevSize }, count)
  else if id = .silentTracks then
    let (size, sizeLength) ← VarInt.read
    let silentTracks ← Element.readChildren .silentTracks size [] readSilentTrack
    return some ({ m with silentTracks }, sizeLength + size)
  else return none

end ClusterMetadata

end Ebml
