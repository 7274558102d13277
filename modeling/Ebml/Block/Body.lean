import Ebml.Block
import Ebml.Block.LaceHeader
import Ebml.Element

/-!
# Block bodies

The body of a block has the track number as a variable-length integer, the timecode in two octets,
a byte of flags, the lace header and the frames.  The flags that are not for lacing or visibility
belong to the kind of block.
-/

namespace Ebml.Block

/-- The flag of a block whose frames are not to be shown. -/
def invisibleFlag : UInt8 := 0x10

/-- The octets of a timecode. -/
def encodeTimecode (timecode : Int16) : List UInt8 :=
  BigEndian.encode 2 timecode.toUInt16.toNat

/-- The timecode of two octets. -/
def decodeTimecode (octets : List UInt8) : Int16 :=
  Int16.ofInt (BigEndian.decode octets)

/-- The size of the body. -/
def contentSize (b : Block) : Nat :=
  VarInt.octetLength b.track + 3 + b.lacing.headerSize b.frameSizes + b.frameSizes.sum

/-- The flags, with those of the kind of block. -/
def flags (b : Block) (kindFlags : UInt8) : UInt8 :=
  kindFlags ||| b.lacing.flags ||| (if b.invisible then invisibleFlag else 0)

/-- Writes the body with the flags of the kind of block.  Nothing of a block that cannot be
written is written. -/
def writeContent (b : Block) (kindFlags : UInt8) : Writer Nat := do
  b.validate
  let trackLength ← VarInt.write b.track
  Writer.emit (encodeTimecode b.timecode)
  Writer.emit [b.flags kindFlags]
  let headerSize ← b.lacing.writeHeader b.frameSizes
  let framesSize ← Writer.each Writer.emitCounted b.frames
  Writer.note (.wroteBlock b.track b.frames.length)
  return trackLength + 3 + headerSize + framesSize

/-- Reads frames of given sizes. -/
def readFrames : List Nat → Reader (List Frame)
  | [] => return []
  | size :: sizes => do
    let frame ← Reader.body size
    let frames ← readFrames sizes
    return frame :: frames

/-- Reads the track number and the timecode, and the octets of the track number. -/
def readPlace : Reader (Nat × Int16 × Nat) := do
  let (track, trackLength) ← VarInt.read
  let timecode ← Reader.take 2
  return (track, decodeTimecode timecode, trackLength)

/-- Reads the body of the element `id`, of `size` bytes, and returns the block and its flags. -/
def readContent (id : ElementId) (size : Nat) : Reader (Block × UInt8) := do
  let (track, timecode, trackLength) ← readPlace
  let flags ← Reader.next
  let consumed := trackLength + 3
  if size < consumed then throw (.badBodySize id.value size consumed)
  let lacing ← Reader.ofExcept (Lacing.ofFlags flags)
  let (sizes, _) ← lacing.readHeader (size - consumed) id size
  Reader.note (.readingFrames sizes.length track lacing)
  let frames ← readFrames sizes
  let block : Block :=
    { timecode, invisible := flags &&& invisibleFlag = invisibleFlag, lacing, frames }
  return (← Reader.ofExcept (block.setTrack track), flags)

instance : Element Block where
  id _ := .block
  offset b := b.offset
  setOffset b offset := { b with offset }
  bodySize b := b.contentSize
  writeBody b := b.writeContent 0
  readBody b size := do
    let (read, _) ← readContent .block size
    return { read with offset := b.offset }

end Ebml.Block
