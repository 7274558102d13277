import Ebml.Block.Lacing
import Ebml.ElementId
import Ebml.VarInt.Offset

/-!
# Lace headers

The lace header of a block says how its frames share the rest of the block.  Without lacing there
is none.  Otherwise it starts with the number of frames.  Frames of a fixed lace share the rest
evenly.  In EBML lacing the size of the first frame follows, then the difference of every next
frame from the one before, up to the last but one.  The last frame takes what is left.

The size of a header, its bytes, and the frame sizes read from it are three functions over the
same list of sizes.
-/

namespace Ebml.Lacing

/-- The differences between neighbours. -/
def differences : List Nat → List Int
  | size :: next :: sizes => ((next : Int) - size) :: differences (next :: sizes)
  | _ => []

/-- The number of octets of a difference.  One that is too large to be stored counts as if it had
the most octets. -/
def differenceLength (difference : Int) : Nat :=
  match VarInt.Offset.encode difference with
  | .ok (_, length) => length
  | .error _ => VarInt.maxLength

/-- The size of the lace header for frames of given sizes. -/
def headerSize (lacing : Lacing) (sizes : List Nat) : Nat :=
  match lacing, sizes with
  | none, _ => 0
  | fixed, _ => 1
  | ebml, first :: _ :: _ =>
    1 + VarInt.octetLength first + ((differences sizes.dropLast).map differenceLength).sum
  | ebml, _ => 1

/-- Writes a difference. -/
def writeDifference (difference : Int) : Writer Nat := do
  let (payload, length) ← Writer.ofExcept (VarInt.Offset.encode difference)
  VarInt.writeSized payload length

/-- Writes the lace header for frames of given sizes. -/
def writeHeader (lacing : Lacing) (sizes : List Nat) : Writer Nat := do
  if lacing = none then return 0
  Writer.emit [UInt8.ofNat sizes.length]
  match lacing, sizes with
  | ebml, first :: _ :: _ =>
    let firstLength ← VarInt.write first
    let rest ← Writer.each writeDifference (differences sizes.dropLast)
    return 1 + firstLength + rest
  | _, _ => return 1

/-- Reads the number of frames, which is not zero, from a block with `remaining` bytes left. -/
def readCount (remaining : Nat) : Reader Nat := do
  if remaining = 0 then throw .badLacedFrameSize
  let count ← Reader.next
  if count = 0 then throw .badLacedFrameSize
  return count.toNat

/-- Reads `count` sizes, each stored as the difference from the size before.  The result has the
sizes and the number of octets read. -/
def readDifferences (previous : Nat) : Nat → Reader (List Nat × Nat)
  | 0 => return ([], 0)
  | count + 1 => do
    let (payload, length) ← VarInt.read
    let size := (previous : Int) + VarInt.Offset.decode payload length
    if size < 0 then throw .badLacedFrameSize
    let (sizes, rest) ← readDifferences size.toNat count
    return (size.toNat :: sizes, length + rest)

/-- Reads the sizes of all frames but the last, if there are `count` frames.  The result has the
sizes and the number of octets read. -/
def readStoredSizes (count : Nat) : Reader (List Nat × Nat) := do
  if count ≤ 1 then return ([], 0)
  let (first, length) ← VarInt.read
  let (sizes, rest) ← readDifferences first (count - 2)
  return (first :: sizes, length + rest)

/-- The sum of sizes, or the largest number of 64 bits if that is less. -/
def cappedSum (sizes : List Nat) : Nat :=
  sizes.foldl (fun total size => min (total + size) (UInt64.size - 1)) 0

/-- Reads the lace header of a block with `remaining` bytes left, and returns the sizes of the
frames and of the header.  `id` and `declared` tell which element the block is, for errors. -/
def readHeader (lacing : Lacing) (remaining : Nat) (id : ElementId) (declared : Nat) :
    Reader (List Nat × Nat) :=
  match lacing with
  | none => do
    if remaining = 0 then throw (.badBodySize id.value declared declared)
    return ([remaining], 0)
  | fixed => do
    let count ← readCount remaining
    let available := remaining - 1
    if available % count ≠ 0 then
      Reader.note (.indivisibleLace count available)
      throw .badLacedFrameSize
    if available = 0 then throw .emptyFrame
    return (List.replicate count (available / count), 1)
  | ebml => do
    let count ← readCount remaining
    let (stored, length) ← readStoredSizes count
    let total := cappedSum stored
    if remaining < 1 + length + total then
      Reader.note (.oversizedLace total remaining)
      throw .badLacedFrameSize
    let sizes := stored ++ [remaining - (1 + length + total)]
    if sizes.contains 0 then throw .emptyFrame
    return (sizes, 1 + length)

end Ebml.Lacing
