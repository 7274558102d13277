import Ebml.Block.Lacing
import Ebml.VarInt

/-!
# Blocks

A block holds frames of one track at a timecode relative to its cluster.  Frames are opaque bytes.
An empty frame is only a place to be filled: a block that has one cannot be written, and none is
ever read.

The operations here edit a block in memory.  They keep the number of frames within what the lacing
allows, and the track number within what can be stored, but frames can be replaced freely, so a
block may be unfit to be written.  `Block.fault?` tells why.
-/

namespace Ebml

/-- The data of one frame. -/
abbrev Frame := List UInt8

/-- Frames of one track. -/
structure Block where
  /-- The track that the frames belong to.  Tracks are numbered from 1. -/
  track : Nat := 1
  /-- The timecode, relative to the cluster. -/
  timecode : Int16 := 0
  /-- Whether the frames are to be decoded but not shown. -/
  invisible : Bool := false
  /-- How the frames are packed. -/
  lacing : Lacing := .none
  /-- The frames, in order. -/
  frames : List Frame := []
  /-- Where the block was last read. -/
  offset : Nat := 0

namespace Block

/-- Equality of what blocks hold, wherever they were read. -/
instance : BEq Block where
  beq a b := a.track == b.track && a.timecode == b.timecode && a.invisible == b.invisible &&
    a.lacing == b.lacing && a.frames == b.frames

/-- The block with another track number, from 1 to the largest that can be stored. -/
def setTrack (b : Block) (track : Nat) : Except Error Block :=
  if track = 0 then .error (.valueOutOfRange "track numbers start at 1")
  else if track > VarInt.max then .error (.valueOutOfRange "track number is too large")
  else .ok { b with track }

/-- A block without frames. -/
def make (track : Nat) (timecode : Int16) (lacing : Lacing) : Except Error Block :=
  ({ timecode, lacing } : Block).setTrack track

/-- The block with another lacing, if that allows as many frames. -/
def setLacing (b : Block) (lacing : Lacing) : Except Error Block :=
  if b.frames.length > lacing.maxCount then .error .maxLaceSizeExceeded
  else .ok { b with lacing }

/-- The number of frames that the block can hold. -/
def maxCount (b : Block) : Nat := b.lacing.maxCount

/-- The block with a frame added at the end. -/
def push (b : Block) (frame : Frame) : Except Error Block :=
  if frame.isEmpty then .error .emptyFrame
  else if b.frames.length ≥ b.maxCount then .error .maxLaceSizeExceeded
  else .ok { b with frames := b.frames ++ [frame] }

/-- The block with `count` frames: the last ones are dropped, or empty ones are added. -/
def resize (b : Block) (count : Nat) : Except Error Block :=
  if count > b.maxCount then .error .maxLaceSizeExceeded
  else
    .ok { b with
      frames := b.frames.take count ++ List.replicate (count - b.frames.length) [] }

/-- The block with the frame at an index replaced, if there is one. -/
def setFrame (b : Block) (index : Nat) (frame : Frame) : Block :=
  { b with frames := b.frames.set index frame }

/-- The block with every frame changed. -/
def mapFrames (b : Block) (f : Frame → Frame) : Block := { b with frames := b.frames.map f }

/-- The block without the frame at an index. -/
def eraseFrame (b : Block) (index : Nat) : Block := { b with frames := b.frames.eraseIdx index }

/-- The block without frames. -/
def clear (b : Block) : Block := { b with frames := [] }

/-- The sizes of the frames. -/
def frameSizes (b : Block) : List Nat := b.frames.map List.length

/-- The size of the first frame. -/
def firstSize (b : Block) : Nat := b.frameSizes.headD 0

/-- The first reason why the block cannot be written. -/
def fault? (b : Block) : Option Error :=
  if b.frames.isEmpty then some .emptyBlock
  else if b.frames.any List.isEmpty then some .emptyFrame
  else if b.frames.length > b.maxCount then some .maxLaceSizeExceeded
  else if b.lacing = .fixed ∧ b.frameSizes.any (· ≠ b.firstSize) then some .badLacedFrameSize
  else none

/-- Fails if the block cannot be written. -/
def validate (b : Block) : Writer Unit :=
  match b.fault? with
  | none => return
  | some .badLacedFrameSize => do
    Writer.note (.unevenLace b.firstSize)
    throw .badLacedFrameSize
  | some fault => throw fault

end Block

end Ebml
