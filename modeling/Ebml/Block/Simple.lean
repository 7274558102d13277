import Ebml.Block.Body

/-!
# Simple blocks

A simple block stands in a cluster by itself.  It is a block with two more flags.
-/

namespace Ebml

/-- A block that stands in a cluster by itself. -/
structure SimpleBlock where
  /-- The frames. -/
  block : Block := {}
  /-- Whether the frames can be decoded without any other block. -/
  keyframe : Bool := false
  /-- Whether a player may pass over the frames. -/
  discardable : Bool := false

namespace SimpleBlock

/-- The flag of a keyframe. -/
def keyframeFlag : UInt8 := 0x01

/-- The flag of a block that may be passed over. -/
def discardableFlag : UInt8 := 0x80

/-- A simple block without frames. -/
def make (track : Nat) (timecode : Int16) (lacing : Lacing) : Except Error SimpleBlock := do
  return { block := ← Block.make track timecode lacing }

/-- Equality of what simple blocks hold, wherever they were read. -/
instance : BEq SimpleBlock where
  beq a b := a.block == b.block && a.keyframe == b.keyframe && a.discardable == b.discardable

/-- The flags that a simple block has beside those of every block. -/
def kindFlags (b : SimpleBlock) : UInt8 :=
  (if b.keyframe then keyframeFlag else 0) ||| (if b.discardable then discardableFlag else 0)

instance : Element SimpleBlock where
  id _ := .simpleBlock
  offset b := b.block.offset
  setOffset b offset := { b with block := { b.block with offset } }
  bodySize b := b.block.contentSize
  writeBody b := b.block.writeContent b.kindFlags
  readBody b size := do
    let (read, flags) ← Block.readContent .simpleBlock size
    return {
      block := { read with offset := b.block.offset }
      keyframe := flags &&& keyframeFlag = keyframeFlag
      discardable := flags &&& discardableFlag = discardableFlag }

end SimpleBlock

end Ebml
