import Ebml.Block.Additions
import Ebml.Block.Body

/-!
# Block groups

A block group is a block with what a simple block has no room for.  Its first child is the block.
Then come the additions, the duration, the reference priority, one child for each block referred to
and the codec state.  A child that would hold nothing, or its default, is left out.

Children may be read in any order.  Of a repeated child the last one counts, except that references
add up.
-/

namespace Ebml

/-- A block with its extra information. -/
structure BlockGroup where
  /-- The frames. -/
  block : Block := {}
  /-- The duration in ticks of the track, or zero if the next block ends it. -/
  duration : UInt64 := 0
  /-- How much the block is worth keeping for others that refer to it. -/
  refPriority : UInt64 := 0
  /-- The timecodes of the blocks referred to, relative to this one. -/
  refBlocks : List Int64 := []
  /-- The codec state from this block on, or nothing. -/
  codecState : List UInt8 := []
  /-- Additional data. -/
  additions : BlockAdditions := {}
  /-- Where the group was last read. -/
  offset : Nat := 0

namespace BlockGroup

/-- A block group without frames. -/
def make (track : Nat) (timecode : Int16) (lacing : Lacing) : Except Error BlockGroup := do
  return { block := ← Block.make track timecode lacing }

/-- Equality of what groups hold, wherever they were read. -/
instance : BEq BlockGroup where
  beq a b := a.block == b.block && a.duration == b.duration && a.refPriority == b.refPriority &&
    a.refBlocks == b.refBlocks && a.codecState == b.codecState && a.additions == b.additions

/-- The children after the block and the additions. -/
def trailingChildren (g : BlockGroup) : List PrimitiveElement :=
  let refPriority : PrimitiveElement :=
    { id := .referencePriority, value := .uint g.refPriority, default? := some (.uint 0) }
  (if g.duration = 0 then [] else [{ id := .blockDuration, value := .uint g.duration }]) ++
    (if refPriority.isDefault then [] else [refPriority]) ++
    g.refBlocks.map (fun reference => { id := .referenceBlock, value := .int reference }) ++
    (if g.codecState.isEmpty then [] else [{ id := .codecState, value := .binary g.codecState }])

/-- What has been read of a group: everything but the block has a value before it is met. -/
structure Draft where
  /-- The block met last. -/
  block? : Option Block := none
  /-- The other children. -/
  rest : BlockGroup := {}

/-- Reads a child of a block group. -/
def readChild (draft : Draft) (id : ElementId) : Reader (Draft × Nat) := do
  let rest := draft.rest
  if id = .block then
    let (block, count) ← Element.read ({} : Block)
    return ({ draft with block? := some block }, count)
  else if id = .blockAdditions then
    let (additions, count) ← Element.read rest.additions
    return ({ draft with rest := { rest with additions } }, count)
  else if id = .blockDuration then
    let (duration, count) ← PrimitiveElement.readUnsignedChild id
    return ({ draft with rest := { rest with duration } }, count)
  else if id = .referencePriority then
    let (refPriority, count) ← PrimitiveElement.readUnsignedChild id
    return ({ draft with rest := { rest with refPriority } }, count)
  else if id = .referenceBlock then
    let (reference, count) ← PrimitiveElement.readSignedChild id
    return ({ draft with rest := { rest with refBlocks := rest.refBlocks ++ [reference] } }, count)
  else if id = .codecState then
    let (codecState, count) ← PrimitiveElement.readBinaryChild id
    return ({ draft with rest := { rest with codecState } }, count)
  else if id = .void then
    return (draft, ← Element.skipRest)
  else throw (.invalidChildId ElementId.blockGroup.value id.value)

/-- Reads a group from a body of `size` bytes.  It has to have a block. -/
def readContent (size : Nat) : Reader BlockGroup := do
  let draft ← Element.readChildren .blockGroup size {} readChild
  match draft.block? with
  | none => throw (.missingChild ElementId.blockGroup.value ElementId.block.value)
  | some block =>
    Reader.note (.readBlockGroup block.track draft.rest.refBlocks.length)
    return { draft.rest with block }

instance : Element BlockGroup where
  id _ := .blockGroup
  offset g := g.offset
  setOffset g offset := { g with offset }
  bodySize g :=
    Element.totalSize g.block +
      (if g.additions.entries.isEmpty then 0 else Element.totalSize g.additions) +
      Element.childrenSize g.trailingChildren
  writeBody g := do
    let block ← Element.write g.block
    let additions ← if g.additions.entries.isEmpty then pure 0 else Element.write g.additions
    let trailing ← Writer.each Element.write g.trailingChildren
    return block + additions + trailing
  readBody g size := do
    return { ← readContent size with offset := g.offset }

end BlockGroup

end Ebml
