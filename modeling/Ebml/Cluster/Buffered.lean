import Ebml.Cluster

/-!
# Buffered clusters

A buffered cluster holds its blocks in memory, in the order of their timecodes, and writes
everything at once.  Blocks may be edited in place, so they are put in order again when they are
written.
-/

namespace Ebml

/-- A cluster that holds its blocks in memory. -/
structure BufferedCluster where
  /-- What is not a block. -/
  metadata : ClusterMetadata := {}
  /-- The blocks. -/
  blocks : List ClusterBlock := []
  /-- Where the output was when the cluster was prepared, while it is open. -/
  start? : Option Nat := none

namespace BufferedCluster

/-- A cluster without blocks. -/
def make (timecode : UInt64) : BufferedCluster := { metadata := { timecode } }

/-- The cluster with one more block, after those with the same timecode. -/
def push (c : BufferedCluster) (block : ClusterBlock) : BufferedCluster :=
  { c with blocks := Timeline.insert ClusterBlock.timecode block c.blocks }

/-- The cluster without the block at an index. -/
def eraseBlock (c : BufferedCluster) (index : Nat) : BufferedCluster :=
  { c with blocks := c.blocks.eraseIdx index }

/-- The cluster with the block at an index changed, if there is one.  It keeps its place, whatever
its timecode is now. -/
def modifyBlock (c : BufferedCluster) (index : Nat) (f : ClusterBlock → ClusterBlock) :
    BufferedCluster :=
  { c with blocks := c.blocks.modify index f }

/-- The cluster without blocks. -/
def clear (c : BufferedCluster) : BufferedCluster := { c with blocks := [] }

/-- The cluster with its blocks in order. -/
def sorted (c : BufferedCluster) : BufferedCluster :=
  { c with blocks := Timeline.sort ClusterBlock.timecode c.blocks }

/-- The size of the region of blocks. -/
def blocksSize (c : BufferedCluster) : Nat := Element.childrenSize c.blocks

/-- The size of the body. -/
def bodySize (c : BufferedCluster) : Nat := c.metadata.size + c.blocksSize

/-- Writes the whole cluster at `start`, where the output stands. -/
def writeAt (c : BufferedCluster) (start : Nat) : Writer Nat := do
  let idLength ← ElementId.cluster.write
  let sizeLength ← VarInt.write c.bodySize
  let metadata ← c.metadata.write
  let blocks ← Writer.each Element.write c.blocks
  let written := idLength + sizeLength + metadata + blocks
  Writer.note (.wroteCluster c.blocks.length start written)
  return written

/-- Remembers where the output is. -/
def prepare : Draining BufferedCluster Nat := do
  if (← held).start?.isSome then throw .clusterAlreadyOpen
  let start ← beside Writer.position
  change fun c => { c with start? := some start }
  return 0

/-- Writes the cluster, if the output has not moved since it was prepared. -/
def write : Draining BufferedCluster Nat := do
  match (← held).start? with
  | none => throw .clusterNotOpen
  | some start =>
    change fun c => { c with start? := none }
    beside (Cluster.checkPosition start)
    change sorted
    beside ((← held).writeAt start)

/-- Reads an element of the region of blocks. -/
def readChild (mode : ParsingMode) (blocks : List ClusterBlock) (id : ElementId) :
    Reader (List ClusterBlock × Nat) := do
  match ClusterBlock.ofId? id with
  | some block =>
    let (block, count) ← Element.read block
    return (blocks ++ [block], count)
  | none => return (blocks, ← Cluster.skipNonBlock mode id)

/-- Replaces the blocks by those of a region of `size` bytes. -/
def readBlocks (mode : ParsingMode) (size : Nat) : Filling BufferedCluster Nat := do
  let blocks ← Filling.lift (Element.readChildren .cluster size [] (readChild mode))
  Filling.lift (Reader.note (.readBlocks blocks.length))
  Filling.change fun c => sorted { c with blocks }
  return size

instance : Cluster BufferedCluster where
  metadata c := c.metadata
  setMetadata c metadata := { c with metadata }
  blocksSize c := c.blocksSize
  isOpen c := c.start?.isSome
  bodySize c := c.bodySize
  prepare := prepare
  write := write
  readBlocks := readBlocks

end BufferedCluster

end Ebml
