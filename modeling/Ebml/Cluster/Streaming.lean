import Ebml.Cluster

/-!
# Streaming clusters

A streaming cluster writes its metadata when it is prepared and every block as it is handed over.
Its size is not known before, so room is left for it, and it is filled in at the end.  The cluster
keeps an index of where its blocks are and not the blocks themselves.

While the cluster is open, its metadata can be edited but is already written.  Such edits are
discarded in the end.

A cluster that is read is indexed in the same way: of each block only the timecode is looked at.
-/

namespace Ebml

/-- Where a block of a cluster is. -/
structure IndexEntry where
  /-- The position of the first octet of its ID. -/
  offset : Nat
  /-- The ID, which tells the kind of block. -/
  id : ElementId
  /-- The timecode. -/
  timecode : Int16
deriving DecidableEq

/-- What an open cluster has written. -/
structure OpenState where
  /-- The position of the first octet of the ID of the cluster. -/
  start : Nat
  /-- The position after the room for the size. -/
  bodyStart : Nat
  /-- Where the output has to be for the next operation. -/
  expected : Nat
  /-- The metadata as it was written. -/
  metadata : ClusterMetadata
deriving DecidableEq

/-- A cluster whose blocks are in a stream. -/
structure StreamingCluster where
  /-- What is not a block. -/
  metadata : ClusterMetadata := {}
  /-- The octets to leave for the size when the cluster is prepared. -/
  placeholder : PlaceholderLength := default
  /-- The octets of the size. -/
  sizeLength : Nat := placeholder.octets
  /-- The size of the region of blocks. -/
  blocksSize : Nat := 0
  /-- The blocks. -/
  index : List IndexEntry := []
  /-- What was written, while the cluster is open. -/
  state? : Option OpenState := none

/-! ## Peeking at timecodes -/

namespace ClusterBlock

/-- Reads the timecode of a block group of `size` bytes, of which `consumed` are read.  Other
children may come before its block, and are passed over. -/
def peekGroupTimecode (size consumed : Nat) : Reader Int16 := do
  if consumed < size then
    let id ← ElementId.read
    let (childSize, sizeLength) ← VarInt.read
    if id = .block then
      let (_, timecode, _) ← Block.readPlace
      return timecode
    else
      Reader.skip childSize
      peekGroupTimecode size (consumed + id.size + sizeLength + childSize)
  else throw (.missingChild ElementId.blockGroup.value ElementId.block.value)
termination_by size - consumed
decreasing_by
  have := id.size_pos
  omega

/-- Reads the timecode of the kind of block that an ID stands for, from a body of `size` bytes. -/
def peekTimecode (id : ElementId) (size : Nat) : Reader Int16 := do
  if id = .simpleBlock then
    let (_, timecode, _) ← Block.readPlace
    return timecode
  else peekGroupTimecode size 0

end ClusterBlock

namespace StreamingCluster

/-- A cluster without blocks. -/
def make (timecode : UInt64) (placeholder : PlaceholderLength) : StreamingCluster :=
  { metadata := { timecode }, placeholder }

/-- The cluster with its index in the order of timecodes. -/
def sorted (c : StreamingCluster) : StreamingCluster :=
  { c with index := Timeline.sort IndexEntry.timecode c.index }

/-- The size of the body.  While the cluster is open, its metadata is what was written. -/
def bodySize (c : StreamingCluster) : Nat :=
  ((c.state?.map OpenState.metadata).getD c.metadata).size + c.blocksSize

/-- The size of the whole cluster.  Its size takes as many octets as were left or read. -/
def totalSize (c : StreamingCluster) : Nat :=
  ElementId.cluster.size + c.sizeLength + c.bodySize

/-! ## Writing -/

/-- Writes the ID, room for the size, and the metadata.  The result has the number of bytes before
the metadata, and of the metadata. -/
def writeHead (c : StreamingCluster) : Writer (Nat × Nat) := do
  let idLength ← ElementId.cluster.write
  let sizeLength ← VarInt.writeSized 0 c.placeholder.octets
  let metadata ← c.metadata.write
  return (idLength + sizeLength, metadata)

/-- Opens the cluster.  It is unchanged if its head cannot be written. -/
def prepare : Draining StreamingCluster Nat := do
  let c ← held
  if c.state?.isSome then throw .clusterAlreadyOpen
  let start ← beside Writer.position
  let (head, metadata) ← beside c.writeHead
  let written := head + metadata
  let state : OpenState :=
    { start, bodyStart := start + head, expected := start + written, metadata := c.metadata }
  change fun c =>
    { c with
      sizeLength := c.placeholder.octets, blocksSize := 0, index := [], state? := some state }
  beside (Writer.note (.preparedCluster start))
  return written

/-- Writes a block where the output is expected.  A block that cannot be written leaves the output
as it is. -/
def pushAt (expected : Nat) (block : ClusterBlock) : Writer Nat := do
  Cluster.checkPosition expected
  block.block.validate
  Element.write block

/-- Writes a block and adds it to the index. -/
def push (block : ClusterBlock) : Draining StreamingCluster Nat := do
  match (← held).state? with
  | none => throw .clusterNotOpen
  | some state =>
    let written ← beside (pushAt state.expected block)
    let entry : IndexEntry :=
      { offset := state.expected, id := Element.id block, timecode := block.timecode }
    change fun c =>
      { c with
        index := c.index ++ [entry]
        blocksSize := c.blocksSize + written
        state? := some { state with expected := state.expected + written } }
    beside (Writer.note (.streamedBlock block.block.track written))
    return written

/-- Fills in the size of the body, in as many octets as were left for it, and goes back to where
the output was. -/
def fillSize (state : OpenState) (sizeLength : Nat) : Writer Unit := do
  Cluster.checkPosition state.expected
  Writer.seek (state.start + ElementId.cluster.size)
  let _ ← VarInt.writeSized (state.expected - state.bodyStart) sizeLength
  Writer.seek state.expected

/-- Ends writing the cluster.  It is closed even if its size cannot be filled in. -/
def write : Draining StreamingCluster Nat := do
  match (← held).state? with
  | none => throw .clusterNotOpen
  | some state =>
    change fun c => { c with state? := none }
    beside (fillSize state (← held).sizeLength)
    if (← held).metadata ≠ state.metadata then
      beside (Writer.note (.discardedMetadata state.start))
      change fun c => { c with metadata := state.metadata }
    change sorted
    let blocks := (← held).index.length
    beside (Writer.note (.finishedCluster state.start blocks (state.expected - state.bodyStart)))
    return state.expected - state.start

/-! ## Reading -/

/-- Locates a block whose ID was read, and moves past it.  The result has its entry and the number
of bytes of its size and body. -/
def locate (id : ElementId) : Reader (IndexEntry × Nat) := do
  let bodyStart ← Reader.position
  let offset := bodyStart - id.size
  let (size, sizeLength) ← VarInt.read
  let streamLength ← Reader.streamLength
  if bodyStart + sizeLength + size > streamLength then
    Reader.note (.truncatedBlock offset streamLength)
    throw (.readError .ended)
  let timecode ← ClusterBlock.peekTimecode id size
  Reader.seek (bodyStart + sizeLength + size)
  return ({ offset, id, timecode }, sizeLength + size)

/-- Locates an element of the region of blocks. -/
def readChild (mode : ParsingMode) (index : List IndexEntry) (id : ElementId) :
    Reader (List IndexEntry × Nat) := do
  if (ClusterBlock.ofId? id).isSome then
    let (entry, count) ← locate id
    return (index ++ [entry], count)
  else return (index, ← Cluster.skipNonBlock mode id)

/-- The octets of the size of a cluster whose region of blocks has `size` bytes: those that were
read, or as few as possible if only the region is read. -/
def sizeLengthFor (c : StreamingCluster) (size : Nat) : Nat :=
  if c.metadata.sizeLength = 0 then VarInt.octetLength (c.metadata.size + size)
  else c.metadata.sizeLength

/-- Replaces the index by that of a region of `size` bytes.  The cluster is no longer open. -/
def readBlocks (mode : ParsingMode) (size : Nat) : Filling StreamingCluster Nat := do
  let index ← Filling.lift (Element.readChildren .cluster size [] (readChild mode))
  Filling.lift (Reader.note (.indexedBlocks index.length))
  Filling.change fun c =>
    sorted { c with
      index, sizeLength := c.sizeLengthFor size, blocksSize := size, state? := none }
  return size

instance : Cluster StreamingCluster where
  metadata c := c.metadata
  setMetadata c metadata := { c with metadata }
  blocksSize c := c.blocksSize
  isOpen c := c.state?.isSome
  bodySize c := c.bodySize
  totalSize c := c.totalSize
  prepare := prepare
  write := write
  readBlocks := readBlocks

end StreamingCluster

end Ebml
