import Ebml.Cluster.Block
import Ebml.Cluster.Metadata
import Ebml.Options
import Ebml.Stream.Held

/-!
# Clusters

A cluster is a master element with metadata and, after it, a region of blocks.  It is written in
two steps: it is prepared, and when its blocks have been handed over it is written.  Between the
two nothing else may write to the output, and a cluster checks that the output has not moved.

Reading goes through the metadata up to the first block and leaves the rest of the body to the kind
of cluster.  The metadata is replaced as it is read, so it may be incomplete after a failure.
-/

namespace Ebml

/-- A kind of cluster. -/
class Cluster (κ : Type) where
  /-- The metadata. -/
  metadata : κ → ClusterMetadata
  /-- The cluster with other metadata. -/
  setMetadata : κ → ClusterMetadata → κ
  /-- The size of the region of blocks. -/
  blocksSize : κ → Nat
  /-- Whether the cluster was prepared and not yet written. -/
  isOpen : κ → Bool
  /-- The size of the body. -/
  bodySize : κ → Nat := fun c => (metadata c).size + blocksSize c
  /-- The size of the whole cluster. -/
  totalSize : κ → Nat := fun c =>
    ElementId.cluster.size + VarInt.octetLength (bodySize c) + bodySize c
  /-- Begins to write the cluster, and returns the number of bytes written. -/
  prepare : Draining κ Nat
  /-- Ends writing the cluster, and returns its total size.  The cluster is no longer open, even
  if that fails. -/
  write : Draining κ Nat
  /-- Reads a region of blocks of a given size, and returns that size. -/
  readBlocks : ParsingMode → Nat → Filling κ Nat

namespace Cluster

/-- Fails if the output is not where it is expected. -/
def checkPosition (expected : Nat) : Writer Unit := do
  let found ← Writer.position
  if found ≠ expected then throw (.interleavedWrite expected found)

/-- The failure of a cluster with a child that it may not have. -/
def unexpected (id : ElementId) : Error :=
  .invalidChildId ElementId.cluster.value id.value

/-- Whether an element is padding or a checksum. -/
def isPadding (id : ElementId) : Bool := id = .void || id = .crc32

/-- Reads an element before the blocks that is neither metadata nor a block. -/
def skipChild (mode : ParsingMode) (id : ElementId) : Reader Nat := do
  if isPadding id then
    if mode = .strict then throw (unexpected id)
    Element.skipRest
  else
    if mode ≠ .relaxed then throw (unexpected id)
    Reader.note (.skippingChild id)
    Element.skipRest

/-- Reads an element among the blocks that is not a block.  Padding may lie there in any mode. -/
def skipNonBlock (mode : ParsingMode) (id : ElementId) : Reader Nat := do
  if isPadding id then
    Reader.note (.skippingPadding id)
    Element.skipRest
  else
    if mode ≠ .relaxed then throw (unexpected id)
    Reader.note (.skippingElement id)
    Element.skipRest

variable {κ : Type} [Cluster κ]

/-- What the body of a cluster was found to hold. -/
structure Contents where
  /-- The bytes of the body that were read. -/
  consumed : Nat
  /-- Whether there was a timecode. -/
  hasTimecode : Bool
  /-- Whether there were blocks. -/
  hasBlocks : Bool

/-- Reads the rest of a body of `size` bytes, of which `consumed` are read, through the metadata
and the blocks.  `hasTimecode` tells whether a timecode was met before. -/
def readContents (mode : ParsingMode) (size consumed : Nat) (hasTimecode : Bool) :
    Filling κ Contents := do
  if consumed < size then
    let id ← Filling.lift ElementId.read
    if (ClusterBlock.ofId? id).isSome then
      Filling.lift do Reader.seek ((← Reader.position) - id.size)
      let count ← readBlocks mode (size - consumed)
      return { consumed := consumed + count, hasTimecode, hasBlocks := true }
    else
      let before := metadata (← Filling.object)
      match ← Filling.lift (before.readChild? id) with
      | some (after, count) =>
        Filling.change (setMetadata · after)
        readContents mode size (consumed + id.size + count) (hasTimecode || id = .timecode)
      | none =>
        let count ← Filling.lift (skipChild mode id)
        readContents mode size (consumed + id.size + count) hasTimecode
  else return { consumed, hasTimecode, hasBlocks := false }
termination_by size - consumed
decreasing_by
  all_goals
    have := id.size_pos
    omega

/-- Reads the size and body of a cluster, whose ID was read.  The result counts the bytes after the
ID.  What the cluster held before is replaced. -/
def read (mode : ParsingMode) : Filling κ Nat := do
  let offset := (← Filling.lift Reader.position) - ElementId.cluster.size
  let (size, sizeLength) ← Filling.lift VarInt.read
  Filling.lift (Reader.note (.readingCluster offset size))
  Filling.change (setMetadata · { offset, sizeLength })
  let contents ← readContents mode size 0 false
  if contents.consumed ≠ size then
    throw (.badBodySize ElementId.cluster.value size contents.consumed)
  if !contents.hasTimecode then
    throw (.missingChild ElementId.cluster.value ElementId.timecode.value)
  if !contents.hasBlocks then
    let _ : Nat ← (readBlocks mode 0 : Filling κ Nat)
  return sizeLength + size

end Cluster

end Ebml
