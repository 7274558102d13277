import Ebml.Cluster.Streaming

/-!
# Going through the blocks of a streaming cluster

The blocks of a streaming cluster are read one at a time from the stream that the cluster was read
from or written to, in the order of its index, from either end.  Each is read afresh from where its
entry says it is, so a block that cannot be read does not keep the others from being read.
-/

namespace Ebml

/-- Reads the block that an entry stands for. -/
def IndexEntry.load (entry : IndexEntry) : Reader ClusterBlock := do
  match ClusterBlock.ofId? entry.id with
  | none => throw (Cluster.unexpected entry.id)
  | some block =>
    Reader.seek (entry.offset + entry.id.size)
    let (block, _) ← Element.read block
    return block

/-- The blocks of a cluster that have not been come to. -/
structure BlockIterator where
  /-- Their entries, in order. -/
  entries : List IndexEntry

namespace BlockIterator

/-- The ends that an iteration can proceed from. -/
inductive Side where
  | front
  | back
deriving DecidableEq

/-- The number of blocks left. -/
def remaining (it : BlockIterator) : Nat := it.entries.length

/-- The entry at an end. -/
def peek? (it : BlockIterator) : Side → Option IndexEntry
  | .front => it.entries.head?
  | .back => it.entries.getLast?

/-- The iteration past the block at an end. -/
def advance (it : BlockIterator) : Side → BlockIterator
  | .front => ⟨it.entries.tail⟩
  | .back => ⟨it.entries.dropLast⟩

/-- Reads the block at an end, if one is left.  It counts as come to even if it cannot be read. -/
def next (side : Side) : Filling BlockIterator (Option ClusterBlock) := do
  match (← Filling.object).peek? side with
  | none => return none
  | some entry =>
    Filling.change (advance · side)
    return some (← Filling.lift entry.load)

end BlockIterator

/-- The blocks of a cluster, none of which has been come to. -/
def StreamingCluster.blocks (c : StreamingCluster) : BlockIterator := ⟨c.index⟩

end Ebml
