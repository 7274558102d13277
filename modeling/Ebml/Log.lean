import Ebml.ElementId
import Ebml.Block.Lacing

/-!
# The log

What the library notes while it works.  An `Event` says what happened, `Event.level` how severe it
is, and `Event.message` puts it into words.
-/

namespace Ebml

/-- The severity of an event. -/
inductive Level where
  | error
  | warn
  | info
  | debug
  | trace
deriving DecidableEq, Repr, Inhabited

namespace Level

/-- The rank of a level, the most severe first. -/
def rank : Level → Nat
  | error => 0
  | warn => 1
  | info => 2
  | debug => 3
  | trace => 4

/-- The name of a level. -/
def name : Level → String
  | error => "ERROR"
  | warn => "WARN"
  | info => "INFO"
  | debug => "DEBUG"
  | trace => "TRACE"

end Level

/-- What the library notes. -/
inductive Event where
  /-- A body was larger than the allocation limit. -/
  | allocationRefused (size : Nat)
  /-- A child of a master element is about to be read. -/
  | readingChild (child parent : ElementId)
  /-- The value of a primitive element is about to be written. -/
  | writingPrimitive (id : ElementId)
  /-- The value of a primitive element is about to be read. -/
  | readingPrimitive (id : ElementId) (size : Nat)
  /-- A block with fixed lacing holds frames of another size than its first. -/
  | unevenLace (first : Nat)
  /-- A block was written. -/
  | wroteBlock (track frames : Nat)
  /-- The frames of a block are about to be read. -/
  | readingFrames (frames track : Nat) (lacing : Lacing)
  /-- The frames of a fixed lace cannot all be of one size. -/
  | indivisibleLace (frames size : Nat)
  /-- The sizes stored in a lace add up to more than the block holds. -/
  | oversizedLace (total available : Nat)
  /-- A block group was read. -/
  | readBlockGroup (track references : Nat)
  /-- The body of a cluster is about to be read. -/
  | readingCluster (offset size : Nat)
  /-- A child of a cluster, before its blocks, is not known. -/
  | skippingChild (id : ElementId)
  /-- Padding or a checksum lies among the blocks. -/
  | skippingPadding (id : ElementId)
  /-- An element among the blocks is not known. -/
  | skippingElement (id : ElementId)
  /-- A cluster was written as a whole. -/
  | wroteCluster (blocks start written : Nat)
  /-- The blocks of a cluster were read. -/
  | readBlocks (blocks : Nat)
  /-- A cluster is open for blocks to be streamed. -/
  | preparedCluster (start : Nat)
  /-- A block was streamed. -/
  | streamedBlock (track written : Nat)
  /-- The metadata of a cluster was edited after it was written. -/
  | discardedMetadata (start : Nat)
  /-- The size of a streamed cluster was filled in. -/
  | finishedCluster (start blocks bodySize : Nat)
  /-- A block would end past the end of the stream. -/
  | truncatedBlock (offset streamLength : Nat)
  /-- The blocks of a cluster were located. -/
  | indexedBlocks (blocks : Nat)
deriving DecidableEq

namespace Event

/-- How severe an event is: what is skipped or discarded although the caller may want it is a
warning, what happens once per cluster or explains an error is for debugging, the rest traces. -/
def level : Event → Level
  | skippingChild _ | skippingElement _ | discardedMetadata _ => .warn
  | allocationRefused _ | unevenLace _ | indivisibleLace _ _ | oversizedLace _ _ => .debug
  | readingCluster _ _ | skippingPadding _ | wroteCluster _ _ _ | readBlocks _ => .debug
  | preparedCluster _ | finishedCluster _ _ _ | truncatedBlock _ _ | indexedBlocks _ => .debug
  | readingChild _ _ | writingPrimitive _ | readingPrimitive _ _ => .trace
  | wroteBlock _ _ | readingFrames _ _ _ | readBlockGroup _ _ | streamedBlock _ _ => .trace

/-- An event in words. -/
def message : Event → String
  | allocationRefused size => s!"Refusing to allocate {size} bytes for an element body"
  | readingChild child parent =>
    "Reading child " ++ child.inspect ++ " of " ++ parent.inspect
  | writingPrimitive id => "Writing primitive element " ++ id.inspect
  | readingPrimitive id size =>
    "Reading primitive element " ++ id.inspect ++ s!" ({size} bytes)"
  | unevenLace first => s!"Fixed lacing requires all frames to be {first} bytes"
  | wroteBlock track frames => s!"Wrote block for track {track} with {frames} frame(s)"
  | readingFrames frames track lacing =>
    s!"Reading {frames} frame(s) for track {track} (" ++ lacing.name ++ " lacing)"
  | indivisibleLace frames size =>
    s!"Fixed lace of {frames} frames cannot divide {size} bytes"
  | oversizedLace total available =>
    s!"EBML lace sizes ({total} bytes) exceed the block size ({available} bytes)"
  | readBlockGroup track references =>
    s!"Read block group for track {track} with {references} reference(s)"
  | readingCluster offset size => s!"Reading cluster at {offset} ({size} bytes)"
  | skippingChild id => "Skipping unknown cluster child " ++ id.inspect
  | skippingPadding id => "Skipping " ++ id.inspect ++ " in the block region"
  | skippingElement id => "Skipping unknown element " ++ id.inspect ++ " in the block region"
  | wroteCluster blocks start written =>
    s!"Wrote cluster with {blocks} block(s) at {start} ({written} bytes)"
  | readBlocks blocks => s!"Read {blocks} block(s)"
  | preparedCluster start => s!"Prepared streaming cluster at {start}"
  | streamedBlock track written => s!"Streamed block for track {track} ({written} bytes)"
  | discardedMetadata start =>
    s!"Cluster metadata changed after it was written at {start}, discarding the changes"
  | finishedCluster start blocks bodySize =>
    s!"Finished streaming cluster at {start} with {blocks} block(s) ({bodySize} bytes)"
  | truncatedBlock offset streamLength =>
    s!"Block at {offset} ends past the end of the stream ({streamLength})"
  | indexedBlocks blocks => s!"Indexed {blocks} block(s)"

end Event

/-- The events noted so far, oldest first. -/
abbrev Log := Array Event

end Ebml
